import Mathlib.Algebra.Order.Ring.Rat
import Mathlib.Data.String.Basic
import Mathlib.Tactic.NormNum
import PipeLens.Relevance

/-!
# The files that are reported

`correlate_changed_files` reports the best of the files that have a reason, and the
order in which GitHub lists the files makes no difference. A file with a reason has a
positive score, since every reason adds to it.
-/

namespace PipeLens.Proof

open Ranking

variable {unicode : Unicode} {lower : List Char → List Char}

/-! ## One file -/

/-- A reason goes with a positive number, and no reason with zero. -/
def Weighed (affinity : Rat × List String) : Prop :=
  (affinity.2 = [] ∧ affinity.1 = 0) ∨ (affinity.2 ≠ [] ∧ 0 < affinity.1)

theorem Weighed.nonneg {affinity : Rat × List String} (h : Weighed affinity) :
    0 ≤ affinity.1 := by
  rcases h with ⟨_, hzero⟩ | ⟨_, hpos⟩
  · rw [hzero]
  · exact le_of_lt hpos

theorem pathAffinity_weighed (lower : List Char → List Char) (log : List Char) (filename : String) :
    Weighed (pathAffinity lower log filename) := by
  unfold pathAffinity
  split
  · exact Or.inr ⟨List.cons_ne_nil _ _, by norm_num⟩
  · split
    · exact Or.inr ⟨List.cons_ne_nil _ _, by norm_num⟩
    · exact Or.inl ⟨rfl, rfl⟩

theorem categoryAffinity_nonneg (path : PurePath) (category : ErrorCategory) :
    0 ≤ (categoryAffinity lower path category).1 := by
  cases category <;> unfold categoryAffinity <;> dsimp only <;> (try split) <;> norm_num

theorem categoryAffinity_weighed (lower : List Char → List Char) (path : PurePath)
    (category : ErrorCategory) :
    Weighed ((categoryAffinity lower path category).1,
      if (categoryAffinity lower path category).1 = 0 then []
      else [(categoryAffinity lower path category).2]) := by
  by_cases hzero : (categoryAffinity lower path category).1 = 0
  · rw [if_pos hzero]
    exact Or.inl ⟨rfl, hzero⟩
  · rw [if_neg hzero]
    exact Or.inr ⟨List.cons_ne_nil _ _,
      lt_of_le_of_ne (categoryAffinity_nonneg path category) (Ne.symm hzero)⟩

theorem Weighed.add {a b : Rat × List String} (ha : Weighed a) (hb : Weighed b) :
    Weighed (a.1 + b.1, a.2 ++ b.2) := by
  have hb' := hb.nonneg
  rcases ha with ⟨ha, hzero⟩ | ⟨ha, hpos⟩
  · rw [ha, hzero, zero_add, List.nil_append]
    exact hb
  · refine Or.inr ⟨fun h => ha (List.append_eq_nil_iff.mp h).1, ?_⟩
    exact add_pos_of_pos_of_nonneg hpos hb'

/-- What is reported of a file. -/
structure Reported (changed : ChangedFile) (excerpt : Option String) (file : RelatedFile) :
    Prop where
  filename : file.filename = changed.filename
  excerpt : file.patchExcerpt = excerpt
  reasons : file.reasons ≠ []
  positive : 0 < file.score
  bounded : file.score ≤ 1

theorem relatedFile_some {log : List Char} {tokens : List (List Char)}
    {category : ErrorCategory} {changed : ChangedFile} {file : RelatedFile}
    (h : relatedFile unicode lower log tokens category changed = some file) :
    Reported changed (matchingPatchExcerpt unicode lower changed.patch tokens) file := by
  unfold relatedFile at h
  dsimp only at h
  have hpath := pathAffinity_weighed lower log changed.filename
  have hcategory := categoryAffinity_weighed lower
    (PurePath.parse changed.filename.toList) category
  generalize matchingPatchExcerpt unicode lower changed.patch tokens = excerpt at h ⊢
  have hshared : Weighed (if excerpt.any (· != "") = true then (15 / 100 : Rat) else 0,
      if excerpt.any (· != "") = true then ["오류 로그와 변경 코드가 공통 식별자를 포함함"] else []) := by
    cases excerpt.any (· != "") with
    | true => exact Or.inr ⟨List.cons_ne_nil _ _, by norm_num⟩
    | false => exact Or.inl ⟨rfl, rfl⟩
  have hall := (hpath.add hcategory).add hshared
  dsimp only at hall
  generalize (pathAffinity lower log changed.filename).1
    + (categoryAffinity lower (PurePath.parse changed.filename.toList) category).1
    + (if excerpt.any (· != "") = true then (15 / 100 : Rat) else 0) = score at h hall
  by_cases hnone : (pathAffinity lower log changed.filename).2
      ++ (if (categoryAffinity lower (PurePath.parse changed.filename.toList) category).1 = 0
        then []
        else [(categoryAffinity lower (PurePath.parse changed.filename.toList) category).2])
      ++ (if excerpt.any (· != "") = true then ["오류 로그와 변경 코드가 공통 식별자를 포함함"] else [])
      = []
  · rw [if_pos hnone] at h
    exact absurd h (by simp)
  · rw [if_neg hnone] at h
    obtain rfl := Option.some.inj h
    rcases hall with ⟨hempty, _⟩ | ⟨_, hpos⟩
    · exact absurd hempty hnone
    · exact ⟨rfl, rfl, hnone, lt_min hpos one_pos, min_le_right _ _⟩

/-! ## The order -/

instance : Std.Total rankedBefore where
  total a b := by
    rcases lt_trichotomy a.score b.score with hlt | heq | hgt
    · exact Or.inr (Or.inl hlt)
    · rcases le_total a.filename b.filename with hle | hle
      · exact Or.inl (Or.inr ⟨heq, hle⟩)
      · exact Or.inr (Or.inr ⟨heq.symm, hle⟩)
    · exact Or.inl (Or.inl hgt)

instance : IsTrans RelatedFile rankedBefore where
  trans a b c hab hbc := by
    rcases hab with hab | ⟨hab, hname⟩
    · rcases hbc with hbc | ⟨hbc, _⟩
      · exact Or.inl (lt_trans hbc hab)
      · exact Or.inl (hbc ▸ hab)
    · rcases hbc with hbc | ⟨hbc, hname'⟩
      · exact Or.inl (hab ▸ hbc)
      · exact Or.inr ⟨hab.trans hbc, le_trans hname hname'⟩

theorem rankedBefore_tie {a b : RelatedFile} (hab : rankedBefore a b) (hba : rankedBefore b a) :
    a.filename = b.filename := by
  rcases hab with hab | ⟨hscore, hname⟩
  · rcases hba with hba | ⟨hba, _⟩
    · exact absurd hba (lt_asymm hab)
    · exact absurd hab (hba ▸ lt_irrefl _)
  · rcases hba with hba | ⟨_, hname'⟩
    · exact absurd hba (hscore ▸ lt_irrefl _)
    · exact le_antisymm hname hname'

/-! ## The report -/

theorem relatedFile_unique {log : List Char} {tokens : List (List Char)}
    {category : ErrorCategory} {changedFiles : List ChangedFile}
    (hnames : (changedFiles.map ChangedFile.filename).Nodup) {a b : RelatedFile}
    (ha : a ∈ changedFiles.filterMap (relatedFile unicode lower log tokens category))
    (hb : b ∈ changedFiles.filterMap (relatedFile unicode lower log tokens category))
    (hname : a.filename = b.filename) : a = b := by
  obtain ⟨x, hx, hxa⟩ := List.mem_filterMap.mp ha
  obtain ⟨y, hy, hyb⟩ := List.mem_filterMap.mp hb
  have hsame : x.filename = y.filename := by
    rw [← (relatedFile_some hxa).filename, hname, (relatedFile_some hyb).filename]
  have hxy : x = y := List.inj_on_of_nodup_map hnames hx hy hsame
  rw [hxy, hyb] at hxa
  exact (Option.some.inj hxa).symm

/-- **The best files are reported, in whatever order GitHub lists the files.** -/
theorem related_files_ranked (unicode : Unicode) (lower : List Char → List Char) (log : List Char)
    (category : ErrorCategory) (limit : Nat) (changedFiles : List ChangedFile) :
    Best rankedBefore limit
        (changedFiles.filterMap
          (relatedFile unicode lower (lower log) (logTokens lower log) category))
        (correlateChangedFiles unicode lower log changedFiles category limit)
    ∧ (∀ file ∈ correlateChangedFiles unicode lower log changedFiles category limit,
        file.filename ∈ changedFiles.map ChangedFile.filename
        ∧ file.reasons ≠ [] ∧ 0 < file.score ∧ file.score ≤ 1)
    ∧ ((changedFiles.map ChangedFile.filename).Nodup → ∀ relisted, changedFiles.Perm relisted →
        correlateChangedFiles unicode lower log relisted category limit
          = correlateChangedFiles unicode lower log changedFiles category limit) := by
  refine ⟨firstOf_best _ limit _, ?_, ?_⟩
  · intro file hfile
    obtain ⟨changed, hchanged, hrelated⟩ := List.mem_filterMap.mp (mem_firstOf _ hfile)
    have hreported := relatedFile_some hrelated
    refine ⟨?_, hreported.reasons, hreported.positive, hreported.bounded⟩
    rw [hreported.filename]
    exact List.mem_map_of_mem hchanged
  · intro hnames relisted hperm
    refine (firstOf_perm _ (hperm.filterMap _) ?_).symm
    intro a ha b hb hab hba
    exact relatedFile_unique hnames ha hb (rankedBefore_tie hab hba)

end PipeLens.Proof
