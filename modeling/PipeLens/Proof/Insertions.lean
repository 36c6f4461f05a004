import PipeLens.Lib.Lines
import PipeLens.Proof.HunkPlacement

/-!
# Insertions

How hunks are applied that all stand where they are stated: a hunk without old lines goes
behind the line that its header names. `apply_unified_diff` takes the stated line for the
first old line in every case, so that such a hunk goes in front of it.

The difference does not always show. The induction follows both applications at once.
They are at the same line, or the implementation is one line behind because it has put an
insertion in front of a line and not behind it.
-/

namespace PipeLens.Proof

open Text

/-! ## Hunks where they are stated -/

/-- The lines of the file in front of a hunk. There is no line 0 that old lines could start at. -/
def exactPosition (hunk : Hunk) : Option Nat :=
  if hunk.oldLines = [] then some hunk.oldStart
  else if hunk.oldStart = 0 then none
  else some (hunk.oldStart - 1)

/-- The application from line `done` on, if all hunks stand where they are stated. -/
def exactHunks (lines : List (List Char)) : Nat → List Hunk → Option (List (List Char))
  | done, [] => some (lines.drop done)
  | done, hunk :: hunks => do
      let position ← exactPosition hunk
      if done ≤ position ∧ position ≤ lines.length ∧ hunkMatches lines hunk position then
        let rest ← exactHunks lines (position + hunk.oldLines.length) hunks
        return (lines.drop done).take (position - done) ++ hunk.newLines ++ rest
      else none

/-! ## The condition -/

/-- Some hunk without old lines states this line. -/
def InsertsBehind (hunks : List Hunk) (line : Nat) : Prop :=
  ∃ hunk ∈ hunks, hunk.oldLines = [] ∧ hunk.oldStart = line

/-- All that such hunks insert. -/
def insertedBehind (hunks : List Hunk) (line : Nat) : List Char :=
  ((hunks.filter fun hunk => hunk.oldLines = [] ∧ hunk.oldStart = line).flatMap
    Hunk.newLines).flatten

/-- Some hunk has this line for its last old line. -/
def EndsAt (hunks : List Hunk) (line : Nat) : Prop :=
  ∃ hunk ∈ hunks, hunk.oldLines ≠ [] ∧ hunk.oldStart - 1 + hunk.oldLines.length = line

/-- The line with a number, counted from 1. -/
def lineAt (lines : List (List Char)) (number : Nat) : List Char := lines.getD (number - 1) []

/-- An insertion does the same in front of the line as behind it. If the line is taken by a hunk,
only the end of the file is left for it. -/
structure HarmlessAt (lines : List (List Char)) (taken : Prop) (line : Nat) (text : List Char) :
    Prop where
  atEnd : taken → line = lines.length
  copies : ¬ taken → IsCopies (lineAt lines line) text

/-- All insertions behind lines of the file are harmless. -/
def AllHarmless (lines : List (List Char)) (hunks : List Hunk) : Prop :=
  ∀ line, 0 < line → InsertsBehind hunks line →
    HarmlessAt lines (EndsAt hunks line) line (insertedBehind hunks line)

/-! ## Conditions along the hunks -/

/-- The condition from line `done` on, which is the end of the last hunk. -/
def HarmlessFrom (lines : List (List Char)) (done : Nat) (hunks : List Hunk) : Prop :=
  ∀ line, 0 < line → InsertsBehind hunks line →
    HarmlessAt lines (line = done ∨ EndsAt hunks line) line (insertedBehind hunks line)

/-- The condition when `text` has been put in front of the line `done` already. -/
structure HarmlessBehind (lines : List (List Char)) (done : Nat) (text : List Char)
    (hunks : List Hunk) : Prop where
  copies : IsCopies (lineAt lines done) (text ++ insertedBehind hunks done)
  later : ∀ line, done < line → InsertsBehind hunks line →
    HarmlessAt lines (EndsAt hunks line) line (insertedBehind hunks line)

/-- The hunks are for what comes behind a line. -/
def AllBehind (done : Nat) (hunks : List Hunk) : Prop :=
  ∀ hunk ∈ hunks, done ≤ hunk.oldStart ∧ (hunk.oldLines ≠ [] → done < hunk.oldStart)

theorem insertsBehind_cons (hunk : Hunk) (hunks : List Hunk) (line : Nat) :
    InsertsBehind (hunk :: hunks) line
      ↔ (hunk.oldLines = [] ∧ hunk.oldStart = line) ∨ InsertsBehind hunks line := by
  simp [InsertsBehind]

/-- Hunks that insert elsewhere do not count. -/
theorem insertsBehind_other {hunk : Hunk} {line : Nat}
    (h : ¬ (hunk.oldLines = [] ∧ hunk.oldStart = line)) (hunks : List Hunk) :
    InsertsBehind (hunk :: hunks) line ↔ InsertsBehind hunks line := by
  rw [insertsBehind_cons]
  exact or_iff_right h

theorem endsAt_cons (hunk : Hunk) (hunks : List Hunk) (line : Nat) :
    EndsAt (hunk :: hunks) line
      ↔ (hunk.oldLines ≠ [] ∧ hunk.oldStart - 1 + hunk.oldLines.length = line)
        ∨ EndsAt hunks line := by
  simp [EndsAt]

theorem insertedBehind_here {hunk : Hunk} (h : hunk.oldLines = []) (hunks : List Hunk) :
    insertedBehind (hunk :: hunks) hunk.oldStart
      = hunk.newLines.flatten ++ insertedBehind hunks hunk.oldStart := by
  simp [insertedBehind, h]

theorem insertedBehind_other {hunk : Hunk} {line : Nat}
    (h : ¬ (hunk.oldLines = [] ∧ hunk.oldStart = line)) (hunks : List Hunk) :
    insertedBehind (hunk :: hunks) line = insertedBehind hunks line := by
  unfold insertedBehind
  rw [List.filter_cons_of_neg (by simpa using h)]

theorem insertedBehind_eq_nil {hunks : List Hunk} {line : Nat} (h : ¬ InsertsBehind hunks line) :
    insertedBehind hunks line = [] := by
  have hnone : (hunks.filter fun hunk => hunk.oldLines = [] ∧ hunk.oldStart = line) = [] := by
    refine List.filter_eq_nil_iff.mpr fun hunk hmem hboth => h ⟨hunk, hmem, by simpa using hboth⟩
  unfold insertedBehind
  rw [hnone]
  rfl

theorem AllBehind.inserts {done line : Nat} {hunks : List Hunk} (h : AllBehind done hunks)
    (hline : InsertsBehind hunks line) : done ≤ line := by
  obtain ⟨hunk, hmem, _, rfl⟩ := hline
  exact (h hunk hmem).1

theorem AllBehind.ends {done line : Nat} {hunks : List Hunk} (h : AllBehind done hunks)
    (hline : EndsAt hunks line) : done < line := by
  obtain ⟨hunk, hmem, hne, rfl⟩ := hline
  have hstart := (h hunk hmem).2 hne
  have hlength := List.length_pos_iff.mpr hne
  omega

theorem harmlessAt_congr {lines : List (List Char)} {taken taken' : Prop} {line : Nat}
    {text text' : List Char} (htaken : taken ↔ taken') (htext : text = text') :
    HarmlessAt lines taken line text ↔ HarmlessAt lines taken' line text' := by
  rw [propext htaken, htext]

section Conditions

variable {lines : List (List Char)} {hunk : Hunk} {hunks : List Hunk} {done : Nat}
  {text : List Char}

/-- Behind a hunk with old lines. -/
theorem harmlessFrom_replace (hne : hunk.oldLines ≠ []) (hdone : done < hunk.oldStart)
    (hbehind : AllBehind (hunk.oldStart - 1 + hunk.oldLines.length) hunks) :
    HarmlessFrom lines done (hunk :: hunks)
      ↔ HarmlessFrom lines (hunk.oldStart - 1 + hunk.oldLines.length) hunks := by
  have hlength := List.length_pos_iff.mpr hne
  have hstep : ∀ line, InsertsBehind hunks line →
      (HarmlessAt lines (line = done ∨ EndsAt (hunk :: hunks) line) line
          (insertedBehind (hunk :: hunks) line)
        ↔ HarmlessAt lines (line = hunk.oldStart - 1 + hunk.oldLines.length ∨ EndsAt hunks line)
          line (insertedBehind hunks line)) := by
    intro line hinserts
    have hline := hbehind.inserts hinserts
    refine harmlessAt_congr ?_ (insertedBehind_other (fun h => hne h.1) hunks)
    rw [endsAt_cons]
    constructor
    · intro h
      rcases h with h | h | h
      · omega
      · exact Or.inl h.2.symm
      · exact Or.inr h
    · intro h
      rcases h with h | h
      · exact Or.inr (Or.inl ⟨hne, h.symm⟩)
      · exact Or.inr (Or.inr h)
  unfold HarmlessFrom
  refine forall_congr' fun line => forall_congr' fun _ => ?_
  rw [insertsBehind_cons]
  constructor
  · intro h hinserts
    exact (hstep line hinserts).mp (h (Or.inr hinserts))
  · intro h hinserts
    have hrest := hinserts.resolve_left fun h' => hne h'.1
    exact (hstep line hrest).mpr (h hrest)

/-- A hunk without old lines does not end at a line. -/
theorem endsAt_insert (hempty : hunk.oldLines = []) (line : Nat) :
    EndsAt (hunk :: hunks) line ↔ EndsAt hunks line := by
  rw [endsAt_cons]
  exact or_iff_right fun h => h.1 hempty

/-- At the start of the file there is no line to be in front of. -/
theorem harmlessFrom_start (hempty : hunk.oldLines = []) (hstart : hunk.oldStart = 0) :
    HarmlessFrom lines 0 (hunk :: hunks) ↔ HarmlessFrom lines 0 hunks := by
  unfold HarmlessFrom
  refine forall_congr' fun line => forall_congr' fun hpos => ?_
  have hother : ¬ (hunk.oldLines = [] ∧ hunk.oldStart = line) := fun h => by omega
  rw [insertsBehind_other hother, insertedBehind_other hother, endsAt_insert hempty]

/-- Right behind another hunk. -/
theorem harmlessFrom_taken (hempty : hunk.oldLines = []) (hstart : hunk.oldStart = done)
    (hpos : 0 < done) :
    HarmlessFrom lines done (hunk :: hunks)
      ↔ done = lines.length ∧ HarmlessFrom lines done hunks := by
  constructor
  · intro h
    have hend : done = lines.length :=
      (h done hpos ((insertsBehind_cons _ _ _).mpr (Or.inl ⟨hempty, hstart⟩))).atEnd (Or.inl rfl)
    refine ⟨hend, fun line hline hinserts => ?_⟩
    by_cases hhere : line = done
    · exact ⟨fun _ => hhere.trans hend, fun hnot => absurd (Or.inl hhere) hnot⟩
    · have hother : ¬ (hunk.oldLines = [] ∧ hunk.oldStart = line) := fun h => by omega
      have hcond := h line hline ((insertsBehind_cons _ _ _).mpr (Or.inr hinserts))
      rw [insertedBehind_other hother, endsAt_insert hempty] at hcond
      exact hcond
  · intro h line hline hinserts
    obtain ⟨hend, hrest⟩ := h
    by_cases hhere : line = done
    · exact ⟨fun _ => hhere.trans hend, fun hnot => absurd (Or.inl hhere) hnot⟩
    · have hother : ¬ (hunk.oldLines = [] ∧ hunk.oldStart = line) := fun h => by omega
      rw [insertsBehind_other hother] at hinserts
      rw [insertedBehind_other hother, endsAt_insert hempty]
      exact hrest line hline hinserts

/-- Behind a line that stays. -/
theorem harmlessFrom_insert (hempty : hunk.oldLines = []) (hdone : done < hunk.oldStart)
    (hbehind : AllBehind hunk.oldStart hunks) :
    HarmlessFrom lines done (hunk :: hunks)
      ↔ HarmlessBehind lines hunk.oldStart hunk.newLines.flatten hunks := by
  have htaken : ∀ line, hunk.oldStart ≤ line →
      (line = done ∨ EndsAt (hunk :: hunks) line ↔ EndsAt hunks line) := by
    intro line hline
    rw [endsAt_insert hempty]
    exact or_iff_right (by omega)
  have hfree : ¬ EndsAt hunks hunk.oldStart := fun h => absurd (hbehind.ends h) (by omega)
  constructor
  · intro h
    refine ⟨?_, fun line hline hinserts => ?_⟩
    · have hhere := h hunk.oldStart (by omega)
        ((insertsBehind_cons _ _ _).mpr (Or.inl ⟨hempty, rfl⟩))
      rw [htaken _ (Nat.le_refl _), insertedBehind_here hempty] at hhere
      exact hhere.copies hfree
    · have hlater := h line (by omega) ((insertsBehind_cons _ _ _).mpr (Or.inr hinserts))
      rw [htaken line hline.le, insertedBehind_other fun h => by omega] at hlater
      exact hlater
  · intro h line hline hinserts
    have hle : hunk.oldStart ≤ line := by
      rcases (insertsBehind_cons _ _ _).mp hinserts with hhere | hlater
      · exact hhere.2.le
      · exact hbehind.inserts hlater
    rw [htaken line hle]
    rcases Nat.eq_or_lt_of_le hle with rfl | hlt
    · rw [insertedBehind_here hempty]
      exact ⟨fun hends => absurd hends hfree, fun _ => h.copies⟩
    · have hother : ¬ (hunk.oldLines = [] ∧ hunk.oldStart = line) := fun h => by omega
      rw [insertsBehind_other hother] at hinserts
      rw [insertedBehind_other hother]
      exact h.later line hlt hinserts

theorem harmlessBehind_nil :
    HarmlessBehind lines done text [] ↔ IsCopies (lineAt lines done) text := by
  have hnone : insertedBehind [] done = [] := rfl
  constructor
  · intro h
    have hcopies := h.copies
    rwa [hnone, List.append_nil] at hcopies
  · intro h
    refine ⟨by rwa [hnone, List.append_nil], fun line _ hinserts => ?_⟩
    obtain ⟨hunk, hmem, _⟩ := hinserts
    exact nomatch hmem

/-- One more insertion behind the same line. -/
theorem harmlessBehind_more (hempty : hunk.oldLines = []) (hstart : hunk.oldStart = done) :
    HarmlessBehind lines done text (hunk :: hunks)
      ↔ HarmlessBehind lines done (text ++ hunk.newLines.flatten) hunks := by
  have hlater : ∀ line, done < line →
      ((InsertsBehind (hunk :: hunks) line → HarmlessAt lines (EndsAt (hunk :: hunks) line) line
          (insertedBehind (hunk :: hunks) line))
        ↔ (InsertsBehind hunks line →
          HarmlessAt lines (EndsAt hunks line) line (insertedBehind hunks line))) := by
    intro line hline
    have hother : ¬ (hunk.oldLines = [] ∧ hunk.oldStart = line) := fun h => by omega
    rw [insertsBehind_other hother, insertedBehind_other hother,
      endsAt_insert hempty]
  have hhere : text ++ insertedBehind (hunk :: hunks) done
      = text ++ hunk.newLines.flatten ++ insertedBehind hunks done := by
    rw [← hstart, insertedBehind_here hempty, List.append_assoc]
  constructor
  · intro h
    exact ⟨hhere ▸ h.copies, fun line hline => (hlater line hline).mp (h.later line hline)⟩
  · intro h
    exact ⟨hhere.symm ▸ h.copies, fun line hline => (hlater line hline).mpr (h.later line hline)⟩

/-- Nothing more goes behind the same line. -/
theorem harmlessBehind_done (hinserts : ∀ line, InsertsBehind hunks line → done < line) :
    HarmlessBehind lines done text hunks
      ↔ IsCopies (lineAt lines done) text ∧ HarmlessFrom lines done hunks := by
  have hnone : insertedBehind hunks done = [] :=
    insertedBehind_eq_nil fun h => absurd (hinserts done h) (by omega)
  have htaken : ∀ line, done < line → (line = done ∨ EndsAt hunks line ↔ EndsAt hunks line) :=
    fun line hline => or_iff_right (by omega)
  constructor
  · intro h
    refine ⟨by simpa [hnone] using h.copies, fun line _ hline => ?_⟩
    rw [htaken line (hinserts line hline)]
    exact h.later line (hinserts line hline) hline
  · intro h
    refine ⟨by simpa [hnone] using h.1, fun line hlt hline => ?_⟩
    rw [← htaken line hlt]
    exact h.2 line (by omega) hline

/-- A hunk with old lines behind it. -/
theorem harmlessBehind_replace (hne : hunk.oldLines ≠ []) (hdone : done < hunk.oldStart)
    (hbehind : AllBehind (hunk.oldStart - 1 + hunk.oldLines.length) hunks) :
    HarmlessBehind lines done text (hunk :: hunks)
      ↔ IsCopies (lineAt lines done) text
        ∧ HarmlessFrom lines (hunk.oldStart - 1 + hunk.oldLines.length) hunks := by
  rw [← harmlessFrom_replace hne hdone hbehind]
  refine harmlessBehind_done fun line h => ?_
  rw [insertsBehind_other fun h => hne h.1] at h
  have hlength := List.length_pos_iff.mpr hne
  have hline := hbehind.inserts h
  omega

/-- An insertion behind a later line. -/
theorem harmlessBehind_insert (hempty : hunk.oldLines = []) (hdone : done < hunk.oldStart)
    (hbehind : AllBehind hunk.oldStart hunks) :
    HarmlessBehind lines done text (hunk :: hunks)
      ↔ IsCopies (lineAt lines done) text
        ∧ HarmlessBehind lines hunk.oldStart hunk.newLines.flatten hunks := by
  rw [← harmlessFrom_insert hempty hdone hbehind]
  refine harmlessBehind_done fun line h => ?_
  rcases (insertsBehind_cons _ _ _).mp h with hhere | hlater
  · omega
  · exact Nat.lt_of_lt_of_le hdone (hbehind.inserts hlater)

end Conditions

/-! ## Both applications at once -/

/-- What the application asks of the first hunk. -/
theorem exactHunks_cons {lines result : List (List Char)} {done : Nat} {hunk : Hunk}
    {hunks : List Hunk} (h : exactHunks lines done (hunk :: hunks) = some result) :
    ∃ position rest, exactPosition hunk = some position ∧ done ≤ position
      ∧ position ≤ lines.length ∧ hunkMatches lines hunk position = true
      ∧ exactHunks lines (position + hunk.oldLines.length) hunks = some rest
      ∧ result = (lines.drop done).take (position - done) ++ hunk.newLines ++ rest := by
  unfold exactHunks at h
  obtain ⟨position, hposition, h⟩ := Option.bind_eq_some_iff.mp h
  split at h
  · rename_i hchecks
    obtain ⟨rest, hrest, h⟩ := Option.bind_eq_some_iff.mp h
    exact ⟨position, rest, hposition, hchecks.1, hchecks.2.1, hchecks.2.2, hrest,
      (Option.some.inj h).symm⟩
  · exact nomatch h

theorem exactPosition_replace {hunk : Hunk} {position : Nat} (hne : hunk.oldLines ≠ [])
    (h : exactPosition hunk = some position) :
    0 < hunk.oldStart ∧ position = hunk.oldStart - 1 := by
  unfold exactPosition at h
  rw [if_neg hne] at h
  split at h
  · exact nomatch h
  · exact ⟨by omega, (Option.some.inj h).symm⟩

theorem exactPosition_insert {hunk : Hunk} {position : Nat} (hempty : hunk.oldLines = [])
    (h : exactPosition hunk = some position) : position = hunk.oldStart := by
  unfold exactPosition at h
  rw [if_pos hempty] at h
  exact (Option.some.inj h).symm

/-- It goes through the file in order. -/
theorem allBehind_of_exact {lines result : List (List Char)} {done : Nat} {hunks : List Hunk}
    (h : exactHunks lines done hunks = some result) : AllBehind done hunks := by
  induction hunks generalizing done result with
  | nil => exact nofun
  | cons hunk hunks ih =>
      obtain ⟨position, rest, hposition, hdone, _, _, hrest, _⟩ := exactHunks_cons h
      intro other hother
      rcases List.mem_cons.mp hother with rfl | hother
      · by_cases hempty : other.oldLines = []
        · rw [exactPosition_insert hempty hposition] at hdone
          exact ⟨hdone, fun hne => absurd hempty hne⟩
        · obtain ⟨hpos, hstart⟩ := exactPosition_replace hempty hposition
          exact ⟨by omega, fun _ => by omega⟩
      · obtain ⟨hle, hlt⟩ := ih hrest other hother
        exact ⟨by omega, fun hne => by have := hlt hne; omega⟩

section Both

variable {lines : List (List Char)}

/-- One hunk of the loop of `apply_unified_diff`, seen from its result. -/
theorem exists_applyHunks_cons {hunk : Hunk} {hunks : List Hunk} {cursor start : Nat}
    {p : List (List Char) → Prop} (hlocate : locateHunk lines hunk cursor = .ok start) :
    (∃ out, applyHunks lines cursor (hunk :: hunks) = .ok out ∧ p out)
      ↔ ∃ out, applyHunks lines (start + hunk.oldLines.length) hunks = .ok out
        ∧ p ((lines.drop cursor).take (start - cursor) ++ hunk.newLines ++ out) := by
  constructor
  · intro h
    obtain ⟨out, happly, hp⟩ := h
    unfold applyHunks at happly
    obtain ⟨start', hlocate', happly⟩ := Program.bind_eq_ok happly
    obtain ⟨rest, hrest, happly⟩ := Program.bind_eq_ok happly
    obtain rfl : start = start' := Except.ok.inj (hlocate.symm.trans hlocate')
    obtain rfl := Except.ok.inj happly
    exact ⟨rest, hrest, hp⟩
  · intro h
    obtain ⟨out, happly, hp⟩ := h
    refine ⟨_, ?_, hp⟩
    rw [applyHunks, hlocate]
    show (applyHunks lines (start + hunk.oldLines.length) hunks >>= _) = _
    rw [happly]
    rfl

/-- A hunk without old lines fits everywhere. -/
theorem hunkMatches_insert {hunk : Hunk} (hempty : hunk.oldLines = []) (position : Nat) :
    hunkMatches lines hunk position = true := by
  simp [hunkMatches, hempty]

/-- The implementation takes the stated line for the first old line. -/
theorem locateHunk_before {hunk : Hunk} {cursor : Nat} (hcursor : cursor ≤ hunk.oldStart - 1)
    (hmatches : hunkMatches lines hunk (hunk.oldStart - 1) = true) :
    locateHunk lines hunk cursor = .ok (hunk.oldStart - 1) := by
  refine locateHunk_stated rfl hcursor ?_
  unfold hunkMatches at hmatches
  exact beq_iff_eq.mp hmatches

/-- Behind the stated line, an insertion has a place only at the end. -/
theorem locateHunk_insert {hunk : Hunk} {cursor : Nat} (hempty : hunk.oldLines = [])
    (hcursor : hunk.oldStart - 1 < cursor) (hle : cursor ≤ lines.length) :
    (cursor = lines.length → locateHunk lines hunk cursor = .ok cursor)
      ∧ (cursor ≠ lines.length → ∃ e, locateHunk lines hunk cursor = .error e) := by
  have hcandidates : (List.range (lines.length + 1 - hunk.oldLines.length)).filter
      (fun start => decide (cursor ≤ start) && hunkMatches lines hunk start)
      = (List.range (lines.length + 1)).filter fun start => decide (cursor ≤ start) := by
    rw [hempty, List.length_nil, Nat.sub_zero]
    refine List.filter_congr fun start _ => ?_
    rw [hunkMatches_insert hempty, Bool.and_true]
  have hstated : (decide (cursor ≤ hunk.oldStart - 1) && hunkMatches lines hunk (hunk.oldStart - 1))
      = false := by
    rw [decide_eq_false (by omega), Bool.false_and]
  unfold locateHunk
  dsimp only
  rw [hstated, hcandidates, if_neg (by decide)]
  constructor
  · intro hend
    have hnone : (List.range lines.length).filter (fun start => decide (cursor ≤ start)) = [] := by
      refine List.filter_eq_nil_iff.mpr fun start hmem => ?_
      rw [List.mem_range] at hmem
      rw [decide_eq_true_eq]
      omega
    rw [List.range_succ, List.filter_append, hnone, hend]
    simp
  · intro hbefore
    have hmem : ∀ start, cursor ≤ start → start ≤ lines.length →
        start ∈ (List.range (lines.length + 1)).filter fun start => decide (cursor ≤ start) := by
      intro start hlow hhigh
      simp only [List.mem_filter, List.mem_range, decide_eq_true_eq]
      omega
    have hfirst := hmem cursor (Nat.le_refl _) hle
    have hlast := hmem lines.length hle (Nat.le_refl _)
    split
    · rename_i start hone
      rw [hone, List.mem_singleton] at hfirst hlast
      exact absurd (hfirst.trans hlast.symm) hbefore
    · exact ⟨_, rfl⟩
    · exact ⟨_, rfl⟩

theorem lineAt_eq {line : Nat} (hlt : line - 1 < lines.length) :
    lineAt lines line = lines[line - 1] := by
  simp [lineAt, hlt]

theorem drop_pred {line : Nat} (hpos : 0 < line) (hle : line ≤ lines.length) :
    lines.drop (line - 1) = lineAt lines line :: lines.drop line := by
  have hlt : line - 1 < lines.length := by omega
  have hnext : line - 1 + 1 = line := by omega
  rw [List.drop_eq_getElem_cons hlt, hnext, lineAt_eq hlt]

theorem take_to_line {done line : Nat} (hdone : done < line) (hle : line ≤ lines.length) :
    (lines.drop done).take (line - done)
      = (lines.drop done).take (line - 1 - done) ++ [lineAt lines line] := by
  have hlt : line - 1 < lines.length := by omega
  have hcount : line - done = line - 1 - done + 1 := by omega
  have hindex : done + (line - 1 - done) = line - 1 := by omega
  rw [hcount, List.take_add_one, List.getElem?_drop, hindex, List.getElem?_eq_getElem hlt,
    lineAt_eq hlt]
  rfl

/-- The lines from the one before on, up to a later position. -/
theorem take_from_pred {line position : Nat} (hpos : 0 < line) (hle : line ≤ lines.length)
    (hposition : line ≤ position) :
    (lines.drop (line - 1)).take (position - (line - 1))
      = lineAt lines line :: (lines.drop line).take (position - line) := by
  have hcount : position - (line - 1) = position - line + 1 := by omega
  rw [hcount, drop_pred hpos hle, List.take_succ_cons]

/-- Two texts that differ in whether the line comes first. -/
theorem commute_split {text line out out' : List Char} :
    text ++ (line ++ out) = line ++ (text ++ out') ↔ text ++ line = line ++ text ∧ out = out' := by
  rw [← List.append_assoc, ← List.append_assoc line]
  constructor
  · intro h
    exact List.append_inj h (by simp [Nat.add_comm])
  · intro h
    rw [h.1, h.2]

theorem exists_and_both {α : Type} {p q : α → Prop} {c : Prop} :
    (∃ x, p x ∧ c ∧ q x) ↔ c ∧ ∃ x, p x ∧ q x := by
  constructor
  · intro h
    obtain ⟨x, hp, hc, hq⟩ := h
    exact ⟨hc, x, hp, hq⟩
  · intro h
    obtain ⟨hc, x, hp, hq⟩ := h
    exact ⟨x, hp, hc, hq⟩

/-- The two parts of the induction, for hunks: the applications are at the same line, -/
def FollowsSame (lines : List (List Char)) (hunks : List Hunk) : Prop :=
  ∀ done result, exactHunks lines done hunks = some result →
    ((∃ out, applyHunks lines done hunks = .ok out ∧ out.flatten = result.flatten)
      ↔ HarmlessFrom lines done hunks)

/-- or the implementation is one line behind, and `text` has been put in front of that line. -/
def FollowsBehind (lines : List (List Char)) (hunks : List Hunk) : Prop :=
  ∀ line text result, 0 < line → line ≤ lines.length →
    exactHunks lines line hunks = some result →
    ((∃ out, applyHunks lines (line - 1) hunks = .ok out
        ∧ text ++ out.flatten = lineAt lines line ++ text ++ result.flatten)
      ↔ HarmlessBehind lines line text hunks)

theorem follow_same {hunk : Hunk} {hunks : List Hunk} (ihSame : FollowsSame lines hunks)
    (ihBehind : FollowsBehind lines hunks) : FollowsSame lines (hunk :: hunks) := by
  intro done result href
  obtain ⟨position, rest, hposition, hdone, hle, hmatches, hrest, rfl⟩ := exactHunks_cons href
  have hbehind := allBehind_of_exact hrest
  have hcancel : ∀ (gap out : List (List Char)),
      (gap ++ hunk.newLines ++ out).flatten = (gap ++ hunk.newLines ++ rest).flatten
        ↔ out.flatten = rest.flatten := by
    intro gap out
    simp only [List.flatten_append, List.append_cancel_left_eq]
  by_cases hempty : hunk.oldLines = []
  · obtain rfl := exactPosition_insert hempty hposition
    rw [hempty, List.length_nil, Nat.add_zero] at hrest hbehind
    rcases Nat.eq_zero_or_pos hunk.oldStart with hzero | hpos
    · -- at the start of the file
      obtain rfl : done = 0 := by omega
      have hlocate : locateHunk lines hunk 0 = .ok 0 := by
        have hbefore : locateHunk lines hunk 0 = .ok (hunk.oldStart - 1) :=
          locateHunk_before (Nat.zero_le _) (hunkMatches_insert hempty _)
        rwa [hzero] at hbefore
      rw [exists_applyHunks_cons hlocate, harmlessFrom_start hempty hzero, hempty, List.length_nil,
        ← ihSame 0 rest (by rwa [hzero] at hrest), hzero]
      simp only [hcancel]
    · rcases Nat.eq_or_lt_of_le hdone with rfl | hlt
      · -- right behind another hunk
        have hbefore : hunk.oldStart - 1 < hunk.oldStart := by omega
        obtain ⟨hend, hnotEnd⟩ := locateHunk_insert hempty hbefore hle
        rw [harmlessFrom_taken hempty rfl hpos, ← ihSame _ rest hrest]
        by_cases hlast : hunk.oldStart = lines.length
        · rw [exists_applyHunks_cons (hend hlast), hempty, List.length_nil, Nat.add_zero]
          simp only [hcancel, hlast, true_and]
        · obtain ⟨e, herror⟩ := hnotEnd hlast
          constructor
          · intro h
            obtain ⟨out, happly, _⟩ := h
            rw [applyHunks, herror] at happly
            cases happly
          · intro h
            exact absurd h.1 hlast
      · -- behind a line that stays
        have hlocate : locateHunk lines hunk done = .ok (hunk.oldStart - 1) :=
          locateHunk_before (by omega) (hunkMatches_insert hempty _)
        rw [exists_applyHunks_cons hlocate, harmlessFrom_insert hempty hlt hbehind,
          ← ihBehind _ _ rest hpos hle hrest, hempty, List.length_nil, Nat.add_zero,
          take_to_line hlt hle]
        refine exists_congr fun out => and_congr_right fun _ => ?_
        simp only [List.flatten_append, List.append_assoc, List.append_cancel_left_eq,
          List.flatten_cons, List.flatten_nil, List.nil_append]
  · obtain ⟨hpos, rfl⟩ := exactPosition_replace hempty hposition
    have hlocate := locateHunk_before hdone hmatches
    rw [exists_applyHunks_cons hlocate, harmlessFrom_replace hempty (by omega) hbehind,
      ← ihSame _ rest hrest]
    simp only [hcancel]

variable (hlines : ∀ raw ∈ lines, IsLine raw ∧ content raw ≠ raw)
include hlines

theorem isCopies_lineAt {line : Nat} (hpos : 0 < line) (hle : line ≤ lines.length)
    (text : List Char) :
    IsCopies (lineAt lines line) text
      ↔ text ++ lineAt lines line = lineAt lines line ++ text := by
  have hmem : lineAt lines line ∈ lines := by
    rw [lineAt_eq (by omega)]
    exact List.getElem_mem _
  exact isCopies_iff (hlines _ hmem).1 (hlines _ hmem).2 text

theorem follow_behind {hunk : Hunk} {hunks : List Hunk} (ihSame : FollowsSame lines hunks)
    (ihBehind : FollowsBehind lines hunks) : FollowsBehind lines (hunk :: hunks) := by
  intro line text result hpos hle href
  obtain ⟨position, rest, hposition, hline, hposle, hmatches, hrest, rfl⟩ :=
    exactHunks_cons href
  have hbehind := allBehind_of_exact hrest
  by_cases hempty : hunk.oldLines = []
  · obtain rfl := exactPosition_insert hempty hposition
    rw [hempty, List.length_nil, Nat.add_zero] at hrest hbehind
    have hlocate : locateHunk lines hunk (line - 1) = .ok (hunk.oldStart - 1) :=
      locateHunk_before (by omega) (hunkMatches_insert hempty _)
    rw [exists_applyHunks_cons hlocate, hempty, List.length_nil, Nat.add_zero]
    rcases Nat.eq_or_lt_of_le hline with rfl | hlt
    · -- behind the same line
      rw [harmlessBehind_more hempty rfl, ← ihBehind _ _ rest hpos hle hrest]
      refine exists_congr fun out => and_congr_right fun _ => ?_
      simp [List.append_assoc]
    · -- behind a later line
      rw [harmlessBehind_insert hempty hlt hbehind,
        ← ihBehind _ hunk.newLines.flatten rest (by omega) hposle hrest,
        isCopies_lineAt hlines hpos hle, take_from_pred hpos hle (by omega),
        take_to_line hlt hposle]
      simp only [List.flatten_append, List.flatten_cons, List.nil_append, List.append_assoc,
        List.cons_append, commute_split, List.append_cancel_left_eq]
      exact exists_and_both
  · obtain ⟨hstart, rfl⟩ := exactPosition_replace hempty hposition
    have hlocate : locateHunk lines hunk (line - 1) = .ok (hunk.oldStart - 1) :=
      locateHunk_before (by omega) hmatches
    rw [exists_applyHunks_cons hlocate, harmlessBehind_replace hempty (by omega) hbehind,
      ← ihSame _ rest hrest, isCopies_lineAt hlines hpos hle, take_from_pred hpos hle (by omega)]
    simp only [List.flatten_append, List.flatten_cons, List.append_assoc, List.cons_append,
      commute_split, List.append_cancel_left_eq]
    exact exists_and_both

/-- **Both applications along the hunks.** -/
theorem follow_both (hunks : List Hunk) : FollowsSame lines hunks ∧ FollowsBehind lines hunks := by
  induction hunks with
  | nil =>
      constructor
      · intro done result href
        obtain rfl : lines.drop done = result := Option.some.inj href
        refine ⟨fun _ line _ hinserts => ?_, fun _ => ⟨_, rfl, rfl⟩⟩
        obtain ⟨hunk, hmem, _⟩ := hinserts
        exact nomatch hmem
      · intro line text result hpos hle href
        obtain rfl : lines.drop line = result := Option.some.inj href
        rw [harmlessBehind_nil, isCopies_lineAt hlines hpos hle]
        show (∃ out, Except.ok (lines.drop (line - 1)) = .ok out ∧ _) ↔ _
        simp only [Except.ok.injEq, exists_eq_left', drop_pred hpos hle, List.flatten_cons,
          List.append_assoc, commute_split, and_true]
  | cons hunk hunks ih =>
      exact ⟨follow_same ih.1 ih.2, follow_behind hlines ih.1 ih.2⟩

end Both

/-- The condition at the start of the file. -/
theorem harmlessFrom_zero {lines : List (List Char)} {hunks : List Hunk} :
    HarmlessFrom lines 0 hunks ↔ AllHarmless lines hunks := by
  unfold HarmlessFrom AllHarmless
  refine forall_congr' fun line => forall_congr' fun hpos => forall_congr' fun _ => ?_
  exact harmlessAt_congr (or_iff_right (by omega)) rfl

/-! ## Lengths -/

/-- The implementation puts a hunk where it is stated, or one line in front of that. -/
theorem locateHunk_near {lines : List (List Char)} {hunk : Hunk} {done cursor position start : Nat}
    (hposition : exactPosition hunk = some position) (hdone : done ≤ position)
    (hle : position ≤ lines.length) (hmatches : hunkMatches lines hunk position = true)
    (hcursor : cursor ≤ done) (hnear : done ≤ cursor + 1)
    (hlocate : locateHunk lines hunk cursor = .ok start) :
    cursor ≤ start ∧ start ≤ position ∧ position ≤ start + 1
      ∧ (hunk.oldLines ≠ [] → start = position) := by
  by_cases hempty : hunk.oldLines = []
  · obtain rfl := exactPosition_insert hempty hposition
    by_cases hbefore : cursor ≤ hunk.oldStart - 1
    · have hstart : locateHunk lines hunk cursor = .ok (hunk.oldStart - 1) :=
        locateHunk_before hbefore (hunkMatches_insert hempty _)
      obtain rfl := Except.ok.inj (hlocate.symm.trans hstart)
      exact ⟨hbefore, by omega, by omega, fun hne => absurd hempty hne⟩
    · -- right behind another hunk
      have hbehind : hunk.oldStart - 1 < cursor := by omega
      have hroom : cursor ≤ lines.length := by omega
      obtain ⟨hend, hnotEnd⟩ := locateHunk_insert hempty hbehind hroom
      by_cases hlast : cursor = lines.length
      · obtain rfl := Except.ok.inj (hlocate.symm.trans (hend hlast))
        exact ⟨Nat.le_refl _, by omega, by omega, fun hne => absurd hempty hne⟩
      · obtain ⟨e, herror⟩ := hnotEnd hlast
        rw [hlocate] at herror
        exact nomatch herror
  · obtain ⟨hpos, rfl⟩ := exactPosition_replace hempty hposition
    have hstart := locateHunk_before (hcursor.trans hdone) hmatches
    obtain rfl := Except.ok.inj (hlocate.symm.trans hstart)
    exact ⟨by omega, Nat.le_refl _, by omega, fun _ => rfl⟩

/-- Both applications leave texts of one length. -/
theorem length_applyHunks {lines : List (List Char)} {hunks : List Hunk} {done cursor : Nat}
    {result out : List (List Char)} (hexact : exactHunks lines done hunks = some result)
    (hcursor : cursor ≤ done) (hnear : done ≤ cursor + 1)
    (happly : applyHunks lines cursor hunks = .ok out) :
    out.flatten.length + (lines.drop done).flatten.length
      = result.flatten.length + (lines.drop cursor).flatten.length := by
  have hgap : ∀ {a b : Nat}, a ≤ b → ((lines.drop a).take (b - a)).flatten.length
      + (lines.drop b).flatten.length = (lines.drop a).flatten.length := by
    intro a b hab
    have hsplit := List.take_append_drop (b - a) (lines.drop a)
    rw [List.drop_drop, Nat.add_sub_cancel' hab] at hsplit
    rw [← List.length_append, ← List.flatten_append, hsplit]
  induction hunks generalizing done cursor result out with
  | nil =>
      obtain rfl : lines.drop done = result := Option.some.inj hexact
      obtain rfl : lines.drop cursor = out := Except.ok.inj happly
      exact Nat.add_comm _ _
  | cons hunk hunks ih =>
      obtain ⟨position, rest, hposition, hdone, hle, hmatches, hrest, rfl⟩ := exactHunks_cons hexact
      unfold applyHunks at happly
      obtain ⟨start, hlocate, happly⟩ := Program.bind_eq_ok happly
      obtain ⟨rest', hrest', happly⟩ := Program.bind_eq_ok happly
      obtain rfl := Except.ok.inj happly
      obtain ⟨hstart, hlow, hhigh, hreplace⟩ :=
        locateHunk_near hposition hdone hle hmatches hcursor hnear hlocate
      have hih := ih hrest (by omega) (by omega) hrest'
      have hfront := hgap hdone
      have hfront' := hgap hstart
      simp only [List.flatten_append, List.length_append]
      by_cases hempty : hunk.oldLines = []
      · rw [hempty, List.length_nil, Nat.add_zero, Nat.add_zero] at hih
        omega
      · obtain rfl := hreplace hempty
        omega

end PipeLens.Proof
