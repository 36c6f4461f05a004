import PipeLens.Proof.DiffReading
import PipeLens.Proof.Insertions

/-!
# Comparison with a reference

`apply_unified_diff` against the application of a unified diff by the book. The
implementation does not look at the counts, compares lines without their ends, and puts a
hunk without old lines in front of the line that its header names. It also reads a diff by
rules of its own, and cuts diff and file at other places than behind newlines.

Where both cut the lines alike, the lines of the file up to the last hunk are the same for
both, and the two applications can be compared.
-/

namespace PipeLens.Proof

open Text

variable {unicode : Unicode}

/-! ## Agreement with the reference -/

/-- Diff and file are cut into lines alike, the file up to the last line that a hunk is about. -/
structure ReadAlike (unicode : Unicode) (original : List Char) (diff : Unified.Diff) : Prop where
  text : CutAlike unicode diff
  file : (diff.apply original).isSome → ∀ hunk ∈ diff.hunks,
    ∀ line ∈ (Unified.cutLines original).take hunk.reach, IsLine line

/-- The implementation does what the reference does. -/
structure AgreesWithReference (unicode : Unicode) (original : List Char) (diff : Unified.Diff) :
    Prop where
  accepts : ∀ updated, diff.apply original = some updated →
    applyUnifiedDiff unicode original diff.text = .ok updated
  rejects : diff.Disagrees original → ∃ e, applyUnifiedDiff unicode original diff.text = .error e

/-- When a diff is applied as the reference applies it: it is read, all new lines have their
newlines, and the insertions do no harm. -/
structure AppliesAlike (original : List Char) (diff : Unified.Diff) : Prop where
  readable : Readable diff
  ended : ∀ hunk ∈ diff.hunks, ∀ line ∈ hunk.newLines, line.getLast? = some '\n'
  harmless : AllHarmless (Unified.cutLines original) (diff.hunks.map readHunk)

/-! ## The file -/

section File

variable {front back back' : List (List Char)}

theorem take_drop_front {position count : Nat} (h : position + count ≤ front.length) :
    ((front ++ back).drop position).take count = (front.drop position).take count := by
  rw [List.drop_append_of_le_length (by omega), List.take_append_of_le_length]
  rw [List.length_drop]
  omega

/-- **The lines up to the last hunk decide.** Behind them the file may be cut in any way. -/
theorem exactHunks_of_applyHunks {hunks : List Unified.Hunk} {done : Nat}
    {result : List (List Char)} (h : Unified.applyHunks (front ++ back) done hunks = some result)
    (hreach : ∀ hunk ∈ hunks, hunk.reach ≤ front.length) (hdone : done ≤ front.length)
    (hfront : ∀ line ∈ front, line.getLast? = some '\n') (hback : back.flatten = back'.flatten) :
    ∃ result', exactHunks (front ++ back') done (hunks.map readHunk) = some result'
      ∧ result'.flatten.length = result.flatten.length + (hunks.map unended).sum
      ∧ ((hunks.map unended).sum = 0 → result'.flatten = result.flatten) := by
  induction hunks generalizing done result with
  | nil =>
      obtain rfl := Option.some.inj h
      have hsame : ((front ++ back').drop done).flatten = ((front ++ back).drop done).flatten := by
        rw [List.drop_append_of_le_length hdone, List.drop_append_of_le_length hdone,
          List.flatten_append, List.flatten_append, hback]
      exact ⟨_, rfl, by rw [hsame]; rfl, fun _ => hsame⟩
  | cons hunk hunks ih =>
      obtain ⟨position, rest, hposition, hbefore, _, hwindow, hrest, rfl⟩ :=
        Unified.applyHunks_cons h
      rw [List.forall_mem_cons, Unified.Hunk.reach_eq hposition] at hreach
      rw [take_drop_front hreach.1] at hwindow
      obtain ⟨rest', hexact, hlength, hflatten⟩ := ih hrest hreach.2 hreach.1
      -- the old lines stand in the file, where each has its newline
      have hold : (readHunk hunk).oldLines = hunk.oldLines := by
        rw [readHunk_oldLines]
        refine map_addNewline fun line hline => hfront line ?_
        rw [← hwindow] at hline
        exact List.mem_of_mem_drop (List.mem_of_mem_take hline)
      have hposition' : exactPosition (readHunk hunk) = some position := by
        unfold exactPosition
        rw [hold]
        exact hposition
      have hmatches : hunkMatches (front ++ back') (readHunk hunk) position = true := by
        unfold hunkMatches
        rw [hold, take_drop_front hreach.1, hwindow]
        exact beq_self_eq_true _
      have hgap : ((front ++ back').drop done).take (position - done)
          = ((front ++ back).drop done).take (position - done) := by
        rw [take_drop_front (by omega), take_drop_front (by omega)]
      have hroom : position ≤ (front ++ back').length := by
        rw [List.length_append]
        omega
      refine ⟨((front ++ back).drop done).take (position - done) ++ (readHunk hunk).newLines
        ++ rest', ?_, ?_, fun hzero => ?_⟩
      · unfold List.map exactHunks
        rw [hposition']
        show (if _ then _ else _) = _
        rw [if_pos ⟨hbefore, hroom, hmatches⟩, hold, hexact, hgap]
        rfl
      · have hnew := length_addNewline hunk.newLines
        rw [readHunk_newLines]
        simp only [List.flatten_append, List.length_append, hnew, hlength, List.map_cons,
          List.sum_cons]
        unfold unended
        omega
      · rw [List.map_cons, List.sum_cons] at hzero
        rw [readHunk_newLines, map_addNewline (unended_eq_zero.mp (by omega))]
        simp only [List.flatten_append, hflatten (by omega)]

/-- The condition on the insertions is about these lines only. -/
theorem allHarmless_front {hunks : List Hunk}
    (hreach : ∀ line, InsertsBehind hunks line → line ≤ front.length)
    (hback : back = [] ↔ back' = []) :
    AllHarmless (front ++ back) hunks ↔ AllHarmless (front ++ back') hunks := by
  unfold AllHarmless
  refine forall_congr' fun line => forall_congr' fun hpos => forall_congr' fun hinserts => ?_
  have hle := hreach line hinserts
  have hline : lineAt (front ++ back) line = lineAt (front ++ back') line := by
    unfold lineAt
    rw [List.getD_eq_getElem?_getD, List.getD_eq_getElem?_getD,
      List.getElem?_append_left (by omega), List.getElem?_append_left (by omega)]
  have hend : line = (front ++ back).length ↔ line = (front ++ back').length := by
    have hempty : back.length = 0 ↔ back'.length = 0 := by
      rw [List.length_eq_zero_iff, List.length_eq_zero_iff, hback]
    rw [List.length_append, List.length_append]
    omega
  constructor
  · intro h
    exact ⟨fun htaken => hend.mp (h.atEnd htaken), fun hfree => hline ▸ h.copies hfree⟩
  · intro h
    exact ⟨fun htaken => hend.mpr (h.atEnd htaken), fun hfree => hline.symm ▸ h.copies hfree⟩

end File

/-! ## The two applications -/

theorem terminated_of_ended {text : List Char} (h : Unified.Ended text) : Terminated text := by
  intro c hc
  rw [h c hc]
  rfl

/-- The file as both applications see it: alike up to the last hunk. -/
theorem shared_front {original : List Char} {hunks : List Unified.Hunk}
    (hended : Unified.Ended original)
    (hle : ∀ hunk ∈ hunks, hunk.reach ≤ (Unified.cutLines original).length)
    (hlines : ∀ hunk ∈ hunks, ∀ line ∈ (Unified.cutLines original).take hunk.reach, IsLine line) :
    ∃ front back back', Unified.cutLines original = front ++ back
      ∧ rawLines original = front ++ back' ∧ (∀ hunk ∈ hunks, hunk.reach ≤ front.length)
      ∧ (∀ line ∈ front, line.getLast? = some '\n') ∧ back.flatten = back'.flatten
      ∧ (back = [] ↔ back' = []) := by
  obtain ⟨front, back, hcut, hreach, hfront⟩ := Unified.exists_reach hle hlines
  have hnewline : ∀ line ∈ front, line.getLast? = some '\n' := fun line hline =>
    hended.getLast_line line (hcut ▸ List.mem_append_left back hline)
  have hraw : rawLines original = front ++ rawLines back.flatten := by
    rw [← rawLines_lines fun line hline => ⟨hfront line hline, hnewline line hline⟩,
      ← List.flatten_append, ← hcut, Unified.flatten_cutLines]
  refine ⟨front, back, rawLines back.flatten, hcut, hraw, hreach, hnewline,
    (flatten_rawLines _).symm, fun hnil => by rw [hnil]; rfl, fun hnil => ?_⟩
  -- behind the front both are the same text, which is empty for one as for the other
  have hflat : back.flatten = [] := by rw [← flatten_rawLines back.flatten, hnil]; rfl
  refine List.eq_nil_iff_forall_not_mem.mpr fun line hline => ?_
  exact Unified.cutLines_ne_nil line (hcut ▸ List.mem_append_right front hline)
    (List.flatten_eq_nil_iff.mp hflat line hline)

theorem applyUnifiedDiff_of_parse {original patch : List Char} {hunks : List Hunk}
    (hparse : parseHunks unicode patch = .ok hunks) :
    applyUnifiedDiff unicode original patch
      = (applyHunks (rawLines original) 0 hunks >>= fun lines => .ok lines.flatten) := by
  unfold applyUnifiedDiff
  rw [hparse]
  rfl

section Agreement

variable {original : List Char} {diff : Unified.Diff} (hdigits : AsciiDigits unicode)
  (hended : Unified.Ended original) (halike : ReadAlike unicode original diff)
include hdigits halike

theorem refuses_of_not_readable (h : ¬ Readable diff) :
    ∃ e, applyUnifiedDiff unicode original diff.text = .error e := by
  obtain ⟨e, herror⟩ := (parseHunks_text hdigits halike.text).2 h
  unfold applyUnifiedDiff
  rw [herror]
  exact ⟨e, rfl⟩

/-- A diff is refused if it cannot be read, or its hunks have no places. -/
theorem refuses_iff : (∃ e, applyUnifiedDiff unicode original diff.text = .error e)
    ↔ (Readable diff →
      ¬ ∃ merged, LaidOver (rawLines original) 0 (diff.hunks.map readHunk) merged) := by
  by_cases hread : Readable diff
  · have hparse := (parseHunks_text hdigits halike.text).1 hread
    rw [applyUnifiedDiff_of_parse hparse, laidOver_exists_iff]
    cases happly : applyHunks (rawLines original) 0 (diff.hunks.map readHunk) with
    | error e =>
        refine ⟨fun _ _ h => ?_, fun _ => ⟨e, rfl⟩⟩
        obtain ⟨result, h⟩ := h
        exact nomatch h
    | ok lines =>
        constructor
        · intro h
          obtain ⟨e, h⟩ := h
          exact nomatch h
        · intro h
          exact absurd ⟨lines, rfl⟩ (h hread)
  · exact ⟨fun _ h => absurd h hread, fun _ => refuses_of_not_readable hdigits halike hread⟩

include hended

/-- A diff that the reference applies. -/
theorem applies_iff {updated : List Char} (h : diff.apply original = some updated) :
    applyUnifiedDiff unicode original diff.text = .ok updated ↔ AppliesAlike original diff := by
  by_cases hread : Readable diff
  swap
  · constructor
    · intro happly
      obtain ⟨e, herror⟩ := refuses_of_not_readable hdigits halike hread
      rw [happly] at herror
      exact nomatch herror
    · exact fun halike => absurd halike.readable hread
  have hfile := halike.file (Option.isSome_of_mem h)
  unfold Unified.Diff.apply at h
  split at h
  swap
  · exact nomatch h
  obtain ⟨result, hreference, rfl⟩ := Option.map_eq_some_iff.mp h
  obtain ⟨front, back, back', hcut, hraw, hreach, hnewline, hback, hempty⟩ :=
    shared_front hended (Unified.reach_le hreference) hfile
  rw [hcut] at hreference
  obtain ⟨result', hexact, hlength, hflatten⟩ :=
    exactHunks_of_applyHunks hreference hreach (Nat.zero_le _) hnewline hback
  rw [← hraw] at hexact
  -- from here on the implementation goes through the file with the hunks as they are read
  have hlines : ∀ raw ∈ rawLines original, IsLine raw ∧ content raw ≠ raw := fun raw hraw =>
    ⟨isLine_of_mem hraw, (terminated_of_ended hended).content_ne hraw⟩
  have hfollow := (follow_both hlines (diff.hunks.map readHunk)).1 0 result' hexact
  have hinserts : ∀ line, InsertsBehind (diff.hunks.map readHunk) line → line ≤ front.length := by
    intro line hline
    obtain ⟨_, hmem, hnone, rfl⟩ := hline
    obtain ⟨hunk, hhunk, rfl⟩ := List.mem_map.mp hmem
    rw [readHunk_oldLines, List.map_eq_nil_iff] at hnone
    have hle := hreach hunk hhunk
    rwa [Unified.Hunk.reach, if_pos hnone] at hle
  have hharmless : HarmlessFrom (rawLines original) 0 (diff.hunks.map readHunk)
      ↔ AllHarmless (Unified.cutLines original) (diff.hunks.map readHunk) := by
    rw [harmlessFrom_zero, hcut, hraw]
    exact (allHarmless_front hinserts hempty).symm
  have hended : (diff.hunks.map unended).sum = 0
      ↔ ∀ hunk ∈ diff.hunks, ∀ line ∈ hunk.newLines, line.getLast? = some '\n' := by
    rw [List.sum_eq_zero_iff_forall_eq_nat]
    simp only [List.forall_mem_map, unended_eq_zero]
  rw [applyUnifiedDiff_of_parse ((parseHunks_text hdigits halike.text).1 hread)]
  constructor
  · intro happly
    obtain ⟨out, hout, hsame⟩ := Program.bind_eq_ok happly
    have hsame := Except.ok.inj hsame
    -- the lengths tell that no newline is missing
    have hcount := length_applyHunks hexact (Nat.le_refl 0) (Nat.zero_le _) hout
    have hnone : (diff.hunks.map unended).sum = 0 := by
      rw [hsame] at hcount
      omega
    have htext : out.flatten = result'.flatten := by rw [hflatten hnone, hsame]
    exact ⟨hread, hended.mp hnone, hharmless.mp (hfollow.mp ⟨out, hout, htext⟩)⟩
  · intro halike
    obtain ⟨out, hout, hsame⟩ := hfollow.mpr (hharmless.mpr halike.harmless)
    rw [hout, ← hflatten (hended.mpr halike.ended), ← hsame]
    rfl

end Agreement

/-! ## Diffs that are applied alike, and others -/

def hunkAt (oldStart oldCount newStart newCount : Nat) (lines : List Unified.Line) :
    Unified.Hunk where
  old := ⟨.ofNat oldStart, some (.ofNat oldCount)⟩
  new := ⟨.ofNat newStart, some (.ofNat newCount)⟩
  heading := ⟨[], List.not_mem_nil⟩
  lines := lines

/-- Hunks behind some lines and in front of others, none of which is taken for one of theirs. -/
def diffOf (preamble trailer : List Unified.LineText) (hunks : List Unified.Hunk)
    (hpreamble : ∀ line ∈ preamble, line.val.head? ≠ some '@')
    (htrailer : ∀ line ∈ trailer, ∃ c, line.val.head? = some c ∧ c ≠ '@'
      ∧ Unified.isHunkSign c = false)
    (hne : hunks ≠ []) : Unified.Diff where
  preamble := preamble
  hunks := hunks
  trailer := trailer
  nonempty := hne
  noHeader := by
    intro line hline
    refine Unified.ne_headerText fun hhead => ?_
    rcases List.mem_append.mp hline with hline | hline
    · exact hpreamble line hline hhead
    · obtain ⟨c, hc, hat, _⟩ := htrailer line hline
      rw [hc] at hhead
      exact hat (Option.some.inj hhead)
  noHunkLine := by
    intro line hline
    obtain ⟨c, hc, _, hsign⟩ := htrailer line (List.mem_of_mem_head? hline)
    exact ⟨c, hc, hsign⟩

def titleLines : List Unified.LineText :=
  [⟨"--- a/f".toList, by decide⟩, ⟨"+++ b/f".toList, by decide⟩]

/-- A line is changed, and a copy of the last one is put behind it. -/
def copyDiff : Unified.Diff :=
  diffOf titleLines []
    [hunkAt 1 1 1 1 [.body .removed ⟨"a".toList, by decide⟩, .body .added ⟨"x".toList, by decide⟩],
      hunkAt 3 0 4 1 [.body .added ⟨"c".toList, by decide⟩]]
    (by decide) nofun (List.cons_ne_nil _ _)

theorem isLine_all {raws : List (List Char)}
    (h : raws.all (fun raw => rawLines raw == [raw]) = true) : ∀ raw ∈ raws, IsLine raw := by
  intro raw hraw
  have hone := beq_iff_eq.mp (List.all_eq_true.mp h raw hraw)
  exact isLine_of_mem (hone ▸ List.mem_singleton.mpr rfl)

theorem not_agrees_of_ok {original updated' : List Char} {diff : Unified.Diff}
    (updated : List Char) (happly : applyUnifiedDiff unicode original diff.text = .ok updated')
    (hreference : diff.apply original = some updated) (hne : updated ≠ updated') :
    ¬ AgreesWithReference unicode original diff := by
  intro h
  have hsame := h.accepts updated hreference
  rw [happly] at hsame
  exact hne (Except.ok.inj hsame).symm

theorem not_agrees_of_disagrees {original updated : List Char} {diff : Unified.Diff}
    (happly : applyUnifiedDiff unicode original diff.text = .ok updated)
    (hdisagrees : diff.Disagrees original) : ¬ AgreesWithReference unicode original diff := by
  intro h
  obtain ⟨e, herror⟩ := h.rejects hdisagrees
  rw [happly] at herror
  exact nomatch herror

theorem not_agrees_of_error {original updated : List Char} {diff : Unified.Diff}
    {e : PatchException} (happly : applyUnifiedDiff unicode original diff.text = .error e)
    (hreference : diff.apply original = some updated) :
    ¬ AgreesWithReference unicode original diff := by
  intro h
  have haccepts := h.accepts updated hreference
  rw [happly] at haccepts
  exact nomatch haccepts

/-- One hunk behind the names of the file. -/
def titled (hunk : Unified.Hunk) : Unified.Diff :=
  diffOf titleLines [] [hunk] (by decide) nofun (List.cons_ne_nil _ _)

/-- `a` becomes `x`. -/
def replacement : List Unified.Line :=
  [.body .removed ⟨"a".toList, by decide⟩, .body .added ⟨"x".toList, by decide⟩]

/-- An insertion behind line 1. -/
def insertionDiff : Unified.Diff :=
  titled (hunkAt 1 0 2 1 [.body .added ⟨"x".toList, by decide⟩])

/-- A line in front that is not known. -/
def indexDiff : Unified.Diff :=
  diffOf (⟨"Index: f".toList, by decide⟩ :: titleLines) [] [hunkAt 1 1 1 1 replacement]
    (by decide) nofun (List.cons_ne_nil _ _)

/-- A line behind the hunk. -/
def trailedDiff : Unified.Diff :=
  diffOf titleLines [⟨"Only in b: g".toList, by decide⟩] [hunkAt 1 1 1 1 replacement]
    (by decide) (List.forall_mem_singleton.mpr ⟨'O', by decide⟩) (List.cons_ne_nil _ _)

/-- The last line is to have no newline. -/
def notedDiff : Unified.Diff :=
  titled (hunkAt 1 1 1 1
    (replacement ++ [.note ⟨"No newline at end of file".toList, by decide⟩]))

end PipeLens.Proof
