import PipeLens.Lib.Lines
import PipeLens.Proof.MergedDiff

/-!
# Lines that a patch keeps

The diff merged into the file, once more, but with the file's own text for every line
that the file has (`fileDiff`). What stays of it should be the lines of the new file.
It is not what the application emits: a context line is compared without its newline and
then taken from the patch, and a line without a break is followed directly by the next.
-/

namespace PipeLens.Proof

open Text

variable {unicode : Unicode}

/-- The lines of a hunk, with the file's text for those that the file has. -/
def withFile : List (Marker × List Char) → List (List Char) → List (Marker × List Char)
  | [], _ => []
  | (.added, body) :: lines, window => (.added, body) :: withFile lines window
  | (marker, _) :: lines, raw :: window => (marker, raw) :: withFile lines window
  -- the window is as long as the old lines of the hunk
  | (marker, body) :: lines, [] => (marker, body) :: withFile lines []

/-- The loop of `apply_unified_diff`, marking the lines of the file. -/
def markHunks (lines : List (List Char)) : Nat → List Hunk →
    Except PatchException (List (Marker × List Char))
  | cursor, [] => .ok ((lines.drop cursor).map fun raw => (.context, raw))
  | cursor, hunk :: hunks => do
      let start ← locateHunk lines hunk cursor
      let rest ← markHunks lines (start + hunk.oldLines.length) hunks
      return ((lines.drop cursor).take (start - cursor)).map (fun raw => (.context, raw))
        ++ withFile hunk.lines ((lines.drop start).take hunk.oldLines.length) ++ rest

/-- The file with the marks of the diff, and with the lines that are added. -/
def fileDiff (unicode : Unicode) (original patch : List Char) :
    Except PatchException (List (Marker × List Char)) := do
  let hunks ← parseHunks unicode patch
  markHunks (rawLines original) 0 hunks

/-- The new file has the lines that stay, byte for byte, and each added line as a line. -/
def KeepsLines (marked : List (Marker × List Char)) (updated : List Char) : Prop :=
  List.Forall₂ (fun line raw => (line.1 = .context → raw = line.2) ∧ content raw = content line.2)
    (marked.filter fun line => line.1 ≠ .removed) (rawLines updated)

instance (marked : List (Marker × List Char)) (updated : List Char) :
    Decidable (KeepsLines marked updated) :=
  inferInstanceAs (Decidable (List.Forall₂ _ _ _))

/-- The context lines alone. -/
def contextOf (marked : List (Marker × List Char)) : List (Marker × List Char) :=
  marked.filter fun line => line.1 = .context

/-! ## The marked file -/

/-- The same marks, and the same text for the lines that are added. -/
inductive SameMarks : List (Marker × List Char) → List (Marker × List Char) → Prop where
  | nil : SameMarks [] []
  | context (text text' : List Char) {marked merged : List (Marker × List Char)}
      (h : SameMarks marked merged) :
      SameMarks ((.context, text) :: marked) ((.context, text') :: merged)
  | removed (text text' : List Char) {marked merged : List (Marker × List Char)}
      (h : SameMarks marked merged) :
      SameMarks ((.removed, text) :: marked) ((.removed, text') :: merged)
  | added (text : List Char) {marked merged : List (Marker × List Char)}
      (h : SameMarks marked merged) :
      SameMarks ((.added, text) :: marked) ((.added, text) :: merged)

namespace SameMarks

/-- A line of the file, whatever its mark. -/
theorem file {marker : Marker} (hmarker : marker ≠ .added) (text text' : List Char)
    {marked merged : List (Marker × List Char)} (h : SameMarks marked merged) :
    SameMarks ((marker, text) :: marked) ((marker, text') :: merged) := by
  cases marker with
  | context => exact .context text text' h
  | removed => exact .removed text text' h
  | added => exact absurd rfl hmarker

theorem refl (lines : List (Marker × List Char)) : SameMarks lines lines := by
  induction lines with
  | nil => exact .nil
  | cons line lines ih =>
      obtain ⟨marker, text⟩ := line
      by_cases hmarker : marker = .added
      · rw [hmarker]
        exact .added text ih
      · exact .file hmarker text text ih

theorem append {marked merged marked' merged' : List (Marker × List Char)}
    (h : SameMarks marked merged) (h' : SameMarks marked' merged') :
    SameMarks (marked ++ marked') (merged ++ merged') := by
  induction h with
  | nil => exact h'
  | context text text' _ ih => exact .context text text' ih
  | removed text text' _ ih => exact .removed text text' ih
  | added text _ ih => exact .added text ih

end SameMarks

theorem withFile_sameMarks (lines : List (Marker × List Char)) (window : List (List Char)) :
    SameMarks (withFile lines window) lines := by
  fun_induction withFile lines window with
  | case1 window => exact .nil
  | case2 body lines window ih => exact .added body ih
  | case3 marker body lines raw window hadded ih => exact .file hadded raw body ih
  | case4 marker body lines hadded ih => exact .file hadded body body ih

theorem oldView_withFile {lines : List (Marker × List Char)} {window : List (List Char)}
    (h : window.length = (oldView lines).length) : oldView (withFile lines window) = window := by
  fun_induction withFile lines window with
  | case1 window =>
      rw [List.eq_nil_of_length_eq_zero h]
      rfl
  | case2 body lines window ih => exact ih (by simpa [oldView] using h)
  | case3 marker body lines raw window hadded ih =>
      rw [oldView_cons hadded, List.length_cons, List.length_cons] at h
      rw [oldView_cons hadded, ih (Nat.succ.inj h)]
  | case4 marker body lines hadded ih =>
      rw [oldView_cons hadded] at h
      cases h

/-- The marked file is the file, and differs from the merged diff only in the file's lines. -/
theorem markHunks_spec {lines : List (List Char)} {hunks : List Hunk} {cursor : Nat}
    {merged : List (Marker × List Char)} (h : mergeHunks lines cursor hunks = .ok merged) :
    ∃ marked, markHunks lines cursor hunks = .ok marked
      ∧ oldView marked = lines.drop cursor ∧ SameMarks marked merged := by
  induction hunks generalizing cursor merged with
  | nil =>
      refine ⟨_, rfl, oldView_context _, ?_⟩
      rw [← Except.ok.inj h]
      exact .refl _
  | cons hunk hunks ih =>
      unfold mergeHunks at h
      obtain ⟨start, hlocate, h⟩ := Program.bind_eq_ok h
      obtain ⟨rest, hmerge, h⟩ := Program.bind_eq_ok h
      obtain ⟨marked, hmark, hold, hsame⟩ := ih hmerge
      obtain ⟨hcursor, hmatches⟩ := locateHunk_spec hlocate
      have hlength : ((lines.drop start).take hunk.oldLines.length).length
          = (oldView hunk.lines).length := by
        have hlengths := congrArg List.length hmatches
        rw [List.length_map, List.length_map] at hlengths
        exact hlengths
      refine ⟨((lines.drop cursor).take (start - cursor)).map (fun raw => (.context, raw))
        ++ withFile hunk.lines ((lines.drop start).take hunk.oldLines.length) ++ marked, ?_, ?_, ?_⟩
      · unfold markHunks
        rw [hlocate]
        show (markHunks lines (start + hunk.oldLines.length) hunks >>= _) = _
        rw [hmark]
        rfl
      · have h₁ := List.take_append_drop (start - cursor) (lines.drop cursor)
        have h₂ := List.take_append_drop hunk.oldLines.length (lines.drop start)
        rw [List.drop_drop, Nat.add_sub_cancel' hcursor] at h₁
        rw [List.drop_drop] at h₂
        rw [oldView_append, oldView_append, oldView_context, oldView_withFile hlength, hold,
          List.append_assoc, h₂, h₁]
      · rw [← Except.ok.inj h]
        exact ((SameMarks.refl _).append (withFile_sameMarks hunk.lines _)).append hsame

/-! ## What is emitted and what should be -/

/-- The lines that are emitted are the ones that should be if the context is. -/
theorem newView_eq_of_context {marked merged : List (Marker × List Char)}
    (h : SameMarks marked merged) (hcontext : contextOf marked = contextOf merged) :
    newView marked = newView merged := by
  induction h with
  | nil => rfl
  | context text text' _ ih =>
      obtain ⟨hline, hrest⟩ := List.cons.inj hcontext
      rw [newView_cons (by decide), newView_cons (by decide), (Prod.mk.inj hline).2, ih hrest]
  | removed text text' _ ih => exact ih hcontext
  | added text _ ih => rw [newView_cons (by decide), newView_cons (by decide), ih hcontext]

/-- If every line that is emitted is a line, only the context can differ. -/
theorem keeps_iff_context {marked merged : List (Marker × List Char)}
    (h : SameMarks marked merged) :
    List.Forall₂ (fun line raw => (line.1 = .context → raw = line.2) ∧ content raw = content line.2)
      (marked.filter fun line => line.1 ≠ .removed) (newView merged)
      ↔ contextOf marked = contextOf merged := by
  induction h with
  | nil => exact ⟨fun _ => rfl, fun _ => .nil⟩
  | @context text text' marked merged _ ih =>
      have hkept : ((Marker.context, text) :: marked).filter (fun line => line.1 ≠ .removed)
          = (.context, text) :: marked.filter fun line => line.1 ≠ .removed := rfl
      have hiff : contextOf ((.context, text) :: marked) = contextOf ((.context, text') :: merged)
          ↔ text = text' ∧ contextOf marked = contextOf merged := by
        simp [contextOf]
      rw [newView_cons (by decide), hkept, List.forall₂_cons, hiff, ih]
      constructor
      · intro hboth
        exact ⟨(hboth.1.1 rfl).symm, hboth.2⟩
      · intro hboth
        rw [hboth.1]
        exact ⟨⟨fun _ => rfl, rfl⟩, hboth.2⟩
  | removed text text' _ ih => exact ih
  | @added text marked merged _ ih =>
      have hkept : ((Marker.added, text) :: marked).filter (fun line => line.1 ≠ .removed)
          = (.added, text) :: marked.filter fun line => line.1 ≠ .removed := rfl
      have hiff : contextOf ((.added, text) :: marked) = contextOf ((.added, text) :: merged)
          ↔ contextOf marked = contextOf merged := Iff.rfl
      rw [newView_cons (by decide), hkept, List.forall₂_cons, hiff, ih]
      exact ⟨And.right, fun hrest => ⟨⟨nofun, rfl⟩, hrest⟩⟩

/-- As many lines are marked to stay as are emitted. -/
theorem SameMarks.length_newView {marked merged : List (Marker × List Char)}
    (h : SameMarks marked merged) :
    (marked.filter fun line => line.1 ≠ .removed).length = (newView merged).length := by
  induction h with
  | nil => rfl
  | context text text' _ ih => exact congrArg Nat.succ ih
  | removed text text' _ ih => exact ih
  | added text _ ih => exact congrArg Nat.succ ih

/-- The emitted lines are kept exactly when the context is the file's and none meet. -/
theorem keepsLines_flatten {marked merged : List (Marker × List Char)}
    (h : SameMarks marked merged) (hlines : ∀ line ∈ merged, IsLine line.2) :
    KeepsLines marked (newView merged).flatten
      ↔ contextOf marked = contextOf merged ∧ Separate (newView marked) := by
  have hemitted : ∀ raw ∈ newView merged, IsLine raw := by
    intro raw hraw
    obtain ⟨line, hline, rfl⟩ := List.mem_map.mp hraw
    exact hlines line (List.mem_filter.mp hline).1
  constructor
  · intro hkeeps
    have hlength : (rawLines (newView merged).flatten).length = (newView merged).length := by
      rw [← h.length_newView]
      exact hkeeps.length_eq.symm
    have hseparate := (separate_of_length hemitted).2 hlength
    unfold KeepsLines at hkeeps
    rw [rawLines_flatten hemitted hseparate, keeps_iff_context h] at hkeeps
    rw [newView_eq_of_context h hkeeps]
    exact ⟨hkeeps, hseparate⟩
  · rintro ⟨hcontext, hseparate⟩
    rw [newView_eq_of_context h hcontext] at hseparate
    unfold KeepsLines
    rw [rawLines_flatten hemitted hseparate, keeps_iff_context h]
    exact hcontext

/-- **When a patch keeps the lines that it does not remove.** Its context lines must have the
bytes of the lines that they stand for, and no two lines of the result may meet. -/
theorem keepsLines_iff (unicode : Unicode) (original patch updated : List Char)
    (h : applyUnifiedDiff unicode original patch = .ok updated) :
    ∃ marked merged, fileDiff unicode original patch = .ok marked
      ∧ mergedDiff unicode original patch = .ok merged
      ∧ oldView marked = rawLines original
      ∧ (KeepsLines marked updated
        ↔ contextOf marked = contextOf merged ∧ Separate (newView marked)) := by
  obtain ⟨hunks, lines, hparse, happly, hupdated⟩ := applyUnifiedDiff_cases h
  obtain ⟨merged, hmerge, hnew, _, kept, hkept, hinter⟩ := applyHunks_merge happly
  obtain ⟨marked, hmark, hold, hsame⟩ := markHunks_spec hmerge
  have hmerged : ∀ line ∈ merged, IsLine line.2 := by
    intro line hline
    rcases hinter.mem hline with hline | hline
    · obtain ⟨raw, hraw, rfl⟩ := List.mem_map.mp hline
      exact isLine_of_mem (List.drop_subset _ _ (hkept.subset hraw))
    · exact (parseHunks_lines hparse).1 line hline
  refine ⟨marked, merged, ?_, ?_, hold, ?_⟩
  · unfold fileDiff
    rw [hparse]
    exact hmark
  · unfold mergedDiff
    rw [hparse]
    exact hmerge
  · rw [hupdated, ← hnew]
    exact keepsLines_flatten hsame hmerged

/-- A file and a patch with the same line ends. -/
theorem keepsLines_same_ends :
    ∃ marked, fileDiff asciiEnvironment.unicode "a\r\nb\n".toList
        "@@ -1,2 +1,2 @@\n a\r\n-b\n+c\n".toList = .ok marked
      ∧ KeepsLines marked "a\r\nc\n".toList := by
  have happly : applyUnifiedDiff asciiEnvironment.unicode "a\r\nb\n".toList
      "@@ -1,2 +1,2 @@\n a\r\n-b\n+c\n".toList = .ok "a\r\nc\n".toList := by
    decide +kernel
  obtain ⟨marked, merged, hmarked, hmerged, _, hiff⟩ := keepsLines_iff _ _ _ _ happly
  have hmarked' : fileDiff asciiEnvironment.unicode "a\r\nb\n".toList
      "@@ -1,2 +1,2 @@\n a\r\n-b\n+c\n".toList
      = .ok [(.context, "a\r\n".toList), (.removed, "b\n".toList), (.added, "c\n".toList)] := by
    decide +kernel
  have hmerged' : mergedDiff asciiEnvironment.unicode "a\r\nb\n".toList
      "@@ -1,2 +1,2 @@\n a\r\n-b\n+c\n".toList
      = .ok [(.context, "a\r\n".toList), (.removed, "b\n".toList), (.added, "c\n".toList)] := by
    decide +kernel
  obtain rfl := Except.ok.inj (hmarked'.symm.trans hmarked)
  obtain rfl := Except.ok.inj (hmerged'.symm.trans hmerged)
  exact ⟨_, hmarked', hiff.mpr ⟨rfl, by decide +kernel⟩⟩

/-- A context line gets the newline of the patch, and the last line of a patch that does not end
with a newline runs into the next line of the file. -/
theorem context_rewritten :
    (∃ marked, fileDiff asciiEnvironment.unicode "a\r\nb\r\n".toList
        "@@ -1,2 +1,2 @@\n a\n-b\n+c\n".toList = .ok marked
      ∧ applyUnifiedDiff asciiEnvironment.unicode "a\r\nb\r\n".toList
        "@@ -1,2 +1,2 @@\n a\n-b\n+c\n".toList = .ok "a\nc\n".toList
      ∧ ¬ KeepsLines marked "a\nc\n".toList)
    ∧ ∃ marked, fileDiff asciiEnvironment.unicode "a\nb\n".toList
        "@@ -1 +1 @@\n-a\n+x".toList = .ok marked
      ∧ applyUnifiedDiff asciiEnvironment.unicode "a\nb\n".toList
        "@@ -1 +1 @@\n-a\n+x".toList = .ok "xb\n".toList
      ∧ ¬ KeepsLines marked "xb\n".toList := by
  refine ⟨⟨[(.context, "a\r\n".toList), (.removed, "b\r\n".toList), (.added, "c\n".toList)],
    ?_, ?_, ?_⟩, ⟨[(.removed, "a\n".toList), (.added, "x".toList), (.context, "b\n".toList)],
    ?_, ?_, ?_⟩⟩
  · decide +kernel
  · decide +kernel
  · decide +kernel
  · decide +kernel
  · decide +kernel
  · decide +kernel

end PipeLens.Proof
