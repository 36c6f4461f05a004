import PipeLens.Proof.MergedDiff

/-!
# Where hunks go

A patch that applies cuts the file into the lines that stay and the windows that its
hunks replace, in the order of the hunks. A hunk goes where its header says if the file
has its old lines there, and else only where they stand exactly once in what is left of
the file.

The cursor of the loop can be beyond the end of the file, when a hunk without old lines
states a line that is not there. Positions are therefore compared after cutting them off
at the end.
-/

namespace PipeLens.Proof

open Text

variable {unicode : Unicode}

/-! ## Segments -/

/-- A hunk in its place: the lines that stay in front of it, and those it stands for. -/
structure Segment where
  gap : List (List Char)
  hunk : Hunk
  window : List (List Char)

/-- The part of the file that the segments cover. -/
def oldSide (segments : List Segment) : List (List Char) :=
  segments.flatMap fun segment => segment.gap ++ segment.window

/-- What becomes of it. -/
def newSide (segments : List Segment) : List (List Char) :=
  segments.flatMap fun segment => segment.gap ++ segment.hunk.newLines

/-- The file has these lines at the position, up to the newlines at their ends. -/
def StandsAt (lines old : List (List Char)) (position : Nat) : Prop :=
  ∃ before window after, lines = before ++ window ++ after ∧ before.length = position
    ∧ window.map stripNewline = old.map stripNewline

/-- The position that the header of a hunk states, in a file with that many lines. -/
def statedPosition (hunk : Hunk) (size : Nat) : Nat := min (hunk.oldStart - 1) size

/-- The choice of a position for a hunk, when `done` lines of the file are dealt with. -/
structure HunkPlaced (lines : List (List Char)) (hunk : Hunk) (done position : Nat) : Prop where
  stated : done ≤ statedPosition hunk lines.length →
    StandsAt lines hunk.oldLines (statedPosition hunk lines.length) →
    position = statedPosition hunk lines.length
  unique : ¬ (done ≤ statedPosition hunk lines.length
      ∧ StandsAt lines hunk.oldLines (statedPosition hunk lines.length)) →
    ∀ other, done ≤ other → StandsAt lines hunk.oldLines other → other = position

/-! ## Positions -/

theorem StandsAt.le {lines old : List (List Char)} {position : Nat}
    (h : StandsAt lines old position) : position + old.length ≤ lines.length := by
  obtain ⟨before, window, after, rfl, rfl, hsame⟩ := h
  have hlength : window.length = old.length := by
    simpa using congrArg List.length hsame
  simp only [List.length_append]
  omega

theorem hunkMatches_of_standsAt {lines : List (List Char)} {hunk : Hunk} {position : Nat}
    (h : StandsAt lines hunk.oldLines position) : hunkMatches lines hunk position = true := by
  obtain ⟨before, window, after, rfl, rfl, hsame⟩ := h
  have hlength : window.length = hunk.oldLines.length := by
    simpa using congrArg List.length hsame
  have hwindow : ((before ++ window ++ after).drop before.length).take hunk.oldLines.length
      = window := by
    rw [List.append_assoc, List.drop_left, ← hlength, List.take_left]
  unfold hunkMatches
  rw [hwindow, hsame]
  exact beq_self_eq_true _

theorem standsAt_of_hunkMatches {lines : List (List Char)} {hunk : Hunk} {position : Nat}
    (hle : position ≤ lines.length) (h : hunkMatches lines hunk position = true) :
    StandsAt lines hunk.oldLines position := by
  refine ⟨lines.take position, (lines.drop position).take hunk.oldLines.length,
    (lines.drop position).drop hunk.oldLines.length, ?_, ?_, ?_⟩
  · rw [List.append_assoc, List.take_append_drop, List.take_append_drop]
  · rw [List.length_take, Nat.min_eq_left hle]
  · unfold hunkMatches at h
    exact beq_iff_eq.mp h

/-- Beyond the end of the file only a hunk without old lines matches. -/
theorem standsAt_min_iff {lines : List (List Char)} {hunk : Hunk} {position : Nat} :
    StandsAt lines hunk.oldLines (min position lines.length)
      ↔ hunkMatches lines hunk position = true := by
  by_cases hle : position ≤ lines.length
  · rw [Nat.min_eq_left hle]
    exact ⟨hunkMatches_of_standsAt, standsAt_of_hunkMatches hle⟩
  · have hbeyond : lines.length ≤ position := Nat.le_of_not_le hle
    rw [Nat.min_eq_right hbeyond]
    constructor
    · intro h
      have hempty : hunk.oldLines = [] := by
        have hroom := h.le
        exact List.eq_nil_of_length_eq_zero (by omega)
      simp [hunkMatches, hempty]
    · intro h
      unfold hunkMatches at h
      rw [List.drop_eq_nil_of_le hbeyond, List.take_nil, List.map_nil, beq_iff_eq] at h
      have hempty : hunk.oldLines = [] := List.map_eq_nil_iff.mp h.symm
      exact ⟨lines, [], [], by simp, rfl, by rw [hempty]⟩

/-- **The choice of `_locate_hunk`.** -/
theorem locateHunk_placed {lines : List (List Char)} {hunk : Hunk} {cursor start : Nat}
    (h : locateHunk lines hunk cursor = .ok start) :
    HunkPlaced lines hunk (min cursor lines.length) (min start lines.length) := by
  unfold locateHunk at h
  dsimp only at h
  split at h
  · rename_i hstated
    simp only [Bool.and_eq_true, decide_eq_true_eq] at hstated
    have hstart : start = hunk.oldStart - 1 := (Except.ok.inj h).symm
    have hdone : min cursor lines.length ≤ statedPosition hunk lines.length := by
      unfold statedPosition
      omega
    exact ⟨fun _ _ => by rw [hstart]; rfl,
      fun hnot => absurd ⟨hdone, standsAt_min_iff.mpr hstated.2⟩ hnot⟩
  · rename_i hstated
    split at h
    · rename_i candidate hcandidates
      have hstart : candidate = start := Except.ok.inj h
      have hmem : candidate ∈ [candidate] := List.mem_singleton.mpr rfl
      rw [← hcandidates] at hmem
      simp only [List.mem_filter, List.mem_range, Bool.and_eq_true, decide_eq_true_eq] at hmem
      have hcursor : min cursor lines.length = cursor := by omega
      have hposition : min start lines.length = start := by omega
      rw [hcursor, hposition]
      refine ⟨fun hdone hstands => ?_, fun _ other hother hstands => ?_⟩
      · -- the stated position was refused
        have hbefore : cursor ≤ hunk.oldStart - 1 := by
          unfold statedPosition at hdone
          omega
        exact absurd (by simp [hbefore, standsAt_min_iff.mp hstands]) hstated
      · have hroom := hstands.le
        have hin : other ∈ [candidate] := by
          rw [← hcandidates]
          simp only [List.mem_filter, List.mem_range, Bool.and_eq_true, decide_eq_true_eq]
          exact ⟨by omega, hother, hunkMatches_of_standsAt hstands⟩
        rw [List.mem_singleton.mp hin, hstart]
    · exact nomatch h
    · exact nomatch h

/-! ## Hunks laid over the file -/

/-- The old lines of a hunk are where its header says, behind line `done`. A hunk without old
lines can be stated beyond the end of the file. -/
def IsStated (lines : List (List Char)) (hunk : Hunk) (done : Nat) : Prop :=
  done ≤ hunk.oldStart - 1 ∧ StandsAt lines hunk.oldLines (statedPosition hunk lines.length)

/-- A hunk goes where it is stated, or else to the only place behind line `done` where its old
lines are. -/
inductive IsPlace (lines : List (List Char)) (hunk : Hunk) (done : Nat) : Nat → Prop where
  | stated : IsStated lines hunk done → IsPlace lines hunk done (hunk.oldStart - 1)
  | only {position : Nat} : ¬ IsStated lines hunk done →
      (∀ other, done ≤ other ∧ StandsAt lines hunk.oldLines other ↔ other = position) →
      IsPlace lines hunk done position

/-- Hunks in their places from line `done` on: every line of the file and every line of the
hunks, with its marker. -/
inductive LaidOver (lines : List (List Char)) :
    Nat → List Hunk → List (Marker × List Char) → Prop where
  | nil {done : Nat} :
      LaidOver lines done [] ((lines.drop done).map fun raw => (.context, raw))
  | cons {done position : Nat} {hunk : Hunk} {hunks : List Hunk}
      {rest : List (Marker × List Char)} :
      IsPlace lines hunk done position →
      LaidOver lines (position + hunk.oldLines.length) hunks rest →
      LaidOver lines done (hunk :: hunks)
        (((lines.drop done).take (position - done)).map (fun raw => (.context, raw))
          ++ hunk.lines ++ rest)

theorem eq_singleton_of_mem_iff {positions : List Nat} {position : Nat}
    (hnodup : positions.Nodup) (h : ∀ other, other ∈ positions ↔ other = position) :
    positions = [position] := by
  cases positions with
  | nil => exact absurd ((h position).mpr rfl) List.not_mem_nil
  | cons first rest =>
      obtain rfl := (h first).mp List.mem_cons_self
      cases rest with
      | nil => rfl
      | cons second rest =>
          have hsame := (h second).mp (List.mem_cons_of_mem _ List.mem_cons_self)
          rw [hsame] at hnodup
          exact absurd List.mem_cons_self (List.nodup_cons.mp hnodup).1

/-- **The rule of `_locate_hunk`.** -/
theorem isPlace_iff {lines : List (List Char)} {hunk : Hunk} {done position : Nat} :
    IsPlace lines hunk done position ↔ locateHunk lines hunk done = .ok position := by
  have hstated : (decide (done ≤ hunk.oldStart - 1) && hunkMatches lines hunk (hunk.oldStart - 1))
      = true ↔ IsStated lines hunk done := by
    unfold IsStated statedPosition
    rw [Bool.and_eq_true, decide_eq_true_eq, standsAt_min_iff]
  have hmem : ∀ other, (other ∈ (List.range (lines.length + 1 - hunk.oldLines.length)).filter
      fun start => decide (done ≤ start) && hunkMatches lines hunk start)
      ↔ done ≤ other ∧ StandsAt lines hunk.oldLines other := by
    intro other
    rw [List.mem_filter, List.mem_range, Bool.and_eq_true, decide_eq_true_eq]
    constructor
    · intro h
      exact ⟨h.2.1, standsAt_of_hunkMatches (by omega) h.2.2⟩
    · intro h
      have hroom := h.2.le
      exact ⟨by omega, h.1, hunkMatches_of_standsAt h.2⟩
  unfold locateHunk
  dsimp only
  by_cases hplace : IsStated lines hunk done
  · rw [if_pos (hstated.mpr hplace)]
    constructor
    · intro h
      cases h with
      | stated _ => rfl
      | only hnot _ => exact absurd hplace hnot
    · intro h
      rw [← Except.ok.inj h]
      exact .stated hplace
  · rw [if_neg fun h => hplace (hstated.mp h)]
    constructor
    · intro h
      cases h with
      | stated h => exact absurd h hplace
      | only _ honly =>
          rw [eq_singleton_of_mem_iff (List.nodup_range.filter _)
            fun other => (hmem other).trans (honly other)]
    · intro h
      -- the search fails if there is no place or more than one
      split at h
      · rename_i start hone
        rw [← Except.ok.inj h]
        refine .only hplace fun other => ?_
        rw [← hmem, hone, List.mem_singleton]
      · exact nomatch h
      · exact nomatch h

/-- **The merged diff** is the hunks laid over the file. -/
theorem laidOver_iff {lines : List (List Char)} {hunks : List Hunk} {done : Nat}
    {merged : List (Marker × List Char)} :
    LaidOver lines done hunks merged ↔ mergeHunks lines done hunks = .ok merged := by
  constructor
  · intro h
    induction h with
    | nil => rfl
    | cons hplace _ ih =>
        unfold mergeHunks
        rw [isPlace_iff.mp hplace]
        show (mergeHunks lines _ _ >>= _) = _
        rw [ih]
        rfl
  · intro h
    induction hunks generalizing done merged with
    | nil =>
        rw [← Except.ok.inj h]
        exact .nil
    | cons hunk hunks ih =>
        unfold mergeHunks at h
        obtain ⟨start, hlocate, h⟩ := Program.bind_eq_ok h
        obtain ⟨rest, hrest, h⟩ := Program.bind_eq_ok h
        rw [← Except.ok.inj h]
        exact .cons (isPlace_iff.mpr hlocate) (ih hrest)

/-- There is a result exactly if the hunks can be laid over the file. -/
theorem laidOver_exists_iff {lines : List (List Char)} {hunks : List Hunk} {done : Nat} :
    (∃ merged, LaidOver lines done hunks merged)
      ↔ ∃ result, applyHunks lines done hunks = .ok result := by
  constructor
  · intro h
    obtain ⟨merged, h⟩ := h
    induction h with
    | nil => exact ⟨_, rfl⟩
    | cons hplace _ ih =>
        obtain ⟨result, hresult⟩ := ih
        unfold applyHunks
        rw [isPlace_iff.mp hplace]
        show ∃ _, (applyHunks lines _ _ >>= _) = _
        rw [hresult]
        exact ⟨_, rfl⟩
  · intro h
    obtain ⟨result, h⟩ := h
    obtain ⟨merged, hmerge, _⟩ := applyHunks_merge h
    exact ⟨merged, laidOver_iff.mpr hmerge⟩

/-! ## The cut of the file -/

/-- A cut of the file from line `done` on, with a place for every hunk. -/
structure Cut (lines : List (List Char)) (done : Nat) (hunks : List Hunk)
    (segments : List Segment) (tail : List (List Char)) : Prop where
  hunks_eq : segments.map Segment.hunk = hunks
  lines_eq : lines.drop done = oldSide segments ++ tail
  window_eq : ∀ segment ∈ segments,
    segment.window.map stripNewline = segment.hunk.oldLines.map stripNewline
  placed : ∀ before segment after, segments = before ++ segment :: after →
    HunkPlaced lines segment.hunk (done + (oldSide before).length)
      (done + (oldSide before).length + segment.gap.length)

theorem oldSide_cons (segment : Segment) (segments : List Segment) :
    oldSide (segment :: segments) = segment.gap ++ segment.window ++ oldSide segments := rfl

theorem newSide_cons (segment : Segment) (segments : List Segment) :
    newSide (segment :: segments) = segment.gap ++ segment.hunk.newLines ++ newSide segments := rfl

/-- One more hunk in front. -/
theorem Cut.cons {lines : List (List Char)} {done : Nat} {hunks : List Hunk}
    {segments : List Segment} {tail : List (List Char)} {segment : Segment}
    (h : Cut lines (done + segment.gap.length + segment.window.length) hunks segments tail)
    (hlines : lines.drop done = segment.gap ++ segment.window
      ++ lines.drop (done + segment.gap.length + segment.window.length))
    (hwindow : segment.window.map stripNewline = segment.hunk.oldLines.map stripNewline)
    (hplaced : HunkPlaced lines segment.hunk done (done + segment.gap.length)) :
    Cut lines done (segment.hunk :: hunks) (segment :: segments) tail where
  hunks_eq := by rw [List.map_cons, h.hunks_eq]
  lines_eq := by rw [hlines, h.lines_eq, oldSide_cons, List.append_assoc _ _ tail]
  window_eq := by
    intro other hother
    rcases List.mem_cons.mp hother with rfl | hother
    · exact hwindow
    · exact h.window_eq other hother
  placed := by
    intro before other after hsplit
    cases before with
    | nil =>
        obtain ⟨rfl, _⟩ := List.cons.inj hsplit
        simpa [oldSide] using hplaced
    | cons first before =>
        obtain ⟨rfl, hrest⟩ := List.cons.inj hsplit
        have hlength : done + (oldSide (segment :: before)).length
            = done + segment.gap.length + segment.window.length + (oldSide before).length := by
          rw [oldSide_cons]
          simp only [List.length_append]
          omega
        rw [hlength]
        exact h.placed before other after hrest

/-- **The loop cuts the file**, with the invariant that `cursor` lines of it are dealt with. -/
theorem applyHunks_cut {lines : List (List Char)} {hunks : List Hunk} {cursor : Nat}
    {result : List (List Char)} (h : applyHunks lines cursor hunks = .ok result) :
    ∃ segments tail, Cut lines (min cursor lines.length) hunks segments tail
      ∧ result = newSide segments ++ tail := by
  have hclip : ∀ position, lines.drop (min position lines.length) = lines.drop position := by
    intro position
    rcases Nat.le_total position lines.length with hle | hle
    · rw [Nat.min_eq_left hle]
    · rw [Nat.min_eq_right hle, List.drop_length, List.drop_eq_nil_of_le hle]
  induction hunks generalizing cursor result with
  | nil =>
      refine ⟨[], lines.drop cursor, ⟨rfl, hclip cursor, nofun, ?_⟩, (Except.ok.inj h).symm⟩
      intro before segment after hsplit
      simp at hsplit
  | cons hunk hunks ih =>
      unfold applyHunks at h
      obtain ⟨start, hlocate, h⟩ := Program.bind_eq_ok h
      obtain ⟨rest, happly, h⟩ := Program.bind_eq_ok h
      obtain ⟨segments, tail, hcut, hrest⟩ := ih happly
      obtain ⟨hcursor, hmatches⟩ := locateHunk_spec hlocate
      let segment : Segment := {
        gap := (lines.drop cursor).take (start - cursor)
        hunk := hunk
        window := (lines.drop start).take hunk.oldLines.length }
      have hgap : min cursor lines.length + segment.gap.length = min start lines.length := by
        simp only [segment, List.length_take, List.length_drop]
        omega
      have hwindow : segment.window.length = hunk.oldLines.length := by
        simpa [segment] using congrArg List.length hmatches
      have hroom : hunk.oldLines.length ≤ lines.length - start := by
        rw [← hwindow]
        simp only [segment, List.length_take, List.length_drop]
        omega
      have hdone : min cursor lines.length + segment.gap.length + segment.window.length
          = min (start + hunk.oldLines.length) lines.length := by
        rw [hgap, hwindow]
        omega
      have hsplit : lines.drop cursor = segment.gap ++ segment.window
          ++ lines.drop (start + hunk.oldLines.length) := by
        have h₁ := List.take_append_drop (start - cursor) (lines.drop cursor)
        have h₂ := List.take_append_drop hunk.oldLines.length (lines.drop start)
        rw [List.drop_drop, Nat.add_sub_cancel' hcursor] at h₁
        rw [List.drop_drop] at h₂
        rw [List.append_assoc, h₂, h₁]
      have hcut' : Cut lines (min cursor lines.length) (segment.hunk :: hunks)
          (segment :: segments) tail := by
        refine Cut.cons ?_ ?_ hmatches ?_
        · rw [hdone]
          exact hcut
        · rw [hdone, hclip, hclip]
          exact hsplit
        · rw [hgap]
          exact locateHunk_placed hlocate
      refine ⟨segment :: segments, tail, hcut', ?_⟩
      rw [← Except.ok.inj h, hrest, newSide_cons, List.append_assoc _ _ tail]

/-- **Decomposition of an application.** The file is cut into the lines that stay and the
windows of the hunks, and only the windows are replaced. -/
theorem apply_decomposes (unicode : Unicode) (original patch updated : List Char)
    (h : applyUnifiedDiff unicode original patch = .ok updated) :
    ∃ hunks segments tail, parseHunks unicode patch = .ok hunks
      ∧ segments.map Segment.hunk = hunks
      ∧ rawLines original = oldSide segments ++ tail
      ∧ updated = (newSide segments ++ tail).flatten
      ∧ ∀ before segment after, segments = before ++ segment :: after →
        segment.window.map stripNewline = segment.hunk.oldLines.map stripNewline
          ∧ HunkPlaced (rawLines original) segment.hunk (oldSide before).length
            ((oldSide before).length + segment.gap.length) := by
  obtain ⟨hunks, result, hparse, happly, hupdated⟩ := applyUnifiedDiff_cases h
  obtain ⟨segments, tail, hcut, hresult⟩ := applyHunks_cut happly
  rw [Nat.zero_min] at hcut
  refine ⟨hunks, segments, tail, hparse, hcut.hunks_eq, ?_, ?_, ?_⟩
  · rw [← hcut.lines_eq, List.drop_zero]
  · rw [hupdated, hresult]
  · intro before segment after hsplit
    have hplaced := hcut.placed before segment after hsplit
    rw [Nat.zero_add] at hplaced
    exact ⟨hcut.window_eq segment (by rw [hsplit]; simp), hplaced⟩

/-- The second hunk states a line that is not there, and goes where its old line stands. -/
theorem apply_decomposes_moved :
    ∃ segments tail, rawLines "a\nb\na\nc\n".toList = oldSide segments ++ tail
      ∧ "x\nb\na\ny\n".toList = (newSide segments ++ tail).flatten := by
  have happly : applyUnifiedDiff asciiEnvironment.unicode "a\nb\na\nc\n".toList
      "@@ -1 +1 @@\n-a\n+x\n@@ -9 +9 @@\n-c\n+y\n".toList = .ok "x\nb\na\ny\n".toList := by
    decide +kernel
  obtain ⟨_, segments, tail, _, _, hold, hnew, _⟩ := apply_decomposes _ _ _ _ happly
  exact ⟨segments, tail, hold, hnew⟩

end PipeLens.Proof
