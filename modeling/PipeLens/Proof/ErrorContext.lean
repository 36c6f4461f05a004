import PipeLens.Classifier
import PipeLens.Lib.Intervals

/-!
# The context of errors

`extract_error_context` keeps the first few clusters of lines around those that carry an
error signal. The clusters are the maximal intervals of the lines that are near a signal,
so that windows that touch or overlap are in one.

The loop stops at the first window that would open a range too many. Without a limit it
would go on to find all clusters; ranges that are not the last one do not change any
more, and so the limit only cuts the list of clusters off.
-/

namespace PipeLens.Proof

open Text Intervals

variable {unicode : Unicode}

/-- The lines that are near a line with an error signal. -/
def NearSignal (unicode : Unicode) (lines : List (List Char)) (contextLines : Nat) : Set Nat :=
  {j | j < lines.length ∧ ∃ i line, lines[i]? = some line ∧ hasErrorSignal unicode line = true
    ∧ i ≤ j + contextLines ∧ j ≤ i + contextLines}

/-- The numbers of the lines of some sections. -/
def sectionLines (ranges : List (Nat × Nat)) : List Nat :=
  ranges.flatMap fun range => List.range' range.1 (range.2 - range.1)

/-! ## The limit -/

theorem mergeRanges_eq_take {contextLines maxSections n : Nat} {ranges : List (Nat × Nat)}
    {indexes : List Nat} (h : ranges.length ≤ maxSections) :
    mergeRanges contextLines maxSections n ranges indexes
      = (merge ranges (indexes.map (errorWindow contextLines n))).take maxSections := by
  induction indexes generalizing ranges with
  | nil =>
      have hlength : ranges.reverse.length ≤ maxSections := by
        rw [List.length_reverse]
        exact h
      rw [mergeRanges, List.map_nil, merge, List.take_of_length_le hlength]
  | cons index indexes ih =>
      cases ranges with
      | nil =>
          rw [mergeRanges, List.map_cons, merge]
          split
          · rename_i hpos
            exact ih hpos
          · rename_i hzero
            obtain rfl : maxSections = 0 := by omega
            rw [List.take_zero]
      | cons last earlier =>
          rw [mergeRanges, List.map_cons, merge]
          split
          · exact ih h
          · split
            · rename_i hroom
              exact ih hroom
            · rename_i hfull
              obtain ⟨later, hlater⟩ := merge_earlier (errorWindow contextLines n index)
                (last :: earlier) (indexes.map (errorWindow contextLines n))
              have hlength : (last :: earlier).reverse.length = maxSections := by
                rw [List.length_reverse]
                omega
              rw [hlater, ← hlength, List.take_left]

/-! ## The windows -/

theorem mem_signalIndexes {lines : List (List Char)} {i : Nat} :
    i ∈ signalIndexes unicode lines
      ↔ ∃ line, lines[i]? = some line ∧ hasErrorSignal unicode line = true := by
  unfold signalIndexes
  constructor
  · intro h
    obtain ⟨⟨line, j⟩, hmem, hj⟩ := List.mem_map.mp h
    obtain ⟨hzip, hsignal⟩ := List.mem_filter.mp hmem
    obtain rfl : j = i := hj
    have hline := List.mem_zipIdx_iff_getElem?.mp hzip
    exact ⟨line, hline, hsignal⟩
  · intro h
    obtain ⟨line, hline, hsignal⟩ := h
    refine List.mem_map.mpr ⟨(line, i), List.mem_filter.mpr ⟨?_, hsignal⟩, rfl⟩
    exact List.mem_zipIdx_iff_getElem?.mpr hline

theorem signalIndexes_sorted (lines : List (List Char)) :
    (signalIndexes unicode lines).Pairwise (· < ·) := by
  unfold signalIndexes
  have hrange : (lines.zipIdx.map Prod.snd).Pairwise (· < ·) := by
    rw [List.zipIdx_map_snd]
    exact List.pairwise_lt_range'
  exact hrange.sublist (List.filter_sublist.map Prod.snd)

theorem signalIndexes_lt {lines : List (List Char)} {i : Nat}
    (h : i ∈ signalIndexes unicode lines) : i < lines.length := by
  obtain ⟨line, hline, _⟩ := mem_signalIndexes.mp h
  exact (List.getElem?_eq_some_iff.mp hline).1

/-- The windows cover exactly the lines that are near a signal. -/
theorem covered_windows (lines : List (List Char)) (contextLines : Nat) :
    covered ((signalIndexes unicode lines).map (errorWindow contextLines lines.length))
      = NearSignal unicode lines contextLines := by
  ext j
  constructor
  · intro h
    obtain ⟨window, hwindow, hj⟩ := h
    obtain ⟨i, hi, rfl⟩ := List.mem_map.mp hwindow
    obtain ⟨line, hline, hsignal⟩ := mem_signalIndexes.mp hi
    have hstart : i - contextLines ≤ j := hj.1
    have hstop : j < min lines.length (i + contextLines + 1) := hj.2
    refine ⟨by omega, i, line, hline, hsignal, by omega, by omega⟩
  · intro h
    obtain ⟨hlast, i, line, hline, hsignal, hbefore, hafter⟩ := h
    refine ⟨errorWindow contextLines lines.length i,
      List.mem_map_of_mem (mem_signalIndexes.mpr ⟨line, hline, hsignal⟩), ?_, ?_⟩
    · show i - contextLines ≤ j
      omega
    · show j < min lines.length (i + contextLines + 1)
      omega

/-- **All clusters.** Without a limit the loop finds the maximal intervals of these lines. -/
theorem clusters_isRuns (lines : List (List Char)) (contextLines : Nat) :
    IsRuns (NearSignal unicode lines contextLines)
      (merge [] ((signalIndexes unicode lines).map (errorWindow contextLines lines.length))) := by
  rw [← covered_windows]
  refine merge_isRuns ?_ ?_
  · intro window hwindow
    obtain ⟨i, hi, rfl⟩ := List.mem_map.mp hwindow
    have hlt := signalIndexes_lt hi
    show i - contextLines < min lines.length (i + contextLines + 1)
    omega
  · rw [List.pairwise_map]
    refine (signalIndexes_sorted lines).imp ?_
    intro i i' hlt
    show i - contextLines ≤ i' - contextLines
    omega

/-! ## The lines of the sections -/

theorem mem_sectionLines {ranges : List (Nat × Nat)} {j : Nat} :
    j ∈ sectionLines ranges ↔ j ∈ covered ranges := by
  unfold sectionLines
  rw [List.mem_flatMap]
  constructor
  · intro h
    obtain ⟨range, hrange, hj⟩ := h
    obtain ⟨hstart, hstop⟩ := List.mem_range'_1.mp hj
    exact ⟨range, hrange, hstart, by omega⟩
  · intro h
    obtain ⟨range, hrange, hstart, hstop⟩ := h
    exact ⟨range, hrange, List.mem_range'_1.mpr ⟨hstart, by omega⟩⟩

/-- Lines are in order, and none is in two sections. -/
theorem sectionLines_sorted {ranges : List (Nat × Nat)}
    (h : ranges.Pairwise fun range range' => range.2 < range'.1) :
    (sectionLines ranges).Pairwise (· < ·) := by
  induction ranges with
  | nil => exact List.Pairwise.nil
  | cons range ranges ih =>
      have hrest := ih (List.Pairwise.of_cons h)
      refine List.pairwise_append.mpr ⟨List.pairwise_lt_range', hrest, ?_⟩
      intro j hj j' hj'
      obtain ⟨hstart, hstop⟩ := List.mem_range'_1.mp hj
      obtain ⟨other, hother, hle, _⟩ := mem_sectionLines.mp hj'
      have hgap : range.2 < other.1 := List.rel_of_pairwise_cons h hother
      omega

/-- A section has the lines with these numbers. -/
theorem sectionText_eq (lines : List (List Char)) (range : Nat × Nat) :
    sectionText lines range
      = joinTexts "\n"
          ((List.range' range.1 (range.2 - range.1)).filterMap fun j => lines[j]?) := by
  have hslice : ∀ (start count : Nat), (lines.drop start).take count
      = (List.range' start count).filterMap fun j => lines[j]? := by
    intro start count
    induction count generalizing start with
    | zero => rw [List.take_zero]; rfl
    | succ count ih =>
        rw [List.range'_succ, List.filterMap_cons, ← ih (start + 1)]
        cases hline : lines[start]? with
        | none =>
            have hlength := List.getElem?_eq_none_iff.mp hline
            have hlater : lines.length ≤ start + 1 := by omega
            rw [List.drop_eq_nil_of_le hlength, List.drop_eq_nil_of_le hlater, List.take_nil]
            exact List.take_nil.symm
        | some line =>
            obtain ⟨hlt, heq⟩ := List.getElem?_eq_some_iff.mp hline
            rw [List.drop_eq_getElem_cons hlt, heq]
            rfl
  unfold sectionText
  rw [List.drop_take, hslice]

/-- **The context of errors** is made of the first `max_sections` clusters of lines near an
error signal, in order and each of them whole: a line of these clusters is there once, a
signal of theirs is there, and all lines there are near a signal. -/
theorem extract_error_context_clusters (unicode : Unicode) (log : List Char)
    (contextLines maxSections : Nat)
    (hsignal : ∃ line ∈ splitlines log, hasErrorSignal unicode line = true) :
    ∃ clusters : List (Nat × Nat),
      IsRuns (NearSignal unicode (splitlines log) contextLines) clusters
        ∧ (∀ other, IsRuns (NearSignal unicode (splitlines log) contextLines) other →
            other = clusters)
        ∧ extractErrorContext unicode log contextLines maxSections
            = joinTexts "\n...\n" ((clusters.take maxSections).map fun cluster =>
                joinTexts "\n" ((List.range' cluster.1 (cluster.2 - cluster.1)).filterMap
                  fun j => (splitlines log)[j]?))
        ∧ (sectionLines (clusters.take maxSections)).Pairwise (· < ·)
        ∧ (∀ j, j ∈ sectionLines (clusters.take maxSections)
            ↔ ∃ cluster ∈ clusters.take maxSections, j ∈ Set.Ico cluster.1 cluster.2)
        ∧ ∀ j ∈ sectionLines (clusters.take maxSections),
            j ∈ NearSignal unicode (splitlines log) contextLines := by
  let lines := splitlines log
  let windows := (signalIndexes unicode lines).map (errorWindow contextLines lines.length)
  have hruns : IsRuns (NearSignal unicode lines contextLines) (merge [] windows) :=
    clusters_isRuns lines contextLines
  have happart := hruns.apart.sublist (List.take_sublist maxSections _)
  refine ⟨merge [] windows, hruns, ?_, ?_, sectionLines_sorted happart, ?_, ?_⟩
  · intro other hother
    exact hother.unique hruns
  · have hindexes : signalIndexes unicode lines ≠ [] := by
      obtain ⟨line, hline, hsig⟩ := hsignal
      obtain ⟨i, hi⟩ := List.getElem?_of_mem hline
      exact List.ne_nil_of_mem (mem_signalIndexes.mpr ⟨line, hi, hsig⟩)
    unfold extractErrorContext
    rw [if_neg hindexes, mergeRanges_eq_take (Nat.zero_le _)]
    congr 1
    exact List.map_congr_left fun range _ => sectionText_eq lines range
  · intro j
    exact mem_sectionLines
  · intro j hj
    obtain ⟨cluster, hcluster, hin⟩ := mem_sectionLines.mp hj
    have hmem : j ∈ covered (merge [] windows) := ⟨cluster, List.mem_of_mem_take hcluster, hin⟩
    rwa [hruns.covers] at hmem

/-- The tables of Unicode, as far as ASCII goes. -/
def asciiTables : Unicode where
  isAlnum := Char.isAlphanum
  decimal c := if c.isDigit then some (c.toNat - 48) else none

theorem extract_error_context_clusters_build :
    let log := "step 1\nstep 2\nerror: 1\nerror: 2\nstep 3\nstep 4\nerror: 3".toList
    ∃ clusters : List (Nat × Nat),
      IsRuns (NearSignal asciiTables (splitlines log) 1) clusters
        ∧ (∀ other, IsRuns (NearSignal asciiTables (splitlines log) 1) other → other = clusters)
        ∧ extractErrorContext asciiTables log 1 2
            = joinTexts "\n...\n" ((clusters.take 2).map fun cluster =>
                joinTexts "\n" ((List.range' cluster.1 (cluster.2 - cluster.1)).filterMap
                  fun j => (splitlines log)[j]?))
        ∧ (sectionLines (clusters.take 2)).Pairwise (· < ·)
        ∧ (∀ j, j ∈ sectionLines (clusters.take 2)
            ↔ ∃ cluster ∈ clusters.take 2, j ∈ Set.Ico cluster.1 cluster.2)
        ∧ ∀ j ∈ sectionLines (clusters.take 2), j ∈ NearSignal asciiTables (splitlines log) 1 :=
  extract_error_context_clusters asciiTables _ 1 2
    ⟨"error: 1".toList, by decide, by decide⟩

end PipeLens.Proof
