import PipeLens.Scanner

/-!
# Merged cells

A scanner leaves cells blank that repeat the one above. `_scanner_table_bumps` reads them from
the last row it kept, except for the library: a row without a library is passed over. So a
table may be written with repeated cells or without, and gives the same bumps, as long as every
row names its library.

The invariant is that the row kept agrees with the last row of the table wherever that is
not empty. It may have more, the value of an earlier row for a version that was empty; such a
row is not fixed, and gives no bump.
-/

namespace PipeLens.Proof

open Text

variable {lower : List Char → List Char}

/-! ## How a table is written -/

/-- What can stand in a cell. -/
structure IsCell (cell : List Char) : Prop where
  stripped : strip cell = cell
  plain : ∀ c ∈ cell, isSeparator c = false

/-- A cell with white space around it. -/
def Padded (cell text : List Char) : Prop :=
  ∃ l r, (∀ c ∈ l, isSpace c = true) ∧ (∀ c ∈ r, isSpace c = true) ∧ text = l ++ (cell ++ r)

/-- Cells with a bar between two of them. -/
inductive Barred : List (List Char) → List Char → Prop where
  | last {cell text : List Char} : Padded cell text → Barred [cell] text
  | cons {cell text line : List Char} {bar : Char} {cells : List (List Char)} :
      Padded cell text → isSeparator bar = true → Barred cells line →
      Barred (cell :: cells) (text ++ bar :: line)

/-- What stands at an end of the cells, where a line has these bars: something other than a bar,
and if there are none, other than white space. -/
def IsEdge (bars : List Char) (next : Option Char) : Prop :=
  ∃ c, next = some c ∧ isSeparator c = false ∧ (bars = [] → isSpace c = false)

/-- A line with bars of a table. -/
def hasBars (line : List Char) : Bool := line.contains '│' || decide (4 ≤ line.count '|')

/-- A line with these cells. At both ends it may have bars, and white space. -/
structure IsTableLine (cells : List (List Char)) (line : List Char) : Prop where
  bars : hasBars line = true
  drawn : ∃ lead left inner right trail, line = lead ++ (left ++ (inner ++ right) ++ trail)
    ∧ (∀ c ∈ lead, isSpace c = true) ∧ (∀ c ∈ trail, isSpace c = true)
    ∧ (∀ c ∈ left, isSeparator c = true) ∧ (∀ c ∈ right, isSeparator c = true)
    ∧ Barred cells inner ∧ IsEdge left inner.head? ∧ IsEdge right inner.getLast?

/-- A row with cells left blank that are the same as above. -/
structure Blanked (keep : Nat → Prop) (above row shown : List (List Char)) : Prop where
  length : shown.length = row.length
  cells : ∀ i : Nat, shown[i]? = row[i]? ∨ (¬ keep i ∧ shown[i]? = some [] ∧ above[i]? = row[i]?)

/-- Rows with such cells left blank, each compared with the row above it. -/
inductive Merged (keep : Nat → Prop) : List (List Char) → List (List (List Char)) →
    List (List (List Char)) → Prop where
  | nil {above : List (List Char)} : Merged keep above [] []
  | cons {above row shown : List (List Char)} {rows shownRows : List (List (List Char))} :
      Blanked keep above row shown → Merged keep row rows shownRows →
      Merged keep above (row :: rows) (shown :: shownRows)

/-- A line between rows: a border, a blank line, or a title that goes on. -/
def isPassedOver (lower : List Char → List Char) (columns : List (List Char)) (line : List Char) :
    Bool :=
  if hasBars line then
    !isHeader ((tableCells line).map lower)
      && (decide ((tableCells line).length < columns.dedup.length)
        || decide (columns.length ≤ (tableCells line).length)
          && hasNoLibrary (readRow columns (tableCells line)))
  else !(strip line).head?.any fun c => !tableBorderChars.contains c

/-- A line that a table ends with: other text. -/
def isClosing (line : List Char) : Bool :=
  !hasBars line && (strip line).head?.any fun c => !tableBorderChars.contains c

def isHeaderLine (lower : List Char → List Char) (line : List Char) : Bool :=
  hasBars line && isHeader ((tableCells line).map lower)

/-- A table of a scanner. Only the version with the fix can be empty, in a row that is not
fixed. -/
structure ScannerTable (lower : List Char → List Char) where
  names : List (List Char)
  rows : List (List (List Char))
  cells : ∀ row ∈ names :: rows, ∀ cell ∈ row, IsCell cell
  header : isHeader (names.map lower) = true
  width : ∀ row ∈ rows, row.length = names.length
  /-- No row is read as a header. -/
  data : ∀ row ∈ rows, isHeader (row.map lower) = false
  library : ∀ row ∈ rows, hasNoLibrary (readRow (names.map lower) row) = false
  filled : ∀ row ∈ rows, ∀ name ∈ mergedScannerColumns,
    readRow (names.map lower) row name = some [] → name = "fixed version".toList
      ∧ lower ((readRow (names.map lower) row "status".toList).getD []) ≠ "fixed".toList

namespace ScannerTable

def columns (t : ScannerTable lower) : List (List Char) := t.names.map lower

/-- Whether a column is the one of the libraries. -/
def isLibrary (t : ScannerTable lower) (i : Nat) : Prop :=
  columnIndex t.columns "library".toList = some i

/-- The bumps that the rows of the table stand for, each on its own. -/
def bumps (t : ScannerTable lower) : List VersionBump :=
  t.rows.filterMap fun row => scannerRowBump lower (readRow t.columns row)

end ScannerTable

/-- A table with its rows as they are shown. -/
structure Drawing (lower : List Char → List Char) where
  table : ScannerTable lower
  shown : List (List (List Char))

namespace Drawing

/-- Cells may be left blank except for the libraries. -/
def IsMerged (d : Drawing lower) : Prop := Merged d.table.isLibrary [] d.table.rows d.shown

/-- The table with nothing left blank. -/
def inFull (d : Drawing lower) : Drawing lower := { d with shown := d.table.rows }

end Drawing

/-- Lines with tables among them, from a place where a table with these columns may be open, and
these rows of it are still to come. Behind its rows a table is closed by other text, or another
one begins. Where no table is open, any line may stand that is no header. -/
inductive LogLines (lower : List Char → List Char) : Option (List (List Char)) →
    List (List (List Char)) → List (Drawing lower) → List (List Char) → Prop where
  | nil {opened : Option (List (List Char))} : LogLines lower opened [] [] []
  | row {columns cells : List (List Char)} {line : List Char} {rows : List (List (List Char))}
      {drawings : List (Drawing lower)} {lines : List (List Char)} :
      IsTableLine cells line → LogLines lower (some columns) rows drawings lines →
      LogLines lower (some columns) (cells :: rows) drawings (line :: lines)
  | between {columns : List (List Char)} {line : List Char} {rows : List (List (List Char))}
      {drawings : List (Drawing lower)} {lines : List (List Char)} :
      isPassedOver lower columns line = true → LogLines lower (some columns) rows drawings lines →
      LogLines lower (some columns) rows drawings (line :: lines)
  | close {columns : List (List Char)} {line : List Char} {drawings : List (Drawing lower)}
      {lines : List (List Char)} :
      isClosing line = true → LogLines lower none [] drawings lines →
      LogLines lower (some columns) [] drawings (line :: lines)
  | outside {line : List Char} {drawings : List (Drawing lower)} {lines : List (List Char)} :
      isHeaderLine lower line = false → LogLines lower none [] drawings lines →
      LogLines lower none [] drawings (line :: lines)
  | header {opened : Option (List (List Char))} {line : List Char} {d : Drawing lower}
      {drawings : List (Drawing lower)} {lines : List (List Char)} :
      IsTableLine d.table.names line → LogLines lower (some d.table.columns) d.shown drawings lines →
      LogLines lower opened [] (d :: drawings) (line :: lines)

/-- A log with these tables. -/
def DrawnIn (log : List Char) (drawings : List (Drawing lower)) : Prop :=
  LogLines lower none [] drawings (splitlines log)

/-! ## Reading a line -/

theorem strip_append_left {spaces : List Char} (h : ∀ c ∈ spaces, isSpace c = true)
    (text : List Char) : strip (spaces ++ text) = strip text := by
  unfold strip
  rw [List.dropWhile_append_of_pos h]

theorem rdropWhile_append_of_pos {p : Char → Bool} {end' : List Char} (h : ∀ c ∈ end', p c = true)
    (text : List Char) : (text ++ end').rdropWhile p = text.rdropWhile p := by
  unfold List.rdropWhile
  rw [List.reverse_append, List.dropWhile_append_of_pos]
  intro c hc
  exact h c (List.mem_reverse.mp hc)

theorem strip_append_right {spaces : List Char} (h : ∀ c ∈ spaces, isSpace c = true)
    (text : List Char) : strip (text ++ spaces) = strip text := by
  induction spaces using List.reverseRecOn with
  | nil => rw [List.append_nil]
  | append_singleton spaces c ih =>
      rw [← List.append_assoc, strip_concat_space (h c (by simp)), ih fun d hd => h d (by simp [hd])]

theorem dropWhile_of_head {p : Char → Bool} {text : List Char} {c : Char}
    (hhead : text.head? = some c) (hc : p c = false) : text.dropWhile p = text := by
  cases text with
  | nil => cases hhead
  | cons d rest =>
      rw [Option.some.inj hhead]
      exact List.dropWhile_cons_of_neg (by rw [hc]; decide)

theorem rdropWhile_of_last {p : Char → Bool} {text : List Char} {c : Char}
    (hlast : text.getLast? = some c) (hc : p c = false) : text.rdropWhile p = text := by
  refine List.rdropWhile_eq_self_iff.mpr fun hnonempty hp => ?_
  rw [List.getLast?_eq_some_getLast hnonempty] at hlast
  rw [Option.some.inj hlast, hc] at hp
  cases hp

theorem strip_eq_self {text : List Char} {c d : Char} (hhead : text.head? = some c)
    (hc : isSpace c = false) (hlast : text.getLast? = some d) (hd : isSpace d = false) :
    strip text = text := by
  unfold strip
  rw [dropWhile_of_head hhead hc, rdropWhile_of_last hlast hd]

/-- A bar is no white space. -/
theorem isSpace_of_isSeparator {c : Char} (h : isSeparator c = true) : isSpace c = false := by
  unfold isSeparator at h
  rw [Bool.or_eq_true, beq_iff_eq, beq_iff_eq] at h
  rcases h with rfl | rfl
  · decide
  · decide

theorem isSeparator_of_isSpace {c : Char} (h : isSpace c = true) : isSeparator c = false := by
  by_contra hbar
  rw [isSpace_of_isSeparator (by simpa using hbar)] at h
  cases h

theorem strip_padded {cell text : List Char} (h : Padded cell text) : strip text = strip cell := by
  obtain ⟨l, r, hl, hr, rfl⟩ := h
  rw [strip_append_left hl, strip_append_right hr]

theorem plain_padded {cell text : List Char} (hcell : IsCell cell) (h : Padded cell text) :
    ∀ c ∈ text, isSeparator c = false := by
  obtain ⟨l, r, hl, hr, rfl⟩ := h
  have hspaces : ∀ spaces : List Char, (∀ c ∈ spaces, isSpace c = true) →
      ∀ c ∈ spaces, isSeparator c = false :=
    fun spaces h c hc => isSeparator_of_isSpace (h c hc)
  exact List.forall_mem_append.mpr
    ⟨hspaces l hl, List.forall_mem_append.mpr ⟨hcell.plain, hspaces r hr⟩⟩

/-- The cells between the bars. -/
theorem Barred.split {cells : List (List Char)} {line : List Char} (h : Barred cells line)
    (hcells : ∀ cell ∈ cells, IsCell cell) : (line.splitOnP isSeparator).map strip = cells := by
  induction h with
  | @last cell text hpadded =>
      have hcell := hcells cell List.mem_cons_self
      rw [List.splitOnP_eq_singleton (plain_padded hcell hpadded), List.map_singleton,
        strip_padded hpadded, hcell.stripped]
  | @cons cell text line bar cells hpadded hbar _ ih =>
      have hcell := hcells cell List.mem_cons_self
      rw [List.splitOnP_append_cons_of_forall_mem (plain_padded hcell hpadded) bar hbar,
        List.map_cons, strip_padded hpadded, hcell.stripped,
        ih fun other hother => hcells other (List.mem_cons_of_mem cell hother)]

/-- Bars, or else the cells, keep a line from being stripped further. -/
theorem IsEdge.outer {bars inner : List Char} (h : IsEdge bars inner.head?)
    (hbars : ∀ c ∈ bars, isSeparator c = true) :
    ∃ c, (bars ++ inner).head? = some c ∧ isSpace c = false := by
  obtain ⟨c, hc, _, hspace⟩ := h
  cases bars with
  | nil => exact ⟨c, hc, hspace rfl⟩
  | cons bar bars => exact ⟨bar, rfl, isSpace_of_isSeparator (hbars bar List.mem_cons_self)⟩

theorem IsEdge.outer_right {bars inner : List Char} (h : IsEdge bars inner.getLast?)
    (hbars : ∀ c ∈ bars, isSeparator c = true) :
    ∃ c, (inner ++ bars).getLast? = some c ∧ isSpace c = false := by
  obtain ⟨c, hc, _, hspace⟩ := h
  rcases List.eq_nil_or_concat bars with rfl | ⟨others, bar, rfl⟩
  · rw [List.append_nil]
    exact ⟨c, hc, hspace rfl⟩
  · refine ⟨bar, ?_, isSpace_of_isSeparator (hbars bar (by simp))⟩
    rw [List.concat_eq_append, ← List.append_assoc, List.getLast?_concat]

/-- **The cells of a line** are read as they were written. -/
theorem tableCells_line {cells : List (List Char)} {line : List Char}
    (hcells : ∀ cell ∈ cells, IsCell cell) (h : IsTableLine cells line) :
    tableCells line = cells := by
  obtain ⟨lead, left, inner, right, trail, rfl, hlead, htrail, hleft, hright, hbarred, hfirst,
    hlast⟩ := h.drawn
  obtain ⟨c, hhead, hc⟩ := hfirst.outer hleft
  obtain ⟨d, hend, hd⟩ := hlast.outer_right hright
  obtain ⟨first, hfirst, hfirstPlain, _⟩ := hfirst
  obtain ⟨last, hlast, hlastPlain, _⟩ := hlast
  -- the white space goes first, and what keeps it from going further is a bar or a cell
  have hstrip : strip (lead ++ (left ++ (inner ++ right) ++ trail)) = left ++ (inner ++ right) := by
    rw [strip_append_left hlead, strip_append_right htrail]
    refine strip_eq_self (c := c) (d := d) ?_ hc ?_ hd
    · rw [← List.append_assoc, List.head?_append, hhead]
      rfl
    · rw [List.getLast?_append, hend]
      rfl
  have hbegin : (inner ++ right).head? = some first := by
    rw [List.head?_append, hfirst]
    rfl
  unfold tableCells
  rw [hstrip, List.dropWhile_append_of_pos hleft, dropWhile_of_head hbegin hfirstPlain,
    rdropWhile_append_of_pos hright, rdropWhile_of_last hlast hlastPlain]
  exact hbarred.split hcells

/-! ## One line -/

theorem not_bare_of_hasBars {line : List Char} (h : hasBars line = true) :
    ¬ (!line.contains '│' && decide (line.count '|' < 4)) = true := by
  unfold hasBars at h
  rw [Bool.or_eq_true, decide_eq_true_eq] at h
  rw [Bool.and_eq_true, Bool.not_eq_true', decide_eq_true_eq]
  rintro ⟨hnone, hfew⟩
  rcases h with h | h
  · rw [hnone] at h
    cases h
  · omega

theorem bare_of_hasBars {line : List Char} (h : hasBars line = false) :
    (!line.contains '│' && decide (line.count '|' < 4)) = true := by
  unfold hasBars at h
  rw [Bool.or_eq_false_iff, decide_eq_false_iff_not] at h
  rw [Bool.and_eq_true, Bool.not_eq_true', decide_eq_true_eq]
  exact ⟨h.1, by omega⟩

theorem scannerLine_header {names : List (List Char)} {line : List Char} {s : ScannerState}
    (hcells : ∀ cell ∈ names, IsCell cell) (hline : IsTableLine names line)
    (hheader : isHeader (names.map lower) = true) :
    scannerLine lower s line
      = some { s with columns := some (names.map lower), previous := fun _ => none } := by
  unfold scannerLine
  rw [if_neg (not_bare_of_hasBars hline.bars), tableCells_line hcells hline]
  dsimp only
  rw [hheader]
  rfl

/-- A line with a row. -/
theorem scannerLine_row {columns cells : List (List Char)} {line : List Char} {s : ScannerState}
    (hcells : ∀ cell ∈ cells, IsCell cell) (hline : IsTableLine cells line)
    (hcolumns : s.columns = some columns) (hwidth : cells.length = columns.length)
    (hdata : isHeader (cells.map lower) = false)
    (hlibrary : hasNoLibrary (readRow columns cells) = false) :
    scannerLine lower s line
      = some { s with
          previous := carryDown s.previous (readRow columns cells)
          bumps := s.bumps
            ++ (scannerRowBump lower (carryDown s.previous (readRow columns cells))).toList } := by
  have hdistinct : ¬ cells.length < columns.dedup.length := by
    have hle := (List.dedup_sublist columns).length_le
    omega
  have hall : ¬ cells.length < columns.length := by omega
  unfold scannerLine
  rw [if_neg (not_bare_of_hasBars hline.bars), tableCells_line hcells hline]
  dsimp only
  rw [hdata, hcolumns]
  dsimp only
  rw [if_neg hdistinct, if_neg hall, hlibrary]
  rfl

theorem scannerLine_between {columns : List (List Char)} {line : List Char} {s : ScannerState}
    (hcolumns : s.columns = some columns) (h : isPassedOver lower columns line = true) :
    scannerLine lower s line = some s := by
  unfold isPassedOver at h
  unfold scannerLine
  cases hbars : hasBars line with
  | false =>
      rw [hbars] at h
      rw [if_pos (bare_of_hasBars hbars), if_neg (by simpa using h)]
  | true =>
      rw [hbars, if_pos rfl, Bool.and_eq_true, Bool.or_eq_true, Bool.and_eq_true,
        decide_eq_true_eq, decide_eq_true_eq] at h
      obtain ⟨hdata, hrest⟩ := h
      rw [if_neg (not_bare_of_hasBars hbars)]
      dsimp only
      rw [if_neg (by simpa using hdata), hcolumns]
      dsimp only
      rcases hrest with hshort | ⟨hlong, hlibrary⟩
      · rw [if_pos hshort]
      · split
        · rfl
        · rw [if_neg (Nat.not_lt.mpr hlong)]

theorem scannerLine_close {line : List Char} {s : ScannerState} (h : isClosing line = true) :
    scannerLine lower s line = some { s with columns := none } := by
  unfold isClosing at h
  rw [Bool.and_eq_true, Bool.not_eq_true'] at h
  unfold scannerLine
  rw [if_pos (bare_of_hasBars h.1), if_pos h.2]

/-- Where no table is open, a line that is no header says nothing. -/
theorem scannerLine_outside {line : List Char} {s : ScannerState} (hcolumns : s.columns = none)
    (h : isHeaderLine lower line = false) : scannerLine lower s line = some s := by
  have hsame : { s with columns := none } = s := by rw [← hcolumns]
  unfold isHeaderLine at h
  unfold scannerLine
  cases hbars : hasBars line with
  | false =>
      rw [if_pos (bare_of_hasBars hbars), hsame, ite_self]
  | true =>
      rw [hbars, Bool.true_and] at h
      rw [if_neg (not_bare_of_hasBars hbars)]
      dsimp only
      rw [h, hcolumns]
      rfl

/-! ## One row -/

/-- The row that was kept, against the last row of the table. -/
structure Agrees (columns row : List (List Char)) (previous : Row) : Prop where
  value : ∀ name ∈ mergedScannerColumns, isTruthy (readRow columns row name) = true →
    previous name = readRow columns row name
  missing : ∀ name ∈ mergedScannerColumns, columnIndex columns name = none → previous name = none

theorem carryDown_of_truthy {previous row : Row} {name : List Char}
    (h : isTruthy (row name) = true) : carryDown previous row name = row name := by
  unfold carryDown
  rw [h]
  simp

/-- **What is carried down** is the cell that was left blank. -/
theorem agrees_carryDown {columns above row shown : List (List Char)} {previous : Row}
    {keep : Nat → Prop} (h : Agrees columns above previous) (hshown : Blanked keep above row shown) :
    Agrees columns row (carryDown previous (readRow columns shown)) := by
  constructor
  · intro name hname htruthy
    cases hindex : columnIndex columns name with
    | none =>
        rw [readRow, hindex] at htruthy
        cases htruthy
    | some i =>
        have hread : ∀ cells : List (List Char), readRow columns cells name = cells[i]? := by
          intro cells
          rw [readRow, hindex, Option.bind_some]
        rcases hshown.cells i with hsame | ⟨_, hblank, habove⟩
        · rw [hread] at htruthy
          rw [carryDown_of_truthy (by rw [hread, hsame]; exact htruthy), hread, hread, hsame]
        · -- left blank: the row kept has the cell above, which is this cell
          have hprevious : previous name = readRow columns row name := by
            rw [h.value name hname (by rw [hread, habove, ← hread]; exact htruthy), hread, hread,
              habove]
          have hcarry : carryDown previous (readRow columns shown) name = previous name := by
            unfold carryDown
            rw [hread shown, hblank, hprevious, htruthy, List.contains_iff_mem.mpr hname]
            rfl
          rw [hcarry, hprevious]
  · intro name hname hindex
    unfold carryDown
    rw [h.missing name hname hindex]
    have hnone : readRow columns shown name = none := by rw [readRow, hindex, Option.bind_none]
    rw [hnone, ite_self]

/-- A value that is not empty is carried down, or was there. -/
theorem Agrees.eq {columns row : List (List Char)} {previous : Row} (h : Agrees columns row previous)
    (hwidth : row.length = columns.length) {name : List Char} (hname : name ∈ mergedScannerColumns)
    (hne : readRow columns row name ≠ some []) : previous name = readRow columns row name := by
  cases hindex : columnIndex columns name with
  | none => rw [h.missing name hname hindex, readRow, hindex, Option.bind_none]
  | some i =>
      refine h.value name hname ?_
      have hlt : i < row.length := by
        have hmem := List.mem_of_getLast? hindex
        obtain ⟨column, hcolumn, rfl⟩ := List.mem_map.mp hmem
        have hzip := (List.mem_filter.mp hcolumn).1
        rw [hwidth]
        exact (List.mem_zipIdx hzip).2.1.trans_le (by simp)
      have hread : readRow columns row name = some row[i] := by
        rw [readRow, hindex, Option.bind_some, List.getElem?_eq_getElem hlt]
      rw [hread] at hne ⊢
      cases hcell : row[i] with
      | nil => exact absurd (congrArg some hcell) hne
      | cons c cell => rfl

/-- A row is compared with the values that are empty in it. -/
def Filled (lower : List Char → List Char) (row : Row) : Prop :=
  ∀ name ∈ mergedScannerColumns, row name = some [] → name = "fixed version".toList
    ∧ lower ((row "status".toList).getD []) ≠ "fixed".toList

/-- **The bump of a row** is that of its own cells. -/
theorem scannerRowBump_congr {own kept : Row} (hfilled : Filled lower own)
    (hlibrary : kept "library".toList = own "library".toList)
    (heq : ∀ name ∈ mergedScannerColumns, own name ≠ some [] → kept name = own name) :
    scannerRowBump lower kept = scannerRowBump lower own := by
  have hstatus : kept "status".toList = own "status".toList := by
    refine heq _ (by decide) fun hempty => ?_
    exact absurd (hfilled _ (by decide) hempty).1 (by decide)
  unfold scannerRowBump
  rw [hstatus]
  split
  · rfl
  · rename_i hfixed
    -- a row that is fixed has no empty cell, so nothing older can show through
    have hstay : ∀ name ∈ mergedScannerColumns, kept name = own name := by
      intro name hname
      refine heq name hname fun hempty => ?_
      exact (hfilled name hname hempty).2 (by simpa using hfixed)
    rw [hlibrary, hstay _ (by decide), hstay "fixed version".toList (by decide),
      hstay "vulnerability".toList (by decide)]

theorem carryDown_library {previous row : Row} :
    carryDown previous row "library".toList = row "library".toList := by
  unfold carryDown
  rw [if_neg]
  rw [show mergedScannerColumns.contains "library".toList = false by decide]
  simp

/-- The cells of a row as shown. -/
theorem Blanked.isCell {keep : Nat → Prop} {above row shown : List (List Char)}
    (h : Blanked keep above row shown) (hcells : ∀ cell ∈ row, IsCell cell) :
    ∀ cell ∈ shown, IsCell cell := by
  intro cell hmem
  obtain ⟨i, hi⟩ := List.mem_iff_getElem?.mp hmem
  rcases h.cells i with hsame | ⟨_, hblank, _⟩
  · rw [hsame] at hi
    exact hcells cell (List.mem_of_getElem? hi)
  · rw [hblank] at hi
    rw [← Option.some.inj hi]
    exact ⟨rfl, fun c hc => absurd hc List.not_mem_nil⟩

/-- Leaving cells blank makes no header. -/
theorem Blanked.isHeader {keep : Nat → Prop} {above row shown : List (List Char)}
    (hlower : lower [] = []) (h : Blanked keep above row shown)
    (hdata : isHeader (row.map lower) = false) : isHeader (shown.map lower) = false := by
  have hkept : ∀ name, name ≠ [] → name ∈ shown.map lower → name ∈ row.map lower := by
    intro name hname hmem
    obtain ⟨cell, hcell, rfl⟩ := List.mem_map.mp hmem
    obtain ⟨i, hi⟩ := List.mem_iff_getElem?.mp hcell
    rcases h.cells i with hsame | ⟨_, hblank, _⟩
    · rw [hsame] at hi
      exact List.mem_map_of_mem (List.mem_of_getElem? hi)
    · rw [hblank] at hi
      rw [← Option.some.inj hi] at hname
      exact absurd hlower hname
  -- the names of a header are not empty, so that they would be in the whole row too
  refine Bool.eq_false_iff.mpr fun hheader => ?_
  simp only [PipeLens.isHeader, Bool.and_eq_true, List.contains_iff_mem] at hheader
  refine Bool.eq_false_iff.mp hdata ?_
  simp only [PipeLens.isHeader, Bool.and_eq_true, List.contains_iff_mem]
  exact ⟨⟨hkept _ (by decide) hheader.1.1, hkept _ (by decide) hheader.1.2⟩,
    hkept _ (by decide) hheader.2⟩

/-- The library is shown. -/
theorem Blanked.library {columns above row shown : List (List Char)}
    (h : Blanked (fun i => columnIndex columns "library".toList = some i) above row shown) :
    readRow columns shown "library".toList = readRow columns row "library".toList := by
  unfold readRow
  cases hindex : columnIndex columns "library".toList with
  | none => rfl
  | some i =>
      rw [Option.bind_some, Option.bind_some]
      exact (h.cells i).resolve_right fun hblank => hblank.1 hindex

/-! ## The whole log -/

/-- Rows that are to come, behind the row above, of which these cells are shown. -/
structure Pending (lower : List Char → List Char) (columns above : List (List Char))
    (rows shown : List (List (List Char))) (previous : Row) : Prop where
  merged : Merged (fun i => columnIndex columns "library".toList = some i) above rows shown
  agrees : Agrees columns above previous
  cells : ∀ row ∈ rows, ∀ cell ∈ row, IsCell cell
  width : ∀ row ∈ rows, row.length = columns.length
  data : ∀ row ∈ rows, isHeader (row.map lower) = false
  library : ∀ row ∈ rows, hasNoLibrary (readRow columns row) = false
  filled : ∀ row ∈ rows, Filled lower (readRow columns row)

/-- The bumps of the rows that the loop still has to see of an open table. -/
inductive Awaits (lower : List Char → List Char) (previous : Row) :
    Option (List (List Char)) → List (List (List Char)) → List VersionBump → Prop where
  | outside : Awaits lower previous none [] []
  | rows {columns above : List (List Char)} {rows shown : List (List (List Char))} :
      Pending lower columns above rows shown previous →
      Awaits lower previous (some columns) shown
        (rows.filterMap fun row => scannerRowBump lower (readRow columns row))

theorem Awaits.bumps_nil {previous : Row} {opened : Option (List (List Char))}
    {bumps : List VersionBump} (h : Awaits lower previous opened [] bumps) : bumps = [] := by
  cases h with
  | outside => rfl
  | rows hpending =>
      cases hpending.merged
      rfl

/-- **A row** gives its own bump, and leaves itself above the next one. -/
theorem Pending.step {columns above row cells : List (List Char)} {line : List Char}
    {rows shown : List (List (List Char))} {s : ScannerState} (hlower : lower [] = [])
    (hpending : Pending lower columns above (row :: rows) (cells :: shown) s.previous)
    (hline : IsTableLine cells line) (hcolumns : s.columns = some columns) :
    ∃ previous, scannerLine lower s line = some { s with
        previous := previous
        bumps := s.bumps ++ (scannerRowBump lower (readRow columns row)).toList }
      ∧ Pending lower columns row rows shown previous := by
  obtain ⟨hmerged, hagrees, hcells, hwidth, hdata, hlibrary, hfilled⟩ := hpending
  rw [List.forall_mem_cons] at hcells hwidth hdata hlibrary hfilled
  cases hmerged with
  | cons hblanked hrest =>
      have hsame := hblanked.library
      have hnoLibrary : hasNoLibrary (readRow columns cells) = false := by
        rw [← hlibrary.1, hasNoLibrary, hasNoLibrary, hsame]
      have hstep := @scannerLine_row lower _ _ _ _ (hblanked.isCell hcells.1) hline hcolumns
        (hblanked.length.trans hwidth.1) (hblanked.isHeader hlower hdata.1) hnoLibrary
      have hnext := agrees_carryDown hagrees hblanked
      have hbump : scannerRowBump lower (carryDown s.previous (readRow columns cells))
          = scannerRowBump lower (readRow columns row) :=
        scannerRowBump_congr hfilled.1 (carryDown_library.trans hsame)
          fun name hname hne => hnext.eq hwidth.1 hname hne
      rw [hbump] at hstep
      exact ⟨_, hstep, hrest, hnext, hcells.2, hwidth.2, hdata.2, hlibrary.2, hfilled.2⟩

/-- Before its first row a table has no row above. -/
theorem Drawing.pending {d : Drawing lower} (h : d.IsMerged) :
    Pending lower d.table.columns [] d.table.rows d.shown fun _ => none := by
  refine ⟨h, ⟨?_, fun _ _ _ => rfl⟩,
    fun row hrow => d.table.cells row (List.mem_cons_of_mem _ hrow), ?_, d.table.data,
    d.table.library, d.table.filled⟩
  · intro name _ htruthy
    unfold readRow at htruthy
    cases hindex : columnIndex d.table.columns name with
    | none =>
        rw [hindex] at htruthy
        cases htruthy
    | some i =>
        rw [hindex, Option.bind_some, List.getElem?_nil] at htruthy
        cases htruthy
  · intro row hrow
    rw [ScannerTable.columns, List.length_map]
    exact d.table.width row hrow

/-- **The loop over the lines** finds the bumps of the rows to come, and of the tables after. -/
theorem run_lines (hlower : lower [] = []) {opened : Option (List (List Char))}
    {shown : List (List (List Char))} {drawings : List (Drawing lower)} {lines : List (List Char)}
    (h : LogLines lower opened shown drawings lines) {s : ScannerState} {bumps : List VersionBump}
    (hopened : s.columns = opened) (hawaits : Awaits lower s.previous opened shown bumps)
    (hmerged : ∀ d ∈ drawings, d.IsMerged) :
    (lines.foldlM (scannerLine lower) s).map ScannerState.bumps
      = some (s.bumps ++ (bumps ++ drawings.flatMap fun d => d.table.bumps)) := by
  -- `Awaits` ties the rows that are to come to the row that the loop has kept
  induction h generalizing s bumps with
  | nil =>
      rw [hawaits.bumps_nil, List.flatMap_nil, List.append_nil, List.append_nil]
      rfl
  | @row columns cells line shown drawings lines hline _ ih =>
      cases hawaits with
      | @rows _ above rows _ hpending =>
          cases hpending.merged with
          | @cons _ row _ rows _ _ _ =>
              obtain ⟨previous, hstep, hnext⟩ := hpending.step hlower hline hopened
              rw [List.foldlM_cons, hstep]
              refine (ih (s := { s with
                previous := previous
                bumps := s.bumps ++ (scannerRowBump lower (readRow columns row)).toList })
                hopened (.rows hnext) hmerged).trans ?_
              rw [List.filterMap_cons]
              cases scannerRowBump lower (readRow columns row) with
              | none => simp
              | some bump => simp
  | between hpassed _ ih =>
      rw [List.foldlM_cons, scannerLine_between hopened hpassed]
      exact ih hopened hawaits hmerged
  | close hclosing _ ih =>
      rw [List.foldlM_cons, scannerLine_close hclosing, hawaits.bumps_nil]
      exact ih (s := { s with columns := none }) rfl .outside hmerged
  | outside hother _ ih =>
      rw [List.foldlM_cons, scannerLine_outside hopened hother]
      exact ih hopened hawaits hmerged
  | @header opened line d drawings lines hline _ ih =>
      have hnames : ∀ cell ∈ d.table.names, IsCell cell := d.table.cells _ List.mem_cons_self
      rw [List.forall_mem_cons] at hmerged
      rw [List.foldlM_cons, scannerLine_header hnames hline d.table.header, hawaits.bumps_nil]
      refine (ih (s := { s with columns := some d.table.columns, previous := fun _ => none }) rfl
        (.rows (Drawing.pending hmerged.1)) hmerged.2).trans ?_
      rw [List.nil_append, List.flatMap_cons]
      rfl

/-- **What the tables of a log give**, however they are drawn. -/
theorem findVersionBumps_drawn (hlower : lower [] = []) {log : List Char}
    {drawings : List (Drawing lower)} (h : DrawnIn log drawings)
    (hmerged : ∀ d ∈ drawings, d.IsMerged) :
    findVersionBumps lower log = some (uniqueBumps lower
      ((splitlines log).filterMap pipBump ++ drawings.flatMap fun d => d.table.bumps)) := by
  have hrun := run_lines hlower h (s := {}) rfl .outside hmerged
  unfold findVersionBumps scannerTableBumps
  rw [hrun]
  rfl

/-- With nothing left blank. -/
theorem merged_self (keep : Nat → Prop) (above : List (List Char)) (rows : List (List (List Char))) :
    Merged keep above rows rows := by
  induction rows generalizing above with
  | nil => exact .nil
  | cons row rows ih => exact .cons ⟨rfl, fun i => Or.inl rfl⟩ (ih row)

/-- **Merged cells do not change the result**, as long as the libraries are written. Every bump
of a table is that of a row's own cells. -/
theorem merged_cells_same (lower : List Char → List Char) (hlower : lower [] = [])
    (drawings : List (Drawing lower)) (hmerged : ∀ d ∈ drawings, d.IsMerged)
    (full merged : List Char) (hfull : DrawnIn full (drawings.map Drawing.inFull))
    (hdrawn : DrawnIn merged drawings)
    (hpip : (splitlines full).filterMap pipBump = (splitlines merged).filterMap pipBump) :
    findVersionBumps lower full = findVersionBumps lower merged
      ∧ findVersionBumps lower merged = some (uniqueBumps lower
        ((splitlines merged).filterMap pipBump ++ drawings.flatMap fun d => d.table.bumps)) := by
  have hresult := findVersionBumps_drawn hlower hdrawn hmerged
  have hwhole : ∀ d ∈ drawings.map Drawing.inFull, d.IsMerged := by
    intro d hd
    obtain ⟨drawing, _, rfl⟩ := List.mem_map.mp hd
    exact merged_self _ _ _
  refine ⟨?_, hresult⟩
  rw [hresult, findVersionBumps_drawn hlower hfull hwhole, hpip, List.flatMap_map]
  rfl

/-! ## Tables -/

/-- Whether all cells of some rows can stand in a table. -/
def areCells (rows : List (List (List Char))) : Bool :=
  rows.all fun row => row.all fun cell => strip cell == cell && !cell.any isSeparator

theorem isCell_of_areCells {rows : List (List (List Char))} (h : areCells rows = true) :
    ∀ row ∈ rows, ∀ cell ∈ row, IsCell cell := by
  intro row hrow cell hcell
  have hboth := List.all_eq_true.mp (List.all_eq_true.mp h row hrow) cell hcell
  rw [Bool.and_eq_true, beq_iff_eq, Bool.not_eq_true'] at hboth
  exact ⟨hboth.1, fun c hc => Bool.eq_false_iff.mpr (List.any_eq_false.mp hboth.2 c hc)⟩

/-- Cells with one blank around each of them, and bars between them. -/
def barred : List (List Char) → List Char
  | [] => []
  | [cell] => ' ' :: (cell ++ [' '])
  | cell :: cells => ' ' :: (cell ++ [' ']) ++ '│' :: barred cells

/-- The line with one blank around each cell, and bars at both ends. -/
def tableLine (cells : List (List Char)) : List Char := '│' :: (barred cells ++ ['│'])

theorem padded_blank (cell : List Char) : Padded cell (' ' :: (cell ++ [' '])) :=
  have hblank : ∀ c ∈ [' '], isSpace c = true := List.forall_mem_singleton.mpr rfl
  ⟨[' '], [' '], hblank, hblank, rfl⟩

theorem barred_spec {cells : List (List Char)} (h : cells ≠ []) :
    Barred cells (barred cells) ∧ (barred cells).head? = some ' '
      ∧ (barred cells).getLast? = some ' ' := by
  induction cells with
  | nil => exact absurd rfl h
  | cons cell cells ih =>
      cases cells with
      | nil =>
          refine ⟨.last (padded_blank cell), rfl, ?_⟩
          rw [barred, ← List.cons_append, List.getLast?_concat]
      | cons other cells =>
          obtain ⟨hbarred, _, hlast⟩ := ih (List.cons_ne_nil _ _)
          refine ⟨.cons (padded_blank cell) (by decide) hbarred, rfl, ?_⟩
          rw [barred, List.getLast?_append, List.getLast?_cons, hlast]
          · rfl
          · exact fun hnil => nomatch hnil

theorem isTableLine_tableLine {cells : List (List Char)} (h : cells ≠ []) :
    IsTableLine cells (tableLine cells) := by
  obtain ⟨hbarred, hhead, hlast⟩ := barred_spec h
  have hbar : ∀ c ∈ ['│'], isSeparator c = true := List.forall_mem_singleton.mpr rfl
  refine ⟨by simp [hasBars, tableLine], [], ['│'], barred cells, ['│'], [], ?_, nofun, nofun,
    hbar, hbar, hbarred, ⟨' ', hhead, rfl, nofun⟩, ⟨' ', hlast, rfl, nofun⟩⟩
  rw [List.append_nil]
  rfl

def tableLog (rows : List (List (List Char))) : List Char :=
  rows.flatMap fun cells => tableLine cells ++ ['\n']

theorem logLines_tableLines {columns : List (List Char)} {rows : List (List (List Char))}
    (h : ∀ row ∈ rows, row ≠ []) : LogLines lower (some columns) rows [] (rows.map tableLine) := by
  induction rows with
  | nil => exact .nil
  | cons row rows ih =>
      rw [List.forall_mem_cons] at h
      exact .row (isTableLine_tableLine h.1) (ih h.2)

/-- A log that is nothing but a table. -/
theorem drawnIn_tableLog (d : Drawing lower) (hne : ∀ row ∈ d.table.names :: d.shown, row ≠ [])
    (hlines : splitlines (tableLog (d.table.names :: d.shown))
      = (d.table.names :: d.shown).map tableLine) :
    DrawnIn (tableLog (d.table.names :: d.shown)) [d] := by
  rw [List.forall_mem_cons] at hne
  unfold DrawnIn
  rw [hlines]
  exact .header (isTableLine_tableLine hne.1) (logLines_tableLines hne.2)

/-- Only the cells that there are have to be compared. -/
theorem blanked_of_lt {keep : Nat → Prop} {above row shown : List (List Char)}
    (hlength : shown.length = row.length)
    (h : ∀ i < row.length, shown[i]? = row[i]?
      ∨ (¬ keep i ∧ shown[i]? = some [] ∧ above[i]? = row[i]?)) : Blanked keep above row shown := by
  refine ⟨hlength, fun i => ?_⟩
  by_cases hi : i < row.length
  · exact h i hi
  · have hrow := List.getElem?_eq_none (Nat.not_lt.mp hi)
    have hshown := List.getElem?_eq_none (Nat.not_lt.mp (hlength ▸ hi))
    exact Or.inl (hshown.trans hrow.symm)

def asciiLower (text : List Char) : List Char := text.map Char.toLower

def scannerNames : List (List Char) :=
  ["Library".toList, "Vulnerability".toList, "Severity".toList, "Status".toList,
    "Installed Version".toList, "Fixed Version".toList]

/-- The row of a table with the columns of `scannerNames`. -/
def tableRow (library vulnerability severity status installed fixed : String) : List (List Char) :=
  [library.toList, vulnerability.toList, severity.toList, status.toList, installed.toList,
    fixed.toList]

def msgpackRow : List (List Char) := tableRow "msgpack" "GHSA-6v7p" "HIGH" "fixed" "1.1.2" "1.2.1"

def setuptoolsRow (severity status : String) : List (List Char) :=
  tableRow "setuptools" "CVE-2025-47273" severity status "70.3.0" "78.1.1"

def pythonTable : ScannerTable asciiLower where
  names := scannerNames
  rows := [msgpackRow, setuptoolsRow "HIGH" "fixed"]
  cells := isCell_of_areCells (by decide +kernel)
  header := rfl
  width := by decide +kernel
  data := by decide +kernel
  library := by decide +kernel
  filled := by decide +kernel

/-- The lines of a scan, where the table stands between other lines, and titles go on. -/
def pythonLines (setuptools : List (List Char)) : List (List Char) :=
  ["Python (python-pkg)".toList, "===================".toList, [],
    "┌──────────┬───────────┐".toList,
    tableLine scannerNames,
    "├──────────┼───────────┤".toList,
    tableLine msgpackRow,
    tableLine (tableRow "" "(reuse after a crash)" "" "" "" ""),
    "├──────────┤           ├──────────┤           │".toList,
    tableLine setuptools,
    "└──────────┴───────────┘".toList,
    "##[error]Process completed with exit code 1.".toList]

def pythonLog (setuptools : List (List Char)) : List Char :=
  (pythonLines setuptools).flatMap fun line => line ++ ['\n']

def pythonDrawing (setuptools : List (List Char)) : Drawing asciiLower where
  table := pythonTable
  shown := [msgpackRow, setuptools]

theorem drawnIn_pythonLog {setuptools : List (List Char)} (hne : setuptools ≠ [])
    (hlines : splitlines (pythonLog setuptools) = pythonLines setuptools) :
    DrawnIn (pythonLog setuptools) [pythonDrawing setuptools] := by
  have hnames : scannerNames ≠ [] := by decide
  have hpassed : ∀ line ∈ ["├──────────┼───────────┤".toList,
      tableLine (tableRow "" "(reuse after a crash)" "" "" "" ""),
      "├──────────┤           ├──────────┤           │".toList,
      "└──────────┴───────────┘".toList],
      isPassedOver asciiLower pythonTable.columns line = true := by
    decide +kernel
  simp only [List.forall_mem_cons] at hpassed
  obtain ⟨htop, htitle, hinner, hbottom, _⟩ := hpassed
  unfold DrawnIn
  rw [hlines]
  refine .outside (by decide +kernel) (.outside (by decide +kernel)
    (.outside (by decide +kernel) (.outside (by decide +kernel)
    (.header (isTableLine_tableLine hnames) ?_))))
  refine .between htop (.row (isTableLine_tableLine (by decide)) ?_)
  refine .between htitle (.between hinner (.row (isTableLine_tableLine hne) ?_))
  exact .between hbottom (.close (by decide +kernel) .nil)

theorem merged_cells_same_python :
    findVersionBumps asciiLower (pythonLog (setuptoolsRow "HIGH" "fixed"))
        = findVersionBumps asciiLower (pythonLog (setuptoolsRow "" ""))
      ∧ (findVersionBumps asciiLower (pythonLog (setuptoolsRow "" ""))).map List.length
        = some 2 := by
  have hshown : Blanked pythonTable.isLibrary msgpackRow (setuptoolsRow "HIGH" "fixed")
      (setuptoolsRow "" "") := by
    refine blanked_of_lt rfl ?_
    unfold ScannerTable.isLibrary
    decide +kernel
  have hmerged : ∀ d ∈ [pythonDrawing (setuptoolsRow "" "")], d.IsMerged := by
    intro d hd
    rw [List.mem_singleton.mp hd]
    exact .cons ⟨rfl, fun i => Or.inl rfl⟩ (.cons hshown .nil)
  have hfull : DrawnIn (pythonLog (setuptoolsRow "HIGH" "fixed"))
      [pythonDrawing (setuptoolsRow "HIGH" "fixed")] :=
    drawnIn_pythonLog (by decide) (by decide +kernel)
  have hblank : DrawnIn (pythonLog (setuptoolsRow "" "")) [pythonDrawing (setuptoolsRow "" "")] :=
    drawnIn_pythonLog (by decide) (by decide +kernel)
  have hsame := merged_cells_same asciiLower rfl _ hmerged _ _ hfull hblank (by decide +kernel)
  refine ⟨hsame.1, ?_⟩
  rw [hsame.2]
  decide +kernel

def opensslRow (library vulnerability status fixed : String) : List (List Char) :=
  tableRow library vulnerability "HIGH" status "1.1" fixed

/-- Two findings for one package, the first without a fix. -/
def opensslTable : ScannerTable asciiLower where
  names := scannerNames
  rows := [opensslRow "openssl" "CVE-1" "affected" "", opensslRow "openssl" "CVE-2" "fixed" "1.2"]
  cells := isCell_of_areCells (by decide +kernel)
  header := rfl
  width := by decide +kernel
  data := by decide +kernel
  library := by decide +kernel
  filled := by decide +kernel

/-- The row of a package with a fix for a version. -/
def fixedRow (library installed fixed : String) : List (List Char) :=
  tableRow library "v" "HIGH" "fixed" installed fixed

/-- The row of a package without a fix, with the beginning of a message of pip. -/
def messageRow (library vulnerability fixed : String) : List (List Char) :=
  tableRow library vulnerability "HIGH" "affected" "1" fixed

/-- The rows of a table whose status stands last, with nothing around the cells. -/
def tightLog (lastStatus : String) : List Char :=
  ("│Library│Installed Version│Fixed Version│Status│\n│x│1│2│fixed│\n│y│1.0│1.1│" ++ lastStatus
    ++ "│\n").toList

/-- **Cells whose merging changes the result**: the library; a cell of a row that would be read as
a header; a cell that would be read as a message of pip; and a last cell of which nothing is left
between the bars. -/
theorem merged_cells_differ :
    (¬ ∀ (t : ScannerTable asciiLower) (shown : List (List (List Char))) (full merged : List Char),
        Merged (fun _ => False) [] t.rows shown → DrawnIn full [⟨t, t.rows⟩] →
        DrawnIn merged [⟨t, shown⟩] →
        (splitlines full).filterMap pipBump = (splitlines merged).filterMap pipBump →
        findVersionBumps asciiLower full = findVersionBumps asciiLower merged)
      ∧ findVersionBumps asciiLower (tableLog [scannerNames,
            fixedRow "x" "installed version" "fixed version",
            fixedRow "library" "installed version" "fixed version", fixedRow "y" "1.0" "1.1"])
          ≠ findVersionBumps asciiLower (tableLog [scannerNames,
            fixedRow "x" "installed version" "fixed version",
            fixedRow "library" "" "fixed version", fixedRow "y" "1.0" "1.1"])
      ∧ findVersionBumps asciiLower (tableLog [scannerNames,
            messageRow "x"
              "could not find a version that satisfies the requirement a==1" "",
            messageRow "y"
              "could not find a version that satisfies the requirement a==1" "(from versions: 3)"])
          ≠ findVersionBumps asciiLower (tableLog [scannerNames,
            messageRow "x"
              "could not find a version that satisfies the requirement a==1" "",
            messageRow "y" "" "(from versions: 3)"])
      ∧ findVersionBumps asciiLower (tightLog "fixed")
          ≠ findVersionBumps asciiLower (tightLog "") := by
  refine ⟨fun hall => ?_, by decide +kernel, by decide +kernel, by decide +kernel⟩
  have hshown : Blanked (fun _ => False) (opensslRow "openssl" "CVE-1" "affected" "")
      (opensslRow "openssl" "CVE-2" "fixed" "1.2") (opensslRow "" "CVE-2" "fixed" "1.2") := by
    exact blanked_of_lt rfl (by decide +kernel)
  have hmerged : Merged (fun _ => False) [] opensslTable.rows
      [opensslRow "openssl" "CVE-1" "affected" "", opensslRow "" "CVE-2" "fixed" "1.2"] :=
    .cons ⟨rfl, fun i => Or.inl rfl⟩ (.cons hshown .nil)
  have hfull : DrawnIn (tableLog (scannerNames :: opensslTable.rows))
      [⟨opensslTable, opensslTable.rows⟩] :=
    drawnIn_tableLog ⟨opensslTable, opensslTable.rows⟩ (by decide) (by decide +kernel)
  have hblank : DrawnIn
      (tableLog [scannerNames, opensslRow "openssl" "CVE-1" "affected" "",
        opensslRow "" "CVE-2" "fixed" "1.2"])
      [⟨opensslTable, [opensslRow "openssl" "CVE-1" "affected" "",
        opensslRow "" "CVE-2" "fixed" "1.2"]⟩] :=
    drawnIn_tableLog ⟨opensslTable, [opensslRow "openssl" "CVE-1" "affected" "",
      opensslRow "" "CVE-2" "fixed" "1.2"]⟩ (by decide) (by decide +kernel)
  have hdiffer : findVersionBumps asciiLower (tableLog (scannerNames :: opensslTable.rows))
      ≠ findVersionBumps asciiLower (tableLog [scannerNames,
        opensslRow "openssl" "CVE-1" "affected" "", opensslRow "" "CVE-2" "fixed" "1.2"]) := by
    decide +kernel
  exact hdiffer (hall opensslTable _ _ _ hmerged hfull hblank (by decide +kernel))

end PipeLens.Proof
