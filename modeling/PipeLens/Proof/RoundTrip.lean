import PipeLens.Difflib
import PipeLens.Lib.Lines
import PipeLens.Proof.MergedDiff

/-!
# A rendered diff applies to its file

What `render_unified_diff` makes of two files turns the first into the second, whatever
edit script `difflib` has found. Three steps: the lines of the diff are read back as they
were written, each hunk has the old lines that the file has at the place that its header
states, and so no hunk has to be looked for.

The last step is an induction over the script. A hunk without old lines would be stated
one line too early; with context around every change there is none, except for an empty
file.
-/

namespace PipeLens.Proof

open Text Regex

variable {unicode : Unicode}

/-- The digits of ASCII are what `\d` matches in ASCII, with their values. -/
def AsciiDigits (unicode : Unicode) : Prop :=
  ∀ c : Char, c.toNat < 128 →
    unicode.decimal c = if c.isDigit then some (c.toNat - '0'.toNat) else none

/-- `sys.maxsize`; no string is longer. -/
def maxsize : Nat := 9223372036854775807

/-! ## Headers -/

theorem toNat_of_isDigit {c : Char} (h : c.isDigit = true) : 48 ≤ c.toNat ∧ c.toNat ≤ 57 := by
  simp only [Char.isDigit, Bool.and_eq_true, decide_eq_true_eq] at h
  exact ⟨UInt32.le_iff_toNat_le.mp h.1, UInt32.le_iff_toNat_le.mp h.2⟩

theorem AsciiDigits.decimal {c : Char} (h : AsciiDigits unicode) (hc : c.isDigit = true) :
    unicode.decimal c = some (c.toNat - '0'.toNat) := by
  have hrange := toNat_of_isDigit hc
  rw [h c (by omega), if_pos hc]

/-- A number as it is written. -/
def IsDigits (digits : List Char) : Prop := digits ≠ [] ∧ ∀ c ∈ digits, c.isDigit = true

/-- A count as it is written; one may be left out. -/
def IsCount (count : List Char) : Prop :=
  count = [] ∨ ∃ digits, IsDigits digits ∧ count = ",".toList ++ digits

theorem isDigits_toDigits (n : Nat) : IsDigits (Nat.toDigits 10 n) :=
  ⟨Nat.toDigits_ne_nil, fun _ hc => Nat.isDigit_of_mem_toDigits (by decide) (by decide) hc⟩

theorem AsciiDigits.pyInt_eq (h : AsciiDigits unicode) {digits : List Char}
    (hdigits : ∀ c ∈ digits, c.isDigit = true) (hlength : digits.length ≤ 4300) :
    pyInt unicode digits = .ok (Nat.ofDigitChars 10 digits 0) := by
  have hvalue : ∀ (digits : List Char) (start : Nat), (∀ c ∈ digits, c.isDigit = true) →
      digits.foldl (fun n c => 10 * n + (unicode.decimal c).getD 0) start
        = Nat.ofDigitChars 10 digits start := by
    intro digits
    induction digits with
    | nil => intro start _; rfl
    | cons c digits ih =>
        intro start hdigits
        rw [List.foldl_cons, h.decimal (hdigits c List.mem_cons_self), Nat.ofDigitChars_cons,
          ih _ fun d hd => hdigits d (List.mem_cons_of_mem c hd)]
        rfl
  unfold pyInt
  rw [if_neg (by omega), hvalue _ _ hdigits]

/-- A number is read back. -/
theorem AsciiDigits.pyInt_toDigits (h : AsciiDigits unicode) {n : Nat} (hn : n ≤ maxsize) :
    pyInt unicode (Nat.toDigits 10 n) = .ok n := by
  have hlength : (Nat.toDigits 10 n).length ≤ 20 := by
    refine (Nat.length_toDigits_le_iff (by decide) (by decide)).mpr ?_
    exact Nat.lt_of_le_of_lt hn (by decide)
  rw [h.pyInt_eq (isDigits_toDigits n).2 (by omega), Nat.ofDigitChars_ten_toDigits]

/-- A range in a header: a number, and a count unless it is 1. -/
theorem formatRangeUnified_cases (start length : Nat) :
    ∃ count, formatRangeUnified start length
        = Nat.toDigits 10 (if length = 0 then start else start + 1) ++ count
      ∧ (count = [] ∨ ∃ n, count = ",".toList ++ Nat.toDigits 10 n) := by
  have hdigits : ∀ n : Nat, (toString n).toList = Nat.toDigits 10 n := fun n => Nat.toList_repr
  unfold formatRangeUnified
  split
  · rename_i hone
    refine ⟨[], ?_, Or.inl rfl⟩
    rw [hone, hdigits, if_neg (by decide), List.append_nil]
  · refine ⟨",".toList ++ Nat.toDigits 10 length, ?_, Or.inr ⟨length, rfl⟩⟩
    rw [hdigits, hdigits]
    rfl

section Header

variable (hdigits : AsciiDigits unicode)
include hdigits

theorem digit_isDigits {digits : List Char} (h : IsDigits digits) :
    ∀ c ∈ digits, (unicode.decimal c).isSome = true := by
  intro c hc
  rw [hdigits.decimal (h.2 c hc)]
  rfl

theorem digit_stops {c : Char} (hc : c = ',' ∨ c = ' ') (rest : List Char) :
    ∀ d ∈ (c :: rest).head?, (unicode.decimal d).isSome = false := by
  intro d hd
  obtain rfl : c = d := Option.some.inj hd
  rcases hc with rfl | rfl
  · rw [hdigits ',' (by decide)]
    rfl
  · rw [hdigits ' ' (by decide)]
    rfl

/-- What can stand between a number and the blank behind its range. -/
theorem digit_stops_count {count : List Char} (hcount : IsCount count) (rest : List Char) :
    ∀ d ∈ (count ++ ' ' :: rest).head?, (unicode.decimal d).isSome = false := by
  rcases hcount with rfl | ⟨digits, _, rfl⟩
  · exact digit_stops hdigits (Or.inr rfl) rest
  · exact digit_stops hdigits (Or.inl rfl) _

theorem takes_count {count : List Char} (hcount : IsCount count) (rest : List Char) :
    Takes (opt (all [Regex.verbatim ",", plus (digit unicode)])) count (' ' :: rest) [] := by
  rcases hcount with rfl | ⟨digits, h, rfl⟩
  · exact Takes.opt_none fun before groups => by simp [Regex.all, Regex.verbatim, Regex.run]
  · have hnumber : Takes (plus (digit unicode)) digits (' ' :: rest) [] :=
      Takes.plus_char h.1 (digit_isDigits hdigits h) (digit_stops hdigits (Or.inr rfl) rest)
    have hall := (Takes.verbatim "," _).seq (hnumber.seq (Takes.empty (' ' :: rest)) rfl) rfl
    rw [List.append_nil] at hall
    exact hall.opt

/-- A header is matched, with its first number as the group. -/
theorem matchHunkHeader_eq {number count number' count' : List Char} (hnumber : IsDigits number)
    (hcount : IsCount count) (hnumber' : IsDigits number') (hcount' : IsCount count')
    (heading : List Char) :
    matchHunkHeader unicode ("@@ -".toList ++ (number ++ (count ++ (" +".toList
      ++ (number' ++ (count' ++ (" @@".toList ++ heading))))))) = some number := by
  have htakes : ∀ {number count : List Char} (rest : List Char), IsDigits number → IsCount count →
      Takes (plus (digit unicode)) number (count ++ ' ' :: rest) [] :=
    fun rest hnumber hcount => Takes.plus_char hnumber.1 (digit_isDigits hdigits hnumber)
      (digit_stops_count hdigits hcount rest)
  -- from the end of the header to its start
  have hclose := (Takes.verbatim " @@" heading).seq (Takes.empty heading) rfl
  have hnew := (htakes ("@@".toList ++ heading) hnumber' hcount').seq
    ((takes_count hdigits hcount' ("@@".toList ++ heading)).seq hclose (by simp)) (by simp)
  have hplus := (Takes.verbatim " +" _).seq hnew rfl
  let rest := '+' :: (number' ++ (count' ++ (" @@".toList ++ heading)))
  have hold := ((htakes rest hnumber hcount).group 1).seq
    ((takes_count hdigits hcount rest).seq hplus (by simp [rest])) (by simp [rest])
  have hall := matchStart_of_takes ((Takes.verbatim "@@ -" _).seq hold rfl)
  simp only [List.append_assoc, List.append_nil] at hall
  exact congrArg (Option.map fun pos : Regex.Pos => (pos.groups.lookup 1).getD []) hall

/-- The header of a group. -/
theorem matchHunkHeader_render (start length start' length' : Nat) :
    matchHunkHeader unicode ("@@ -".toList ++ formatRangeUnified start length ++ " +".toList
      ++ formatRangeUnified start' length' ++ " @@".toList)
      = some (Nat.toDigits 10 (if length = 0 then start else start + 1)) := by
  have hisCount : ∀ {count : List Char},
      (count = [] ∨ ∃ n, count = ",".toList ++ Nat.toDigits 10 n) → IsCount count :=
    fun hcount => hcount.imp_right fun ⟨n, hn⟩ => ⟨_, isDigits_toDigits n, hn⟩
  obtain ⟨count, hrange, hcount⟩ := formatRangeUnified_cases start length
  obtain ⟨count', hrange', hcount'⟩ := formatRangeUnified_cases start' length'
  rw [hrange, hrange']
  simp only [List.append_assoc]
  exact matchHunkHeader_eq hdigits (isDigits_toDigits _) (hisCount hcount) (isDigits_toDigits _)
    (hisCount hcount') []

end Header

/-! ## Reading the lines back -/

/-- What a group is read as. -/
def hunkOf (group : OpcodeGroup) : Hunk where
  oldStart := if oldCount group.lines = 0 then group.oldStart else group.oldStart + 1
  lines := group.lines

theorem symbol_spec (marker : Marker) :
    isBreak marker.symbol = false ∧ isNewline marker.symbol = false ∧ marker.symbol ≠ '@' := by
  cases marker <;> decide

theorem matchHunkHeader_eq_none {c : Char} (h : c ≠ '@') (rest : List Char) :
    matchHunkHeader unicode (c :: rest) = none := by
  cases hmatch : matchHunkHeader unicode (c :: rest) with
  | none => rfl
  | some digits =>
      obtain ⟨rest', heq⟩ := head_of_matchHunkHeader (Option.isSome_of_mem hmatch)
      exact absurd (List.cons.inj heq).1 h

theorem parseLine_symbol (current : Hunk) (earlier : List Hunk) (marker : Marker)
    (raw : List Char) :
    parseLine unicode (current :: earlier) (marker.symbol :: raw)
      = .ok (current.snoc marker raw :: earlier) := by
  obtain ⟨_, hnewline, hat⟩ := symbol_spec marker
  unfold parseLine
  dsimp only
  rw [stripNewline_cons hnewline, matchHunkHeader_eq_none hat]
  cases marker <;> rfl

theorem foldlM_parseLine_symbols (current : Hunk) (earlier : List Hunk)
    (lines : List (Marker × List Char)) :
    (lines.map fun line => line.1.symbol :: line.2).foldlM (parseLine unicode) (current :: earlier)
      = .ok ({ current with lines := current.lines ++ lines } :: earlier) := by
  induction lines generalizing current with
  | nil => simp [pure, Except.pure]
  | cons line lines ih =>
      rw [List.map_cons, List.foldlM_cons, parseLine_symbol]
      show (lines.map _).foldlM (parseLine unicode) (current.snoc line.1 line.2 :: earlier) = _
      rw [ih]
      simp [Hunk.snoc]

theorem parseLine_render (hdigits : AsciiDigits unicode) (hunks : List Hunk)
    {start length : Nat} (start' length' : Nat)
    (hsize : (if length = 0 then start else start + 1) ≤ maxsize) :
    parseLine unicode hunks ("@@ -".toList ++ formatRangeUnified start length ++ " +".toList
      ++ formatRangeUnified start' length' ++ " @@\n".toList)
      = .ok (⟨if length = 0 then start else start + 1, []⟩ :: hunks) := by
  have hstrip : stripNewline ("@@ -".toList ++ formatRangeUnified start length ++ " +".toList
      ++ formatRangeUnified start' length' ++ " @@\n".toList)
      = "@@ -".toList ++ formatRangeUnified start length ++ " +".toList
        ++ formatRangeUnified start' length' ++ " @@".toList := by
    have hend : ∀ text : List Char, stripNewline (text ++ " @@\n".toList) = text ++ " @@".toList := by
      intro text
      have hclose : text ++ " @@\n".toList = text ++ [' ', '@'] ++ ['@'] ++ ['\n'] := by simp
      have hopen : text ++ " @@".toList = text ++ [' ', '@'] ++ ['@'] := by simp
      rw [hclose, hopen]
      unfold stripNewline
      rw [List.rdropWhile_concat_pos _ _ _ (by decide)]
      exact List.rdropWhile_concat_neg _ (text ++ [' ', '@']) '@'
        (show ¬ isNewline '@' = true by decide)
    exact hend _
  unfold parseLine
  dsimp only
  rw [hstrip, matchHunkHeader_render hdigits]
  dsimp only
  rw [hdigits.pyInt_toDigits hsize]
  rfl

/-- **The hunks are read back.** -/
theorem foldlM_parseLine_render (hdigits : AsciiDigits unicode) {groups : List OpcodeGroup}
    (hsize : ∀ group ∈ groups, (hunkOf group).oldStart ≤ maxsize) (hunks : List Hunk) :
    (groups.flatMap OpcodeGroup.render).foldlM (parseLine unicode) hunks
      = .ok ((groups.map hunkOf).reverse ++ hunks) := by
  induction groups generalizing hunks with
  | nil => rfl
  | cons group groups ih =>
      rw [List.flatMap_cons, List.foldlM_append, OpcodeGroup.render, List.foldlM_cons,
        parseLine_render hdigits hunks _ _ (hsize group List.mem_cons_self)]
      show ((group.lines.map fun line => line.1.symbol :: line.2).foldlM (parseLine unicode)
        (_ :: hunks) >>= _) = _
      rw [foldlM_parseLine_symbols]
      show (groups.flatMap OpcodeGroup.render).foldlM (parseLine unicode) (_ :: hunks) = _
      rw [ih fun g hg => hsize g (List.mem_cons_of_mem group hg)]
      simp [hunkOf]

theorem parseLine_fileHeader {raw : List Char} (hraw : IsLine raw)
    (h : isFileHeader raw = true) : parseLine unicode [] raw = .ok [] := by
  have hnone : matchHunkHeader unicode (stripNewline raw) = none := by
    cases hmatch : matchHunkHeader unicode (stripNewline raw) with
    | none => rfl
    | some digits =>
        have hsigned := not_isSigned_of_isHunkHeader hraw (Option.isSome_of_mem hmatch)
        rw [isSigned_of_isFileHeader h] at hsigned
        exact nomatch hsigned
  unfold parseLine
  dsimp only
  rw [hnone]
  dsimp only
  rw [isFileHeader_stripNewline hraw, h]
  rfl

/-! ## The lines of a diff -/

/-- A line of a diff: it has a break, and does not start with one. -/
def IsDiffLine (raw : List Char) : Prop :=
  IsLine raw ∧ content raw ≠ raw ∧ raw.head? ≠ some '\n'

theorem isDiffLine_newline {c : Char} {line : List Char}
    (h : ∀ d ∈ c :: line, isBreak d = false) : IsDiffLine (c :: line ++ ['\n']) := by
  refine ⟨⟨c :: line, ['\n'], rfl, h, .break (by decide)⟩, content_ne_of_break h (by decide), ?_⟩
  intro hhead
  have hc := h c List.mem_cons_self
  obtain rfl : c = '\n' := Option.some.inj hhead
  exact absurd hc (by decide)

theorem symbol_line {raw : List Char} (marker : Marker) (hraw : IsLine raw) :
    IsLine (marker.symbol :: raw) ∧ (marker.symbol :: raw).head? ≠ some '\n' := by
  obtain ⟨hsymbol, hnewline, _⟩ := symbol_spec marker
  refine ⟨hraw.cons hsymbol, fun hhead => ?_⟩
  rw [Option.some.inj hhead] at hnewline
  exact absurd hnewline (by decide)

theorem isDiffLine_symbol {raw : List Char} (marker : Marker) (hraw : IsLine raw)
    (hbreak : content raw ≠ raw) : IsDiffLine (marker.symbol :: raw) := by
  obtain ⟨hsymbol, _, _⟩ := symbol_spec marker
  obtain ⟨hline, hhead⟩ := symbol_line marker hraw
  refine ⟨hline, ?_, hhead⟩
  rw [content_cons hsymbol]
  exact fun heq => hbreak (List.cons.inj heq).2

theorem noBreak_of_any {text : List Char} (h : text.any isBreak = false) :
    ∀ c ∈ text, isBreak c = false := by
  intro c hc
  rw [List.any_eq_false] at h
  exact Bool.eq_false_iff.mpr (h c hc)

theorem formatRangeUnified_noBreak (start length : Nat) :
    ∀ c ∈ formatRangeUnified start length, isBreak c = false := by
  have hdigits : ∀ n, ∀ c ∈ Nat.toDigits 10 n, isBreak c = false := by
    intro n c hc
    have hrange := toNat_of_isDigit (Nat.isDigit_of_mem_toDigits (by decide) (by decide) hc)
    simp only [isBreak, Bool.or_eq_false_iff, Bool.and_eq_false_iff, decide_eq_false_iff_not,
      beq_eq_false_iff_ne]
    omega
  obtain ⟨count, hformat, hcount⟩ := formatRangeUnified_cases start length
  intro c hc
  rw [hformat] at hc
  rcases List.mem_append.mp hc with hc | hc
  · exact hdigits _ c hc
  · rcases hcount with rfl | ⟨n, rfl⟩
    · cases hc
    · rcases List.mem_append.mp hc with hc | hc
      · rw [List.mem_singleton.mp hc]
        decide
      · exact hdigits n c hc

theorem isDiffLine_header (group : OpcodeGroup) :
    IsDiffLine ("@@ -".toList ++ formatRangeUnified group.oldStart (oldCount group.lines)
      ++ " +".toList ++ formatRangeUnified group.newStart (newCount group.lines)
      ++ " @@\n".toList) := by
  have hrest : ∀ d ∈ '@' :: ("@ -".toList
      ++ formatRangeUnified group.oldStart (oldCount group.lines) ++ " +".toList
      ++ formatRangeUnified group.newStart (newCount group.lines) ++ " @@".toList),
      isBreak d = false := by
    refine List.forall_mem_cons.mpr ⟨by decide, ?_⟩
    simp only [List.forall_mem_append]
    exact ⟨⟨⟨⟨noBreak_of_any (by decide), formatRangeUnified_noBreak _ _⟩,
      noBreak_of_any (by decide)⟩, formatRangeUnified_noBreak _ _⟩, noBreak_of_any (by decide)⟩
  have hline := isDiffLine_newline hrest
  simpa using hline

/-- The lines of a hunk are lines of a diff if those of the files have breaks. -/
theorem isDiffLine_render {group : OpcodeGroup}
    (h : ∀ line ∈ group.lines, IsLine line.2 ∧ content line.2 ≠ line.2) :
    ∀ raw ∈ group.render, IsDiffLine raw := by
  intro raw hraw
  rcases List.mem_cons.mp hraw with rfl | hraw
  · exact isDiffLine_header group
  · obtain ⟨line, hline, rfl⟩ := List.mem_map.mp hraw
    exact isDiffLine_symbol line.1 (h line hline).1 (h line hline).2

/-- They are lines in any case. -/
theorem isLine_render {group : OpcodeGroup} (h : ∀ line ∈ group.lines, IsLine line.2) :
    ∀ raw ∈ group.render, IsLine raw ∧ raw ≠ [] ∧ raw.head? ≠ some '\n' := by
  intro raw hraw
  rcases List.mem_cons.mp hraw with rfl | hraw
  · obtain ⟨hline, _, hhead⟩ := isDiffLine_header group
    exact ⟨hline, by simp, hhead⟩
  · obtain ⟨line, hline, rfl⟩ := List.mem_map.mp hraw
    obtain ⟨hmarked, hhead⟩ := symbol_line line.1 (h line hline)
    exact ⟨hmarked, List.cons_ne_nil _ _, hhead⟩

/-! ## The hunks of a script -/

theorem oldCount_eq (script : List (Marker × List Char)) :
    oldCount script = (oldView script).length := by
  simp [oldCount, oldView]

theorem oldCount_append (xs ys : List (Marker × List Char)) :
    oldCount (xs ++ ys) = oldCount xs + oldCount ys := by
  simp [oldCount]

theorem oldCount_reverse (xs : List (Marker × List Char)) :
    oldCount xs.reverse = oldCount xs := by
  simp [oldCount, List.filter_reverse]

/-- A line that is not shown is not changed, and neither is the next. -/
theorem context_of_not_shown {n : Nat} {before after : List (Marker × List Char)}
    {line : Marker × List Char} (hn : 1 ≤ n) (h : isShown n before (line :: after) = false) :
    line.1 = .context ∧ ∀ next ∈ after.head?, next.1 = .context := by
  obtain ⟨m, rfl⟩ := Nat.exists_eq_add_of_le' hn
  unfold isShown at h
  rw [Bool.or_eq_false_iff, List.take_succ_cons, List.any_cons, Bool.or_eq_false_iff] at h
  refine ⟨by simpa using h.2.1, fun next hnext => ?_⟩
  cases after with
  | nil => exact nomatch hnext
  | cons next' after =>
      obtain rfl : next' = next := Option.some.inj hnext
      have hrest := h.2.2
      rw [List.take_succ_cons, List.any_cons, Bool.or_eq_false_iff] at hrest
      simpa using hrest.1

theorem groupedOpcodes_not_shown {n : Nat} {before after : List (Marker × List Char)}
    {line : Marker × List Char} (h : isShown n before (line :: after) = false) :
    groupedOpcodes n before (line :: after) = groupedOpcodes n (line :: before) after := by
  rw [groupedOpcodes, h]
  rfl

/-- From a line that is shown on, there is a hunk, up to the next line that is not. -/
theorem groupedOpcodes_shown {n : Nat} {before after : List (Marker × List Char)}
    {line : Marker × List Char} (h : isShown n before (line :: after) = true) :
    ∃ body rest, line :: after = line :: body ++ rest
      ∧ groupedOpcodes n before (line :: after)
        = ⟨oldCount before, newCount before, line :: body⟩
          :: groupedOpcodes n ((line :: body).reverse ++ before) rest
      ∧ (rest ≠ [] → isShown n ((line :: body).reverse ++ before) rest = false) := by
  induction after generalizing before line with
  | nil =>
      exact ⟨[], [], rfl, by simp [groupedOpcodes, h], nofun⟩
  | cons next after ih =>
      by_cases hnext : isShown n (line :: before) (next :: after) = true
      · obtain ⟨body, rest, hsplit, hgroups, hrest⟩ := ih hnext
        refine ⟨next :: body, rest, by rw [hsplit]; rfl, ?_, ?_⟩
        · rw [groupedOpcodes, h, hnext, hgroups]
          simp
        · simpa using hrest
      · have hnext' : isShown n (line :: before) (next :: after) = false := by simpa using hnext
        refine ⟨[], next :: after, rfl, ?_, fun _ => hnext'⟩
        rw [groupedOpcodes, h, hnext']
        rfl

/-- Induction along a script: over the lines that are not shown one by one, and hunk by hunk. -/
theorem groupedOpcodes_induction {n : Nat}
    {motive : List (Marker × List Char) → List (Marker × List Char) → List OpcodeGroup → Prop}
    (nil : ∀ before, motive before [] [])
    (skip : ∀ before line after, isShown n before (line :: after) = false →
      motive (line :: before) after (groupedOpcodes n (line :: before) after) →
      motive before (line :: after) (groupedOpcodes n (line :: before) after))
    (hunk : ∀ before line body rest,
      (rest ≠ [] → isShown n ((line :: body).reverse ++ before) rest = false) →
      motive ((line :: body).reverse ++ before) rest
        (groupedOpcodes n ((line :: body).reverse ++ before) rest) →
      motive before (line :: body ++ rest) (⟨oldCount before, newCount before, line :: body⟩
        :: groupedOpcodes n ((line :: body).reverse ++ before) rest))
    (before after : List (Marker × List Char)) :
    motive before after (groupedOpcodes n before after) := by
  induction hlength : after.length using Nat.strong_induction_on generalizing before after with
  | _ length ih =>
      cases after with
      | nil => exact nil before
      | cons line after =>
          cases hshown : isShown n before (line :: after) with
          | false =>
              rw [groupedOpcodes_not_shown hshown]
              exact skip before line after hshown
                (ih after.length (by simp [← hlength]) (line :: before) after rfl)
          | true =>
              obtain ⟨body, rest, hsplit, hgroups, hrest⟩ := groupedOpcodes_shown hshown
              have hshorter : rest.length < length := by
                rw [← hlength, hsplit, List.length_append, List.length_cons]
                omega
              rw [hgroups, hsplit]
              exact hunk before line body rest hrest
                (ih rest.length hshorter ((line :: body).reverse ++ before) rest rfl)

/-- A hunk without old lines is only stated rightly at the start of the file. -/
theorem hunkOf_oldStart {before body : List (Marker × List Char)} {line : Marker × List Char}
    (hfirst : line.1 ≠ .context → before = []) :
    (hunkOf ⟨oldCount before, newCount before, line :: body⟩).oldStart - 1 = oldCount before := by
  unfold hunkOf
  dsimp only
  split
  · rename_i hnone
    have hadded : line.1 ≠ .context := by
      intro hline
      obtain ⟨marker, text⟩ := line
      obtain rfl : marker = .context := hline
      rw [oldCount_eq, oldView_cons (by decide)] at hnone
      exact nomatch hnone
    rw [hfirst hadded]
    rfl
  · exact Nat.add_sub_cancel _ 1

/-- **The hunks of a script apply**, from any line that is not yet beyond them. -/
theorem applyHunks_groupedOpcodes {n : Nat} (hn : 1 ≤ n) {before after : List (Marker × List Char)}
    {cursor : Nat} (hcursor : cursor ≤ oldCount before)
    (hfirst : ∀ line ∈ after.head?, line.1 ≠ .context → before = []) :
    applyHunks (oldView (before.reverse ++ after)) cursor
        ((groupedOpcodes n before after).map hunkOf)
      = .ok ((oldView before.reverse).drop cursor ++ newView after) := by
  have hbefore : ∀ before : List (Marker × List Char),
      (oldView before.reverse).length = oldCount before := by
    intro before
    rw [← oldCount_eq, oldCount_reverse]
  refine groupedOpcodes_induction (n := n) (motive := fun before after groups =>
    ∀ cursor ≤ oldCount before, (∀ line ∈ after.head?, line.1 ≠ .context → before = []) →
      applyHunks (oldView (before.reverse ++ after)) cursor (groups.map hunkOf)
        = .ok ((oldView before.reverse).drop cursor ++ newView after)) ?_ ?_ ?_
    before after cursor hcursor hfirst
  · intro before cursor _ _
    show Except.ok _ = _
    simp [newView]
  · intro before line after hshown ih cursor hcursor _
    obtain ⟨hline, hnext⟩ := context_of_not_shown hn hshown
    obtain ⟨marker, text⟩ := line
    obtain rfl : marker = .context := hline
    have hlater : cursor ≤ oldCount ((.context, text) :: before) := by
      have hcons := oldCount_append [(Marker.context, text)] before
      rw [List.singleton_append] at hcons
      omega
    have hwhole : (((Marker.context, text) :: before).reverse ++ after)
        = before.reverse ++ (.context, text) :: after := by simp
    have hdrop : (oldView ((Marker.context, text) :: before).reverse).drop cursor
        = (oldView before.reverse).drop cursor ++ [text] := by
      rw [List.reverse_cons, oldView_append]
      exact List.drop_append_of_le_length (by rw [hbefore]; exact hcursor)
    rw [← hwhole, ih cursor hlater fun next hmem hchange => absurd (hnext next hmem) hchange,
      hdrop, newView_cons (by decide), List.append_assoc, List.singleton_append]
  · intro before line body rest hrest ih cursor hcursor hfirst
    have hnext : ∀ next ∈ rest.head?, next.1 ≠ .context →
        (line :: body).reverse ++ before = [] := by
      intro next hmem hchange
      cases rest with
      | nil => cases hmem
      | cons next' rest =>
          obtain rfl : next' = next := Option.some.inj hmem
          exact absurd (context_of_not_shown hn (hrest (List.cons_ne_nil _ _))).1 hchange
    have hstep := ih _ (Nat.le_refl _) hnext
    have hwhole : ((line :: body).reverse ++ before).reverse ++ rest
        = before.reverse ++ (line :: body ++ rest) := by simp
    have hcount : oldCount ((line :: body).reverse ++ before)
        = (oldView before.reverse).length + (oldView (line :: body)).length := by
      rw [oldCount_append, oldCount_reverse, oldCount_eq (line :: body), hbefore, Nat.add_comm]
    rw [← hbefore, List.drop_length, List.nil_append, hbefore, hwhole, hcount, oldView_append,
      oldView_append] at hstep
    rw [List.map_cons, oldView_append, oldView_append, newView_append,
      ← List.append_assoc ((oldView before.reverse).drop cursor)]
    exact applyHunks_stated rfl ((hunkOf_oldStart (hfirst line rfl)).trans (hbefore before).symm)
      (by rw [hbefore]; exact hcursor) hstep

/-! ## The round trip -/

/-- The groups of a script start in the file, and are made of its lines. -/
theorem mem_groupedOpcodes {n : Nat} {before after : List (Marker × List Char)}
    {group : OpcodeGroup} (h : group ∈ groupedOpcodes n before after) :
    (hunkOf group).oldStart ≤ oldCount before + oldCount after
      ∧ ∀ line ∈ group.lines, line ∈ after := by
  refine groupedOpcodes_induction (n := n) (motive := fun before after groups =>
    group ∈ groups → (hunkOf group).oldStart ≤ oldCount before + oldCount after
      ∧ ∀ line ∈ group.lines, line ∈ after) ?_ ?_ ?_ before after h
  · intro before h
    exact nomatch h
  · intro before line after _ ih h
    obtain ⟨hstart, hlines⟩ := ih h
    have hcons := oldCount_append [line]
    refine ⟨?_, fun line' h' => List.mem_cons_of_mem line (hlines line' h')⟩
    rw [← List.singleton_append, hcons] at hstart ⊢
    omega
  · intro before line body rest _ ih h
    rw [oldCount_append]
    rcases List.mem_cons.mp h with rfl | h
    · refine ⟨?_, fun line' h' => List.mem_append_left rest h'⟩
      unfold hunkOf
      dsimp only
      split
      · omega
      · omega
    · obtain ⟨hstart, hlines⟩ := ih h
      refine ⟨?_, fun line' h' => List.mem_append_right _ (hlines line' h')⟩
      rw [oldCount_append, oldCount_reverse] at hstart
      omega

/-- A line of a script is a line of one of the two files. -/
theorem mem_view {script : List (Marker × List Char)} {line : Marker × List Char}
    (h : line ∈ script) : line.2 ∈ oldView script ∨ line.2 ∈ newView script := by
  by_cases hadded : line.1 = .added
  · refine Or.inr (List.mem_map.mpr ⟨line, List.mem_filter.mpr ⟨h, ?_⟩, rfl⟩)
    rw [hadded]
    decide
  · exact Or.inl (List.mem_map.mpr ⟨line, List.mem_filter.mpr ⟨h, by simpa using hadded⟩, rfl⟩)

theorem isDiffLine_name (start name : String) (hstart : start.toList.any isBreak = false)
    (hne : start.toList ≠ []) (hname : name.toList.any isBreak = false) :
    IsDiffLine (start ++ name ++ "\n").toList := by
  obtain ⟨c, rest, hcons⟩ := List.exists_cons_of_ne_nil hne
  have hall : ∀ d ∈ c :: (rest ++ name.toList), isBreak d = false := by
    rw [← List.cons_append, ← hcons]
    exact List.forall_mem_append.mpr ⟨noBreak_of_any hstart, noBreak_of_any hname⟩
  have hline := isDiffLine_newline hall
  rw [String.toList_append, String.toList_append, hcons]
  exact hline

/-- No line of a script but the last is without a break. -/
def Unglued (script : List (Marker × List Char)) : Prop :=
  ∀ line ∈ script.dropLast, content line.2 ≠ line.2

/-- Then this is so for the lines of the hunks. -/
theorem breaks_groupedOpcodes {n : Nat} {before after : List (Marker × List Char)}
    (hlines : ∀ line ∈ after, IsLine line.2) (hunglued : Unglued after) :
    ∀ raw ∈ ((groupedOpcodes n before after).flatMap OpcodeGroup.render).dropLast,
      content raw ≠ raw := by
  refine groupedOpcodes_induction (n := n) (motive := fun _ after groups =>
    (∀ line ∈ after, IsLine line.2) → Unglued after →
      ∀ raw ∈ (groups.flatMap OpcodeGroup.render).dropLast, content raw ≠ raw) ?_ ?_ ?_
    before after hlines hunglued
  · intro before _ _ raw hraw
    cases hraw
  · intro before line after _ ih hlines hunglued
    refine ih (fun l hl => hlines l (List.mem_cons_of_mem line hl)) fun l hl => ?_
    refine hunglued l ?_
    cases after with
    | nil => cases hl
    | cons next after => exact List.mem_cons_of_mem line hl
  · intro before line body rest _ ih hlines hunglued raw hraw
    have hrestLines : ∀ l ∈ rest, IsLine l.2 := fun l hl =>
      hlines l (List.mem_append_right _ hl)
    have hhunkLines : ∀ l ∈ line :: body, IsLine l.2 := fun l hl =>
      hlines l (List.mem_append_left _ hl)
    have hmarked : ∀ l ∈ line :: body, content l.2 ≠ l.2 →
        content (l.1.symbol :: l.2) ≠ l.1.symbol :: l.2 := fun l hl hbreak =>
      (isDiffLine_symbol l.1 (hhunkLines l hl) hbreak).2.1
    rw [List.flatMap_cons] at hraw
    by_cases hnone : rest = []
    · -- the last hunk, with the last line
      subst hnone
      rw [List.append_nil] at hunglued
      have hempty : groupedOpcodes n ((line :: body).reverse ++ before) [] = [] := rfl
      rw [hempty, List.flatMap_nil, List.append_nil, OpcodeGroup.render,
        List.dropLast_cons_of_ne_nil (by simp), ← List.map_dropLast] at hraw
      rcases List.mem_cons.mp hraw with rfl | hraw
      · exact (isDiffLine_header _).2.1
      · obtain ⟨l, hl, rfl⟩ := List.mem_map.mp hraw
        exact hmarked l (List.dropLast_subset _ hl) (hunglued l hl)
    · -- all lines of this hunk have a break
      rw [Unglued, List.dropLast_append_of_ne_nil hnone] at hunglued
      have hhunk : ∀ raw ∈ OpcodeGroup.render ⟨oldCount before, newCount before, line :: body⟩,
          content raw ≠ raw := fun raw hraw => (isDiffLine_render (fun l hl =>
        ⟨hhunkLines l hl, hunglued l (List.mem_append_left _ hl)⟩) raw hraw).2.1
      have hlater := ih hrestLines fun l hl => hunglued l (List.mem_append_right _ hl)
      by_cases hend : (groupedOpcodes n ((line :: body).reverse ++ before) rest).flatMap
          OpcodeGroup.render = []
      · rw [hend, List.append_nil] at hraw
        exact hhunk raw (List.dropLast_subset _ hraw)
      · rw [List.dropLast_append_of_ne_nil hend] at hraw
        rcases List.mem_append.mp hraw with hraw | hraw
        · exact hhunk raw hraw
        · exact hlater raw hraw

/-- The hunks of a rendered diff, if no line runs into the next. -/
theorem parseHunks_unifiedDiff (hdigits : AsciiDigits unicode) {n : Nat} {path : String}
    {script : List (Marker × List Char)} (hpath : path.toList.any isBreak = false)
    (hsize : oldCount script ≤ maxsize)
    (hlines : ∀ line ∈ script, IsLine line.2) (hunglued : Unglued script)
    (hgroups : groupedOpcodes n [] script ≠ []) :
    parseHunks unicode (unifiedDiff n ("a/" ++ path) ("b/" ++ path) script).flatten
      = .ok ((groupedOpcodes n [] script).map hunkOf) := by
  have hname : ∀ side : String, side.toList.any isBreak = false →
      (side ++ path).toList.any isBreak = false := by
    intro side hside
    rw [String.toList_append, List.any_append, hside, hpath]
    rfl
  have hdiff : unifiedDiff n ("a/" ++ path) ("b/" ++ path) script
      = ("--- " ++ ("a/" ++ path) ++ "\n").toList :: ("+++ " ++ ("b/" ++ path) ++ "\n").toList
        :: (groupedOpcodes n [] script).flatMap OpcodeGroup.render := by
    unfold unifiedDiff
    split
    · rename_i hnone
      exact absurd hnone hgroups
    · rfl
  have hold := isDiffLine_name "--- " ("a/" ++ path) (by decide) (by decide) (hname "a/" (by decide))
  have hnew := isDiffLine_name "+++ " ("b/" ++ path) (by decide) (by decide) (hname "b/" (by decide))
  have hgroup : ∀ group ∈ groupedOpcodes n [] script, (hunkOf group).oldStart ≤ maxsize
      ∧ ∀ raw ∈ group.render, IsLine raw ∧ raw ≠ [] ∧ raw.head? ≠ some '\n' := by
    intro group hmem
    obtain ⟨hstart, hfrom⟩ := mem_groupedOpcodes hmem
    have hzero : oldCount ([] : List (Marker × List Char)) = 0 := rfl
    exact ⟨by omega, isLine_render fun line hline => hlines line (hfrom line hline)⟩
  have hrendered : (groupedOpcodes n [] script).flatMap OpcodeGroup.render ≠ [] := by
    obtain ⟨group, groups, hcons⟩ := List.exists_cons_of_ne_nil hgroups
    rw [hcons, List.flatMap_cons, OpcodeGroup.render]
    exact List.cons_ne_nil _ _
  have hall : ∀ raw ∈ unifiedDiff n ("a/" ++ path) ("b/" ++ path) script,
      IsLine raw ∧ raw ≠ [] ∧ raw.head? ≠ some '\n' := by
    rw [hdiff]
    refine List.forall_mem_cons.mpr ⟨⟨hold.1, fun h => hold.2.1 (by rw [h]; rfl), hold.2.2⟩,
      List.forall_mem_cons.mpr ⟨⟨hnew.1, fun h => hnew.2.1 (by rw [h]; rfl), hnew.2.2⟩, ?_⟩⟩
    intro raw hraw
    obtain ⟨group, hmem, hraw⟩ := List.mem_flatMap.mp hraw
    exact (hgroup group hmem).2 raw hraw
  have hbreaks : ∀ raw ∈ (unifiedDiff n ("a/" ++ path) ("b/" ++ path) script).dropLast,
      content raw ≠ raw := by
    rw [hdiff, List.dropLast_cons_of_ne_nil (List.cons_ne_nil _ _),
      List.dropLast_cons_of_ne_nil hrendered]
    exact List.forall_mem_cons.mpr ⟨hold.2.1, List.forall_mem_cons.mpr ⟨hnew.2.1,
      breaks_groupedOpcodes hlines hunglued⟩⟩
  have hread : (unifiedDiff n ("a/" ++ path) ("b/" ++ path) script).foldlM (parseLine unicode) []
      = .ok ((groupedOpcodes n [] script).map hunkOf).reverse := by
    rw [hdiff, List.foldlM_cons, parseLine_fileHeader hold.1 (by simp [isFileHeader, startsWith])]
    show List.foldlM _ [] _ = _
    rw [List.foldlM_cons, parseLine_fileHeader hnew.1 (by simp [isFileHeader, startsWith])]
    show List.foldlM _ [] _ = _
    rw [foldlM_parseLine_render hdigits fun group hmem => (hgroup group hmem).1, List.append_nil]
  unfold parseHunks
  rw [rawLines_flatten (fun raw hraw => (hall raw hraw).1)
    (separate_of_terminated hbreaks fun raw hraw => (hall raw hraw).2), hread]
  show (if _ then _ else _) = _
  rw [if_neg (by simpa using hgroups), List.reverse_reverse]
  rfl

/-- A diff of two files that differ has a hunk. -/
theorem groupedOpcodes_ne_nil {script : List (Marker × List Char)}
    (hne : oldView script ≠ newView script) : groupedOpcodes 2 [] script ≠ [] := by
  intro hnone
  have happly : applyHunks (oldView (List.reverse [] ++ script)) 0
      ((groupedOpcodes 2 [] script).map hunkOf)
      = .ok ((oldView (List.reverse [])).drop 0 ++ newView script) :=
    applyHunks_groupedOpcodes (by decide) (Nat.zero_le _) fun _ _ _ => rfl
  rw [hnone] at happly
  exact hne (Except.ok.inj happly)

/-- **A rendered diff applies** to its file and gives the other one, if no line of the script
runs into the next. -/
theorem render_applies (difflib : Difflib) (unicode : Unicode) (path : String)
    (original updated : List Char) (hdigits : AsciiDigits unicode)
    (hpath : path.toList.any isBreak = false) (hsize : original.length ≤ maxsize)
    (hpatch : renderUnifiedDiff difflib path original updated ≠ [])
    (hunglued : Unglued (difflib.script (rawLines original) (rawLines updated))) :
    applyUnifiedDiff unicode original (renderUnifiedDiff difflib path original updated)
      = .ok updated := by
  have hold : oldView (difflib.script (rawLines original) (rawLines updated)) = rawLines original :=
    difflib.old_eq _ _
  have hnew : newView (difflib.script (rawLines original) (rawLines updated)) = rawLines updated :=
    difflib.new_eq _ _
  unfold renderUnifiedDiff at hpatch ⊢
  generalize difflib.script (rawLines original) (rawLines updated) = script
    at hold hnew hunglued hpatch
  have happly : applyHunks (oldView script) 0 ((groupedOpcodes 2 [] script).map hunkOf)
      = .ok (newView script) := by
    show applyHunks (oldView (List.reverse [] ++ script)) 0 _
      = .ok ((oldView (List.reverse [])).drop 0 ++ newView script)
    exact applyHunks_groupedOpcodes (by decide) (Nat.zero_le _) fun _ _ _ => rfl
  have hgroups : groupedOpcodes 2 [] script ≠ [] := by
    intro hnone
    rw [unifiedDiff, hnone] at hpatch
    exact hpatch rfl
  have hlines : ∀ line ∈ script, IsLine line.2 := by
    intro line hline
    rcases mem_view hline with hmem | hmem
    · rw [hold] at hmem
      exact isLine_of_mem hmem
    · rw [hnew] at hmem
      exact isLine_of_mem hmem
  have hcount : oldCount script ≤ maxsize := by
    rw [oldCount_eq, hold]
    exact (length_rawLines_le original).trans hsize
  unfold applyUnifiedDiff
  rw [parseHunks_unifiedDiff hdigits hpath hcount hlines hunglued hgroups]
  show (applyHunks (rawLines original) 0 _ >>= _) = _
  rw [← hold, happly]
  show Except.ok (newView script).flatten = _
  rw [hnew, flatten_rawLines]

/-- The diff of two files that differ is not empty. -/
theorem renderUnifiedDiff_ne_nil {difflib : Difflib} {path : String} {original updated : List Char}
    (hne : original ≠ updated) : renderUnifiedDiff difflib path original updated ≠ [] := by
  have hold : oldView (difflib.script (rawLines original) (rawLines updated)) = rawLines original :=
    difflib.old_eq _ _
  have hnew : newView (difflib.script (rawLines original) (rawLines updated)) = rawLines updated :=
    difflib.new_eq _ _
  have hviews : oldView (difflib.script (rawLines original) (rawLines updated))
      ≠ newView (difflib.script (rawLines original) (rawLines updated)) := by
    rw [hold, hnew]
    intro hsame
    have htexts := congrArg List.flatten hsame
    rw [flatten_rawLines, flatten_rawLines] at htexts
    exact hne htexts
  unfold renderUnifiedDiff unifiedDiff
  split
  · rename_i hnone
    exact absurd hnone (groupedOpcodes_ne_nil hviews)
  · simp

/-- **Round trip.** A rendered diff applies to its file and gives the other one, if both are
terminated. -/
theorem render_round_trip (difflib : Difflib) (unicode : Unicode) (path : String)
    (original updated : List Char) (hdigits : AsciiDigits unicode)
    (hpath : path.toList.any isBreak = false) (hsize : original.length ≤ maxsize)
    (hne : original ≠ updated) (horiginal : Terminated original) (hupdated : Terminated updated) :
    applyUnifiedDiff unicode original (renderUnifiedDiff difflib path original updated)
      = .ok updated := by
  refine render_applies difflib unicode path original updated hdigits hpath hsize
    (renderUnifiedDiff_ne_nil hne) ?_
  intro line hline
  rcases mem_view (List.dropLast_subset _ hline) with hmem | hmem
  · have hold : oldView (difflib.script (rawLines original) (rawLines updated))
        = rawLines original := difflib.old_eq _ _
    rw [hold] at hmem
    exact horiginal.content_ne hmem
  · have hnew : newView (difflib.script (rawLines original) (rawLines updated))
        = rawLines updated := difflib.new_eq _ _
    rw [hnew] at hmem
    exact hupdated.content_ne hmem

/-- Takes all lines out and puts all lines in, as `difflib` does when no line stays. -/
def replaceAll : Difflib where
  script := fun old new => old.map (fun raw => (.removed, raw)) ++ new.map fun raw => (.added, raw)
  old_eq := by
    intro old new
    simp [List.filter_map, Function.comp_def]
  new_eq := by
    intro old new
    simp [List.filter_map, Function.comp_def]

theorem asciiDigits_ascii : AsciiDigits asciiEnvironment.unicode := fun _ _ => rfl

theorem render_round_trip_replaced :
    applyUnifiedDiff asciiEnvironment.unicode "a==1\n-- b\n".toList
        (renderUnifiedDiff replaceAll "r.txt" "a==1\n-- b\n".toList "a==2\n".toList)
      = .ok "a==2\n".toList :=
  render_round_trip replaceAll asciiEnvironment.unicode "r.txt" _ _ asciiDigits_ascii (by decide)
    (by decide) (by decide) (by decide) (by decide)

end PipeLens.Proof
