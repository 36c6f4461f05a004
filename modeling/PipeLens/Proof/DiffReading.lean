import PipeLens.Lib.UnifiedDiff
import PipeLens.Proof.Raising

/-!
# Reading a unified diff

What `_parse_hunks` makes of the text of a diff. It refuses most of what can stand in front
of the first header, all that can stand behind the last hunk, and numbers that are too long.
If it takes nothing there for a header and breaks no line of a hunk, it reads the hunks of
the diff, without their counts, and with a newline at the end of every line, whatever the
notes say.
-/

namespace PipeLens.Proof

open Text

variable {unicode : Unicode}

/-! ## What a diff is read as -/

def markerOf : Unified.Sign → Marker
  | .context => .context
  | .removed => .removed
  | .added => .added

/-- The line with a newline at its end. -/
def addNewline (line : List Char) : List Char :=
  if line.getLast? = some '\n' then line else line ++ ['\n']

/-- Lines as they are read: notes are passed over. -/
def readLines (lines : List Unified.Line) : List (Marker × List Char) :=
  (Unified.entries lines).map fun entry => (markerOf entry.1, addNewline entry.2)

/-- A hunk as it is read, without its counts. -/
def readHunk (hunk : Unified.Hunk) : Hunk where
  oldStart := hunk.old.start.value
  lines := readLines hunk.lines

/-- Lines in front of the first header that are passed over. -/
def isSkipped (raw : List Char) : Bool :=
  let line := stripNewline raw
  isFileHeader line || startsWith "diff " line || startsWith "index " line
    || (strip line).isEmpty

/-- Nothing keeps the diff from being read. -/
structure Readable (diff : Unified.Diff) : Prop where
  skipped : ∀ raw ∈ rawLines diff.preambleText, isSkipped raw = true
  trailer : diff.trailer = []
  numbers : ∀ hunk ∈ diff.hunks, hunk.old.start.digits.length ≤ 4300

/-- Nothing else is taken for a header, and `splitlines` breaks no line of a hunk. -/
structure CutAlike (unicode : Unicode) (diff : Unified.Diff) : Prop where
  preamble : ∀ raw ∈ rawLines diff.preambleText,
    matchHunkHeader unicode (stripNewline raw) = none
  hunks : ∀ hunk ∈ diff.hunks, ∀ raw ∈ hunk.texts, IsLine raw
  trailer : ∀ raw ∈ (rawLines diff.trailerText).head?,
    matchHunkHeader unicode (stripNewline raw) = none ∧ raw.head? ≠ some '\r'

/-! ## Newlines -/

theorem addNewline_of_ended {line : List Char} (h : line.getLast? = some '\n') :
    addNewline line = line :=
  if_pos h

/-- A note is all that keeps a line from its newline. -/
theorem addNewline_ending (text : Unified.LineText) (lines : List Unified.Line) :
    addNewline (text.val ++ Unified.ending lines) = text.val ++ ['\n'] := by
  have hnone : addNewline (text.val ++ []) = text.val ++ ['\n'] := by
    rw [List.append_nil]
    exact if_neg fun h => text.property (List.mem_of_getLast? h)
  have hended : addNewline (text.val ++ ['\n']) = text.val ++ ['\n'] :=
    addNewline_of_ended List.getLast?_concat
  unfold Unified.ending
  split
  · exact hnone
  · exact hended

theorem readLines_body (sign : Unified.Sign) (text : Unified.LineText)
    (lines : List Unified.Line) :
    readLines (.body sign text :: lines)
      = (markerOf sign, text.val ++ ['\n']) :: readLines lines :=
  congrArg (fun body => (markerOf sign, body) :: readLines lines) (addNewline_ending text lines)

theorem readLines_bare (lines : List Unified.Line) :
    readLines (.bare :: lines) = (.context, ['\n']) :: readLines lines :=
  readLines_body .context ⟨[], List.not_mem_nil⟩ lines

/-- The lines on one side of a hunk. -/
theorem map_filter_readLines (side : Marker → Bool) (side' : Unified.Sign → Bool)
    (hside : ∀ sign, side (markerOf sign) = side' sign) (lines : List Unified.Line) :
    ((readLines lines).filter fun line => side line.1).map Prod.snd
      = (((Unified.entries lines).filter fun entry => side' entry.1).map Prod.snd).map
          addNewline := by
  unfold readLines
  rw [List.filter_map, List.map_map, List.map_map]
  congr 1
  exact List.filter_congr fun entry _ => hside entry.1

theorem readHunk_oldLines (hunk : Unified.Hunk) :
    (readHunk hunk).oldLines = hunk.oldLines.map addNewline :=
  map_filter_readLines (fun marker => marker ≠ .added) (fun sign => sign ≠ .added)
    (fun sign => by cases sign <;> rfl) hunk.lines

theorem readHunk_newLines (hunk : Unified.Hunk) :
    (readHunk hunk).newLines = hunk.newLines.map addNewline :=
  map_filter_readLines (fun marker => marker ≠ .removed) (fun sign => sign ≠ .removed)
    (fun sign => by cases sign <;> rfl) hunk.lines

theorem map_addNewline {lines : List (List Char)}
    (h : ∀ line ∈ lines, line.getLast? = some '\n') : lines.map addNewline = lines :=
  (List.map_congr_left fun line hline => addNewline_of_ended (h line hline)).trans (List.map_id _)

/-- The new lines of a hunk that have no newline. -/
def unended (hunk : Unified.Hunk) : Nat :=
  hunk.newLines.countP fun line => decide (line.getLast? ≠ some '\n')

theorem unended_eq_zero {hunk : Unified.Hunk} :
    unended hunk = 0 ↔ ∀ line ∈ hunk.newLines, line.getLast? = some '\n' := by
  simp [unended, List.countP_eq_zero]

/-- Every missing newline is one character. -/
theorem length_addNewline (lines : List (List Char)) :
    (lines.map addNewline).flatten.length
      = lines.flatten.length + lines.countP fun line => decide (line.getLast? ≠ some '\n') := by
  induction lines with
  | nil => rfl
  | cons line lines ih =>
      rw [List.map_cons, List.flatten_cons, List.flatten_cons, List.length_append,
        List.length_append, ih, List.countP_cons]
      by_cases h : line.getLast? = some '\n'
      · rw [addNewline_of_ended h]
        simp only [h, ne_eq, not_true_eq_false, decide_false, Bool.false_eq_true, if_false]
        omega
      · simp only [addNewline, h, ne_eq, not_false_eq_true, decide_true, if_true, if_false,
          List.length_append, List.length_singleton]
        omega

/-! ## Reading the text of a diff -/

theorem markerOf_symbol (sign : Unified.Sign) : (markerOf sign).symbol = sign.symbol := by
  cases sign <;> rfl

theorem parseLine_skipped {raw : List Char}
    (hnone : matchHunkHeader unicode (stripNewline raw) = none) (h : isSkipped raw = true) :
    parseLine unicode [] raw = .ok [] := by
  unfold isSkipped at h
  unfold parseLine
  dsimp only at h ⊢
  rw [hnone]
  dsimp only
  split
  · rfl
  · rename_i hnot
    rw [if_pos]
    simpa [hnot] using h

theorem parseLine_refused {raw : List Char}
    (hnone : matchHunkHeader unicode (stripNewline raw) = none) (h : isSkipped raw = false) :
    ∃ e, parseLine unicode [] raw = .error e := by
  unfold isSkipped at h
  unfold parseLine
  dsimp only at h ⊢
  rw [hnone]
  dsimp only
  rw [Bool.or_eq_false_iff] at h
  rw [if_neg (by simp [h.1]), if_neg (by simp [h.2])]
  exact ⟨_, rfl⟩

/-- The lines in front of the first header, if nothing there is taken for one. -/
theorem foldlM_preamble {raws : List (List Char)}
    (hnone : ∀ raw ∈ raws, matchHunkHeader unicode (stripNewline raw) = none) :
    ((∀ raw ∈ raws, isSkipped raw = true) → raws.foldlM (parseLine unicode) [] = .ok [])
      ∧ ((¬ ∀ raw ∈ raws, isSkipped raw = true) →
        ∃ e, raws.foldlM (parseLine unicode) [] = .error e) := by
  induction raws with
  | nil => exact ⟨fun _ => rfl, fun h => absurd (List.forall_mem_nil _) h⟩
  | cons raw raws ih =>
      rw [List.forall_mem_cons] at hnone
      rw [List.forall_mem_cons, List.foldlM_cons]
      cases hraw : isSkipped raw with
      | true =>
          rw [parseLine_skipped hnone.1 hraw]
          obtain ⟨hall, hsome⟩ := ih hnone.2
          exact ⟨fun h => hall h.2, fun h => hsome fun hrest => h ⟨rfl, hrest⟩⟩
      | false =>
          obtain ⟨e, herror⟩ := parseLine_refused hnone.1 hraw
          rw [herror]
          exact ⟨fun h => (nomatch h.1), fun _ => ⟨e, rfl⟩⟩

theorem matchHunkHeader_nil : matchHunkHeader unicode [] = none := by
  cases hmatch : matchHunkHeader unicode [] with
  | none => rfl
  | some digits =>
      obtain ⟨rest, hrest⟩ := head_of_matchHunkHeader (Option.isSome_of_mem hmatch)
      exact nomatch hrest

/-- The lines of a hunk are added to it. -/
theorem foldlM_texts (current : Hunk) (earlier : List Hunk) (lines : List Unified.Line) :
    (lines.map Unified.Line.text).foldlM (parseLine unicode) (current :: earlier)
      = .ok ({ current with lines := current.lines ++ readLines lines } :: earlier) := by
  induction lines generalizing current with
  | nil =>
      show Except.ok (current :: earlier) = _
      rw [readLines, Unified.entries, List.map_nil, List.append_nil]
  | cons line lines ih =>
      rw [List.map_cons, List.foldlM_cons]
      cases line with
      | body sign text =>
          rw [Unified.Line.text, ← markerOf_symbol, List.cons_append, parseLine_symbol]
          show (lines.map Unified.Line.text).foldlM (parseLine unicode)
            (current.snoc (markerOf sign) (text.val ++ ['\n']) :: earlier) = _
          rw [ih, readLines_body]
          simp [Hunk.snoc]
      | bare =>
          have hline : parseLine unicode (current :: earlier) Unified.Line.bare.text
              = .ok (current.snoc .context ['\n'] :: earlier) := by
            have hnone : matchHunkHeader unicode (stripNewline ['\n']) = none := matchHunkHeader_nil
            unfold parseLine Unified.Line.text
            dsimp only
            rw [hnone]
            rfl
          rw [hline]
          show (lines.map Unified.Line.text).foldlM (parseLine unicode)
            (current.snoc .context ['\n'] :: earlier) = _
          rw [ih, readLines_bare]
          simp [Hunk.snoc]
      | note text =>
          have hline : parseLine unicode (current :: earlier) (Unified.Line.note text).text
              = .ok (current :: earlier) := by
            unfold parseLine Unified.Line.text
            dsimp only
            rw [List.cons_append, stripNewline_cons (by decide), matchHunkHeader_eq_none (by decide)]
            rfl
          rw [hline]
          exact ih current

theorem stripNewline_append {front : List Char} (h : ∀ c ∈ front, isNewline c = false)
    (back : List Char) : stripNewline (front ++ back) = front ++ stripNewline back := by
  induction front with
  | nil => rfl
  | cons c front ih =>
      rw [List.forall_mem_cons] at h
      rw [List.cons_append, stripNewline_cons h.1, ih h.2]
      rfl

theorem isDigits_number (number : Unified.Number) : IsDigits number.digits :=
  ⟨number.nonempty, number.isDigit⟩

theorem isCount_countText (range : Unified.Range) : IsCount range.countText := by
  unfold Unified.Range.countText
  split
  · exact Or.inl rfl
  · rename_i count _
    exact Or.inr ⟨count.digits, isDigits_number count, rfl⟩

/-- Up to its heading, a header has no line break. -/
theorem headerText_stripNewline (old new : Unified.Range) (heading : List Char) :
    stripNewline (Unified.headerText old new heading)
      = Unified.headerText old new (stripNewline heading) := by
  have hverbatim : ∀ text : List Char, text.all (fun c => !isNewline c) = true →
      ∀ c ∈ text, isNewline c = false := fun text h c hc => by simpa using List.all_eq_true.mp h c hc
  have hdigits : ∀ {digits : List Char}, (∀ c ∈ digits, c.isDigit = true) →
      ∀ c ∈ digits, isNewline c = false := by
    intro digits h c hc
    have hrange := toNat_of_isDigit (h c hc)
    refine Bool.eq_false_iff.mpr fun hnewline => ?_
    simp only [isNewline, Bool.or_eq_true, beq_iff_eq] at hnewline
    rcases hnewline with rfl | rfl
    · exact absurd hrange.1 (by decide)
    · exact absurd hrange.1 (by decide)
  have hcount : ∀ range : Unified.Range, ∀ c ∈ range.countText, isNewline c = false := by
    intro range
    rcases isCount_countText range with hnone | ⟨digits, hnumber, htext⟩
    · rw [hnone]
      exact fun c hc => absurd hc List.not_mem_nil
    · rw [htext]
      exact List.forall_mem_append.mpr ⟨hverbatim _ (by decide), hdigits hnumber.2⟩
  unfold Unified.headerText
  rw [stripNewline_append (hverbatim _ (by decide)), stripNewline_append (hdigits old.start.isDigit),
    stripNewline_append (hcount old), stripNewline_append (hverbatim _ (by decide)),
    stripNewline_append (hdigits new.start.isDigit), stripNewline_append (hcount new),
    stripNewline_append (hverbatim _ (by decide))]

/-- The lines of a diff, if no line of a hunk is broken. -/
theorem rawLines_text {diff : Unified.Diff}
    (hlines : ∀ hunk ∈ diff.hunks, ∀ raw ∈ hunk.texts, IsLine raw) :
    rawLines diff.text = rawLines diff.preambleText
      ++ (diff.hunks.flatMap Unified.Hunk.texts ++ rawLines diff.trailerText) := by
  have hended : ∀ (hunk : Unified.Hunk), ∀ raw ∈ hunk.texts, raw.getLast? = some '\n' := by
    intro hunk raw hraw
    rcases List.mem_cons.mp hraw with rfl | hraw
    · exact List.getLast?_concat
    · obtain ⟨line, _, rfl⟩ := List.mem_map.mp hraw
      cases line with
      | body sign text => exact List.getLast?_concat
      | bare => rfl
      | note text => exact List.getLast?_concat
  have htexts : ∀ raw ∈ diff.hunks.flatMap Unified.Hunk.texts,
      IsLine raw ∧ raw.getLast? = some '\n' := by
    intro raw hraw
    obtain ⟨hunk, hhunk, hraw⟩ := List.mem_flatMap.mp hraw
    exact ⟨hlines hunk hhunk raw hraw, hended hunk raw hraw⟩
  unfold Unified.Diff.text
  -- the lines in front end with a newline, so that the first header starts a line
  rcases List.eq_nil_or_concat diff.preamble with hnone | ⟨front, last, hpreamble⟩
  · have hempty : diff.preambleText = [] := by rw [Unified.Diff.preambleText, hnone]; rfl
    rw [hempty, List.nil_append, rawLines_lines htexts]
    rfl
  · have hlast : diff.preambleText.getLast? = some '\n' := by
      rw [Unified.Diff.preambleText, hpreamble, List.concat_eq_append, List.flatMap_append,
        List.flatMap_singleton, ← List.append_assoc]
      exact List.getLast?_concat
    rw [rawLines_append_of_newline hlast, rawLines_lines htexts]

/-- The first line of a text begins as the text does. -/
theorem rawLines_head {c : Char} {text : List Char} (h : text.head? = some c) :
    ∃ rest raws, rawLines text = (c :: rest) :: raws := by
  have hflat := flatten_rawLines text
  cases hlines : rawLines text with
  | nil =>
      rw [hlines] at hflat
      rw [← hflat] at h
      exact nomatch h
  | cons raw raws =>
      have hne : raw ≠ [] := rawLines_ne_nil (hlines ▸ List.mem_cons_self)
      obtain ⟨d, rest, rfl⟩ := List.exists_cons_of_ne_nil hne
      rw [hlines] at hflat
      rw [← hflat] at h
      obtain rfl : d = c := Option.some.inj h
      exact ⟨rest, raws, rfl⟩

/-- What stands behind the last hunk is refused. -/
theorem foldlM_trailer {diff : Unified.Diff} (halike : CutAlike unicode diff)
    (h : diff.trailer ≠ []) (current : Hunk) (earlier : List Hunk) :
    ∃ e, (rawLines diff.trailerText).foldlM (parseLine unicode) (current :: earlier)
      = .error e := by
  obtain ⟨line, lines, htrailer⟩ := List.exists_cons_of_ne_nil h
  obtain ⟨c, hc, hsign⟩ := diff.noHunkLine line (by rw [htrailer]; rfl)
  have hhead : diff.trailerText.head? = some c := by
    rw [Unified.Diff.trailerText, htrailer, List.flatMap_cons, List.append_assoc,
      List.head?_append, hc]
    rfl
  obtain ⟨rest, raws, hlines⟩ := rawLines_head hhead
  obtain ⟨hnone, hreturn⟩ := halike.trailer (c :: rest) (by rw [hlines]; rfl)
  have hnewline : isNewline c = false := by
    refine Bool.eq_false_iff.mpr fun hnewline => ?_
    simp only [isNewline, Bool.or_eq_true, beq_iff_eq] at hnewline
    rcases hnewline with rfl | rfl
    · exact hreturn rfl
    · exact line.property (List.mem_of_mem_head? hc)
  rw [stripNewline_cons hnewline] at hnone
  -- it is no header, and none of the signs stands in front
  have hrefused : ∃ e, parseLine unicode (current :: earlier) (c :: rest) = .error e := by
    simp only [Unified.isHunkSign, List.contains_eq_mem, List.mem_cons, List.not_mem_nil, or_false,
      decide_eq_false_iff_not, not_or] at hsign
    obtain ⟨hspace, hminus, hplus, hbackslash⟩ := hsign
    unfold parseLine
    dsimp only
    rw [stripNewline_cons hnewline, hnone]
    dsimp only
    split
    · rename_i heq
      cases heq
    · rename_i heq
      exact absurd (List.cons.inj heq).1 hbackslash
    · rename_i heq
      exact absurd (List.cons.inj heq).1 hspace
    · rename_i heq
      exact absurd (List.cons.inj heq).1 hminus
    · rename_i heq
      exact absurd (List.cons.inj heq).1 hplus
    · exact ⟨_, rfl⟩
  obtain ⟨e, herror⟩ := hrefused
  rw [hlines, List.foldlM_cons, herror]
  exact ⟨e, rfl⟩

section Reading

variable (hdigits : AsciiDigits unicode)
include hdigits

/-- A header begins a hunk, unless its first number is too long. -/
theorem parseLine_header (hunks : List Hunk) (hunk : Unified.Hunk) :
    parseLine unicode hunks (Unified.headerText hunk.old hunk.new hunk.heading.val ++ ['\n'])
      = (pyInt unicode hunk.old.start.digits >>= fun oldStart => .ok (⟨oldStart, []⟩ :: hunks)) := by
  have htext : Unified.headerText hunk.old hunk.new hunk.heading.val ++ ['\n']
      = Unified.headerText hunk.old hunk.new (hunk.heading.val ++ ['\n']) := by
    simp [Unified.headerText, List.append_assoc]
  have hmatch := matchHunkHeader_eq hdigits (isDigits_number hunk.old.start)
    (isCount_countText hunk.old) (isDigits_number hunk.new.start) (isCount_countText hunk.new)
    (stripNewline (hunk.heading.val ++ ['\n']))
  unfold parseLine
  dsimp only
  rw [htext, headerText_stripNewline, Unified.headerText, hmatch]
  rfl

/-- **The hunks are read**, unless a number is too long. -/
theorem foldlM_hunks (hunks : List Unified.Hunk) (earlier : List Hunk) :
    ((∀ hunk ∈ hunks, hunk.old.start.digits.length ≤ 4300) →
        (hunks.flatMap Unified.Hunk.texts).foldlM (parseLine unicode) earlier
          = .ok ((hunks.map readHunk).reverse ++ earlier))
      ∧ ((¬ ∀ hunk ∈ hunks, hunk.old.start.digits.length ≤ 4300) →
        ∃ e, (hunks.flatMap Unified.Hunk.texts).foldlM (parseLine unicode) earlier = .error e) := by
  induction hunks generalizing earlier with
  | nil => exact ⟨fun _ => rfl, fun h => absurd (List.forall_mem_nil _) h⟩
  | cons hunk hunks ih =>
      rw [List.forall_mem_cons, List.flatMap_cons, List.foldlM_append, Unified.Hunk.texts,
        List.foldlM_cons, parseLine_header hdigits]
      by_cases hlong : hunk.old.start.digits.length ≤ 4300
      · have hread : ((hunk.lines.map Unified.Line.text).foldlM (parseLine unicode)
            (⟨Nat.ofDigitChars 10 hunk.old.start.digits 0, []⟩ :: earlier))
            = .ok (readHunk hunk :: earlier) := foldlM_texts _ _ _
        -- the header begins a hunk without lines, and its lines are added one by one
        rw [hdigits.pyInt_eq hunk.old.start.isDigit hlong]
        show (_ → ((hunk.lines.map Unified.Line.text).foldlM (parseLine unicode)
            (⟨Nat.ofDigitChars 10 hunk.old.start.digits 0, []⟩ :: earlier) >>= _) = _)
          ∧ (_ → ∃ e, ((hunk.lines.map Unified.Line.text).foldlM (parseLine unicode)
            (⟨Nat.ofDigitChars 10 hunk.old.start.digits 0, []⟩ :: earlier) >>= _) = .error e)
        rw [hread]
        obtain ⟨hall, hsome⟩ := ih (readHunk hunk :: earlier)
        refine ⟨fun h => (hall h.2).trans ?_, fun h => hsome fun hrest => h ⟨hlong, hrest⟩⟩
        simp
      · obtain ⟨message, herror⟩ := (@pyInt_valueError unicode _).mpr (Nat.lt_of_not_le hlong)
        rw [herror]
        exact ⟨fun h => absurd h.1 hlong, fun _ => ⟨_, rfl⟩⟩

/-- **The text of a diff is read as its hunks**, if it is read at all. -/
theorem parseHunks_text {diff : Unified.Diff} (halike : CutAlike unicode diff) :
    (Readable diff → parseHunks unicode diff.text = .ok (diff.hunks.map readHunk))
      ∧ (¬ Readable diff → ∃ e, parseHunks unicode diff.text = .error e) := by
  obtain ⟨hpreamble, hrefused⟩ := foldlM_preamble halike.preamble
  obtain ⟨hhunks, hlong⟩ := foldlM_hunks hdigits diff.hunks []
  have hne : (diff.hunks.map readHunk).reverse ≠ [] := by simpa using diff.nonempty
  unfold parseHunks
  rw [rawLines_text halike.hunks, List.foldlM_append]
  constructor
  · intro h
    have htrailer : rawLines diff.trailerText = [] := by
      rw [Unified.Diff.trailerText, h.trailer]
      rfl
    rw [hpreamble h.skipped, htrailer, List.append_nil]
    show ((diff.hunks.flatMap Unified.Hunk.texts).foldlM (parseLine unicode) [] >>= _) = _
    rw [hhunks h.numbers, List.append_nil]
    show (if (diff.hunks.map readHunk).reverse.isEmpty = true then _ else _) = _
    rw [if_neg (by simpa using diff.nonempty), List.reverse_reverse]
    rfl
  · intro h
    -- what is refused first: a line in front, a number, or what stands behind
    by_cases hskipped : ∀ raw ∈ rawLines diff.preambleText, isSkipped raw = true
    · rw [hpreamble hskipped]
      show ∃ e, ((diff.hunks.flatMap Unified.Hunk.texts
        ++ rawLines diff.trailerText).foldlM (parseLine unicode) [] >>= _) = .error e
      rw [List.foldlM_append]
      by_cases hnumbers : ∀ hunk ∈ diff.hunks, hunk.old.start.digits.length ≤ 4300
      · obtain ⟨current, earlier, hstate⟩ := List.exists_cons_of_ne_nil hne
        obtain ⟨e, herror⟩ := foldlM_trailer halike
          (fun htrailer => h ⟨hskipped, htrailer, hnumbers⟩) current earlier
        rw [hhunks hnumbers, List.append_nil, hstate]
        show ∃ e, ((rawLines diff.trailerText).foldlM (parseLine unicode) (current :: earlier)
          >>= _) = .error e
        rw [herror]
        exact ⟨e, rfl⟩
      · obtain ⟨e, herror⟩ := hlong hnumbers
        rw [herror]
        exact ⟨e, rfl⟩
    · obtain ⟨e, herror⟩ := hrefused hskipped
      rw [herror]
      exact ⟨e, rfl⟩

end Reading

end PipeLens.Proof
