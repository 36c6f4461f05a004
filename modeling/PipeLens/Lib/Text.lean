import Mathlib.Data.List.DropRight
import Mathlib.Data.List.TakeWhile

/-!
# Text as lists of characters

The string methods of Python that look at white space and line breaks. A text is
its list of code points.

`splitlines` breaks at more characters than `\n`: at vertical tabs, form feeds, the
separators `\x1c`–`\x1e`, `\x85`, and the two Unicode separators, and it takes `\r\n`
as one break. `rstrip("\r\n")` removes only two of these, so the two methods disagree
on where a line ends.
-/

namespace Text

/-- `str.isspace` for one character, also what `\s` matches. -/
def isSpace (c : Char) : Bool :=
  let n := c.toNat
  (0x09 ≤ n && n ≤ 0x0d) || (0x1c ≤ n && n ≤ 0x20) || n == 0x85 || n == 0xa0 || n == 0x1680
    || (0x2000 ≤ n && n ≤ 0x200a) || n == 0x2028 || n == 0x2029 || n == 0x202f || n == 0x205f
    || n == 0x3000

/-- The characters at which `splitlines` breaks. -/
def isBreak (c : Char) : Bool :=
  let n := c.toNat
  (0x0a ≤ n && n ≤ 0x0d) || (0x1c ≤ n && n ≤ 0x1e) || n == 0x85 || n == 0x2028 || n == 0x2029

/-- `\r` and `\n`. -/
def isNewline (c : Char) : Bool := c == '\r' || c == '\n'

theorem isSpace_of_isBreak {c : Char} (h : isBreak c = true) : isSpace c = true := by
  simp only [isBreak, isSpace, Bool.or_eq_true, Bool.and_eq_true, decide_eq_true_eq,
    beq_iff_eq] at h ⊢
  omega

theorem isBreak_of_isNewline {c : Char} (h : isNewline c = true) : isBreak c = true := by
  simp only [isNewline, Bool.or_eq_true, beq_iff_eq] at h
  rcases h with rfl | rfl <;> decide

/-! ## Stripping -/

/-- `text.strip()`. -/
def strip (text : List Char) : List Char := (text.dropWhile isSpace).rdropWhile isSpace

/-- `text.rstrip("\r\n")`. -/
def stripNewline (text : List Char) : List Char := text.rdropWhile isNewline

/-- Nothing but white space. -/
def isBlank (text : List Char) : Bool := text.all isSpace

/-- A first character that stays is not touched. -/
theorem stripNewline_cons {c : Char} (h : isNewline c = false) (text : List Char) :
    stripNewline (c :: text) = c :: stripNewline text := by
  induction text using List.reverseRecOn with
  | nil => simp [stripNewline, List.rdropWhile_singleton, h]
  | append_singleton text d ih =>
      unfold stripNewline at ih ⊢
      rw [← List.cons_append, List.rdropWhile_concat, List.rdropWhile_concat, ih]
      split
      · rfl
      · rfl

theorem strip_concat_space {c : Char} (h : isSpace c = true) (text : List Char) :
    strip (text ++ [c]) = strip text := by
  unfold strip
  rw [List.dropWhile_append]
  split
  · rename_i hempty
    rw [List.isEmpty_iff] at hempty
    simp [hempty, h]
  · exact List.rdropWhile_concat_pos _ _ _ h

/-! ## Lines -/

/-- Scans for the end of the line that has begun with `line`, in reverse. -/
def splitFrom (line : List Char) : List Char → List (List Char)
  | [] => if line.isEmpty then [] else [line.reverse]
  | '\r' :: '\n' :: rest => ('\n' :: '\r' :: line).reverse :: splitFrom [] rest
  | c :: rest =>
      if isBreak c then (c :: line).reverse :: splitFrom [] rest else splitFrom (c :: line) rest

/-- `text.splitlines(keepends=True)`. -/
def rawLines (text : List Char) : List (List Char) := splitFrom [] text

/-- A line without its break. -/
def content (raw : List Char) : List Char := raw.takeWhile fun c => !isBreak c

/-- `text.splitlines()`. -/
def splitlines (text : List Char) : List (List Char) := (rawLines text).map content

/-- What can end a line; the last line of a text may have no end. -/
inductive IsEnd : List Char → Prop where
  | none : IsEnd []
  | break {c : Char} (h : isBreak c = true) : IsEnd [c]
  | crlf : IsEnd ['\r', '\n']

/-- A line as `splitlines(keepends=True)` returns it. -/
def IsLine (raw : List Char) : Prop :=
  ∃ line eol, raw = line ++ eol ∧ (∀ c ∈ line, isBreak c = false) ∧ IsEnd eol

theorem splitFrom_isLine (line text : List Char) (h : ∀ c ∈ line, isBreak c = false) :
    ∀ raw ∈ splitFrom line text, IsLine raw := by
  fun_induction splitFrom line text with
  | case1 line hempty => exact fun raw hraw => nomatch hraw
  | case2 line hempty =>
      intro raw hraw
      rw [List.mem_singleton.mp hraw]
      exact ⟨line.reverse, [], (List.append_nil _).symm,
        fun c hc => h c (List.mem_reverse.mp hc), .none⟩
  | case3 line rest ih =>
      intro raw hraw
      rcases List.mem_cons.mp hraw with rfl | hraw
      · exact ⟨line.reverse, ['\r', '\n'], by simp, fun c hc => h c (List.mem_reverse.mp hc), .crlf⟩
      · exact ih (fun _ hc => nomatch hc) raw hraw
  | case4 line c rest _ hbreak ih =>
      intro raw hraw
      rcases List.mem_cons.mp hraw with rfl | hraw
      · exact ⟨line.reverse, [c], by simp, fun d hd => h d (List.mem_reverse.mp hd), .break hbreak⟩
      · exact ih (fun _ hc => nomatch hc) raw hraw
  | case5 line c rest _ hbreak ih =>
      refine ih fun d hd => ?_
      rcases List.mem_cons.mp hd with rfl | hd
      · simpa using hbreak
      · exact h d hd

theorem isLine_of_mem {text raw : List Char} (h : raw ∈ rawLines text) : IsLine raw :=
  splitFrom_isLine [] text (fun _ hc => nomatch hc) raw h

theorem content_cons {c : Char} (h : isBreak c = false) (raw : List Char) :
    content (c :: raw) = c :: content raw := by
  unfold content
  rw [List.takeWhile_cons_of_pos (by simp [h])]

theorem IsLine.of_cons {c : Char} (h : isBreak c = false) {raw : List Char}
    (hraw : IsLine (c :: raw)) : IsLine raw := by
  obtain ⟨line, eol, heq, hline, hend⟩ := hraw
  cases line with
  | nil =>
      rw [List.nil_append] at heq
      cases hend with
      | none => exact nomatch heq
      | «break» hc =>
          rw [(List.cons.inj heq).1, hc] at h
          exact nomatch h
      | crlf =>
          rw [(List.cons.inj heq).1] at h
          exact absurd h (by decide)
  | cons d line =>
      rw [List.cons_append, List.cons.injEq] at heq
      exact ⟨line, eol, heq.2, fun e he => hline e (List.mem_cons_of_mem d he), hend⟩

theorem IsLine.cons {c : Char} (h : isBreak c = false) {raw : List Char} (hraw : IsLine raw) :
    IsLine (c :: raw) := by
  obtain ⟨line, eol, rfl, hline, hend⟩ := hraw
  refine ⟨c :: line, eol, rfl, ?_, hend⟩
  intro d hd
  rcases List.mem_cons.mp hd with rfl | hd
  · exact h
  · exact hline d hd

theorem content_append {line eol : List Char} (h : ∀ c ∈ line, isBreak c = false)
    (hend : IsEnd eol) : content (line ++ eol) = line := by
  unfold content
  rw [List.takeWhile_append_of_pos (by simpa using h)]
  cases hend with
  | none => simp
  | «break» hc => simp [hc]
  | crlf => simp [show isBreak '\r' = true from by decide]

/-- **The two ways to end a line.** They agree unless the break is not a newline. -/
theorem IsLine.stripNewline_cases {raw : List Char} (h : IsLine raw) :
    stripNewline raw = content raw
      ∨ ∃ c, isBreak c = true ∧ isNewline c = false ∧ stripNewline raw = content raw ++ [c] := by
  obtain ⟨line, eol, rfl, hline, hend⟩ := h
  rw [content_append hline hend]
  have hstay : stripNewline line = line := by
    refine List.rdropWhile_eq_self_iff.mpr fun hne hnl => ?_
    have := hline _ (List.getLast_mem hne)
    rw [isBreak_of_isNewline hnl] at this
    exact absurd this (by decide)
  cases hend with
  | none => exact Or.inl (by rw [List.append_nil]; exact hstay)
  | @«break» c hc =>
      cases hn : isNewline c with
      | false => exact Or.inr ⟨c, hc, hn, List.rdropWhile_concat_neg _ _ _ (by simp [hn])⟩
      | true =>
          refine Or.inl ?_
          unfold stripNewline
          rw [List.rdropWhile_concat_pos _ _ _ hn]
          exact hstay
  | crlf =>
      refine Or.inl ?_
      have h2 : line ++ ['\r', '\n'] = line ++ ['\r'] ++ ['\n'] := by simp
      unfold stripNewline
      rw [h2, List.rdropWhile_concat_pos _ _ _ (by decide),
        List.rdropWhile_concat_pos _ _ _ (by decide)]
      exact hstay

theorem content_ne_of_break {line : List Char} (h : ∀ c ∈ line, isBreak c = false) {c : Char}
    (hc : isBreak c = true) : content (line ++ [c]) ≠ line ++ [c] := by
  rw [content_append h (.break hc)]
  simp

/-- Only the last line of a text can be without a break. -/
theorem splitFrom_pairwise (line text : List Char) (h : ∀ c ∈ line, isBreak c = false) :
    (splitFrom line text).Pairwise fun raw _ => content raw ≠ raw := by
  have hreverse : ∀ {line : List Char}, (∀ c ∈ line, isBreak c = false) →
      ∀ c ∈ line.reverse, isBreak c = false := fun h c hc => h c (List.mem_reverse.mp hc)
  fun_induction splitFrom line text with
  | case1 line hempty => exact .nil
  | case2 line hempty => exact List.pairwise_singleton _ _
  | case3 line rest ih =>
      refine .cons (fun _ _ => ?_) (ih fun _ hc => nomatch hc)
      have hraw : ('\n' :: '\r' :: line).reverse = line.reverse ++ ['\r', '\n'] := by simp
      rw [hraw, content_append (hreverse h) .crlf]
      simp
  | case4 line c rest _ hbreak ih =>
      refine .cons (fun _ _ => ?_) (ih fun _ hc => nomatch hc)
      rw [List.reverse_cons]
      exact content_ne_of_break (hreverse h) hbreak
  | case5 line c rest _ hbreak ih =>
      refine ih fun d hd => ?_
      rcases List.mem_cons.mp hd with rfl | hd
      · simpa using hbreak
      · exact h d hd

theorem rawLines_pairwise (text : List Char) :
    (rawLines text).Pairwise fun raw _ => content raw ≠ raw :=
  splitFrom_pairwise [] text fun _ hc => nomatch hc

/-! ## How lines start -/

theorem isPrefixOf_takeWhile {p : Char → Bool} {start text : List Char}
    (h : ∀ c ∈ start, p c = true) :
    start.isPrefixOf (text.takeWhile p) = start.isPrefixOf text := by
  induction start generalizing text with
  | nil => simp
  | cons a start ih =>
      cases text with
      | nil => simp
      | cons b text =>
          have hrest : start.isPrefixOf (text.takeWhile p) = start.isPrefixOf text :=
            ih fun c hc => h c (List.mem_cons_of_mem a hc)
          rw [List.takeWhile_cons]
          by_cases hab : a = b
          · subst hab
            rw [if_pos (h a List.mem_cons_self)]
            simp [List.isPrefixOf, hrest]
          · split
            · simp [List.isPrefixOf, hrest]
            · simp [List.isPrefixOf, hab]

/-- The break of a line does not count for how it starts. -/
theorem isPrefixOf_content {start : List Char} (h : ∀ c ∈ start, isBreak c = false)
    (raw : List Char) : start.isPrefixOf (content raw) = start.isPrefixOf raw :=
  isPrefixOf_takeWhile fun c hc => by simp [h c hc]

theorem IsLine.content_stripNewline {raw : List Char} (h : IsLine raw) :
    content (stripNewline raw) = content raw := by
  have hline : ∀ c ∈ content raw, isBreak c = false := fun c hc => by
    simpa using List.mem_takeWhile_imp hc
  rcases h.stripNewline_cases with he | ⟨c, hc, _, he⟩
  · rw [he]
    simpa using content_append hline .none
  · rw [he]
    exact content_append hline (.break hc)

theorem IsLine.isPrefixOf_stripNewline {raw : List Char} (h : IsLine raw) {start : List Char}
    (hstart : ∀ c ∈ start, isBreak c = false) :
    start.isPrefixOf (stripNewline raw) = start.isPrefixOf raw := by
  rw [← isPrefixOf_content hstart, h.content_stripNewline, isPrefixOf_content hstart]

/-! ## Joining lines -/

theorem splitFrom_cons {c : Char} (h : isBreak c = false) (line rest : List Char) :
    splitFrom line (c :: rest) = splitFrom (c :: line) rest := by
  rw [splitFrom.eq_def]
  split
  · rename_i heq
    exact nomatch heq
  · rename_i heq
    obtain ⟨rfl, _⟩ := List.cons.inj heq
    exact absurd h (by decide)
  · rename_i d rest' _ heq
    obtain ⟨rfl, rfl⟩ := List.cons.inj heq
    rw [if_neg (by simp [h])]

theorem splitFrom_append {text : List Char} (h : ∀ c ∈ text, isBreak c = false)
    (line rest : List Char) :
    splitFrom line (text ++ rest) = splitFrom (text.reverse ++ line) rest := by
  induction text generalizing line with
  | nil => rfl
  | cons c text ih =>
      rw [List.cons_append, splitFrom_cons (h c List.mem_cons_self),
        ih (fun d hd => h d (List.mem_cons_of_mem c hd))]
      simp

theorem splitFrom_break {c : Char} (h : isBreak c = true) (line rest : List Char)
    (hcrlf : ∀ rest', ¬ (c = '\r' ∧ rest = '\n' :: rest')) :
    splitFrom line (c :: rest) = (line.reverse ++ [c]) :: splitFrom [] rest := by
  rw [splitFrom.eq_def]
  split
  · rename_i heq
    exact nomatch heq
  · rename_i rest' heq
    obtain ⟨hc, hrest⟩ := List.cons.inj heq
    exact absurd ⟨hc, hrest⟩ (hcrlf rest')
  · rename_i d rest' _ heq
    obtain ⟨rfl, rfl⟩ := List.cons.inj heq
    rw [if_pos h, List.reverse_cons]

theorem rawLines_break {line : List Char} (hline : ∀ c ∈ line, isBreak c = false) {c : Char}
    (h : isBreak c = true) (rest : List Char) (hcrlf : ∀ rest', ¬ (c = '\r' ∧ rest = '\n' :: rest')) :
    rawLines (line ++ c :: rest) = (line ++ [c]) :: rawLines rest := by
  unfold rawLines
  rw [splitFrom_append hline, splitFrom_break h _ _ hcrlf, List.append_nil, List.reverse_reverse]

theorem rawLines_crlf {line : List Char} (hline : ∀ c ∈ line, isBreak c = false)
    (rest : List Char) :
    rawLines (line ++ '\r' :: '\n' :: rest) = (line ++ ['\r', '\n']) :: rawLines rest := by
  unfold rawLines
  rw [splitFrom_append hline, splitFrom]
  simp

theorem splitlines_break {line : List Char} (hline : ∀ c ∈ line, isBreak c = false) {c : Char}
    (h : isBreak c = true) (rest : List Char) (hcrlf : ∀ rest', ¬ (c = '\r' ∧ rest = '\n' :: rest')) :
    splitlines (line ++ c :: rest) = line :: splitlines rest := by
  unfold splitlines
  rw [rawLines_break hline h rest hcrlf, List.map_cons, content_append hline (.break h)]

theorem splitlines_crlf {line : List Char} (hline : ∀ c ∈ line, isBreak c = false)
    (rest : List Char) :
    splitlines (line ++ '\r' :: '\n' :: rest) = line :: splitlines rest := by
  unfold splitlines
  rw [rawLines_crlf hline, List.map_cons, content_append hline .crlf]

/-- Puts a text without a break in front of the first line. -/
def prependTo (text : List Char) : List (List Char) → List (List Char)
  | [] => [text]
  | line :: lines => (text ++ line) :: lines

/-- A line that has begun is put in front of the next. -/
theorem splitFrom_prependTo {line : List Char} (hne : line ≠ []) (begun text : List Char) :
    splitFrom (begun ++ line.reverse) text = prependTo line (splitFrom begun text) := by
  fun_induction splitFrom begun text with
  | case1 begun hempty =>
      rw [List.isEmpty_iff.mp hempty, splitFrom]
      simp [hne, prependTo]
  | case2 begun hempty =>
      rw [splitFrom]
      simp [hne, prependTo]
  | case3 begun rest ih =>
      rw [splitFrom]
      simp [prependTo]
  | case4 begun c rest hcrlf hbreak ih =>
      rw [splitFrom_break hbreak _ _ fun rest' h => hcrlf rest' h.1 h.2]
      simp [prependTo]
  | case5 begun c rest hcrlf hbreak ih =>
      rw [splitFrom_cons (by simpa using hbreak)]
      exact ih

theorem rawLines_append {line : List Char} (hline : ∀ c ∈ line, isBreak c = false)
    (hne : line ≠ []) (text : List Char) :
    rawLines (line ++ text) = prependTo line (rawLines text) := by
  unfold rawLines
  rw [splitFrom_append hline, List.append_nil, ← List.nil_append line.reverse,
    splitFrom_prependTo hne]

theorem splitlines_append {line : List Char} (hline : ∀ c ∈ line, isBreak c = false)
    (hne : line ≠ []) (text : List Char) :
    splitlines (line ++ text) = prependTo line (splitlines text) := by
  unfold splitlines
  rw [rawLines_append hline hne]
  cases rawLines text with
  | nil =>
      have hcontent := content_append hline .none
      rw [List.append_nil] at hcontent
      rw [prependTo, List.map_singleton, hcontent]
      rfl
  | cons raw raws =>
      have hcontent : content (line ++ raw) = line ++ content raw :=
        List.takeWhile_append_of_pos (by simpa using hline)
      rw [prependTo, List.map_cons, hcontent]
      rfl

/-- The lines that lines make when they are put together: one without a break runs into the
next. -/
def joinLines : List (List Char) → List (List Char)
  | [] => []
  | raw :: raws =>
      if content raw ≠ raw then content raw :: joinLines raws
      else if raw = [] then joinLines raws
      else prependTo raw (joinLines raws)

/-- The lines with something on them. -/
def solidLines (text : List Char) : List (List Char) :=
  (splitlines text).filter fun line => !isBlank line

/-- The same lines, but for blank ones behind the first. -/
structure SameSolid (lines lines' : List (List Char)) : Prop where
  head : lines.head? = lines'.head?
  tail : (lines.tail.filter fun line => !isBlank line)
    = lines'.tail.filter fun line => !isBlank line

namespace SameSolid

theorem filter_eq {lines lines' : List (List Char)} (h : SameSolid lines lines') :
    (lines.filter fun line => !isBlank line) = lines'.filter fun line => !isBlank line := by
  obtain ⟨hhead, htail⟩ := h
  cases lines with
  | nil =>
      cases lines' with
      | nil => rfl
      | cons _ _ => exact nomatch hhead
  | cons line lines =>
      cases lines' with
      | nil => exact nomatch hhead
      | cons line' lines' =>
          rw [List.head?_cons, List.head?_cons, Option.some.injEq] at hhead
          rw [List.tail_cons, List.tail_cons] at htail
          rw [hhead, List.filter_cons, List.filter_cons, htail]

theorem cons {lines lines' : List (List Char)} (h : SameSolid lines lines') (line : List Char) :
    SameSolid (line :: lines) (line :: lines') :=
  ⟨rfl, h.filter_eq⟩

theorem prependTo {lines lines' : List (List Char)} (h : SameSolid lines lines')
    (text : List Char) : SameSolid (prependTo text lines) (prependTo text lines') := by
  obtain ⟨hhead, htail⟩ := h
  cases lines with
  | nil =>
      cases lines' with
      | nil => exact ⟨rfl, rfl⟩
      | cons _ _ => exact nomatch hhead
  | cons line lines =>
      cases lines' with
      | nil => exact nomatch hhead
      | cons line' lines' =>
          rw [List.head?_cons, List.head?_cons, Option.some.injEq] at hhead
          rw [hhead]
          exact ⟨rfl, htail⟩

end SameSolid

/-- **Lines that are put together again.** A `\r` and a `\n` that meet are read as one break, so
that the blank line between them is lost. -/
theorem splitlines_flatten {raws : List (List Char)} (hlines : ∀ raw ∈ raws, IsLine raw) :
    SameSolid (splitlines raws.flatten) (joinLines raws) := by
  induction raws with
  | nil => exact ⟨rfl, rfl⟩
  | cons raw raws ih =>
      have hrest : SameSolid (splitlines raws.flatten) (joinLines raws) :=
        ih fun r hr => hlines r (List.mem_cons_of_mem raw hr)
      obtain ⟨line, eol, rfl, hline, hend⟩ := hlines raw List.mem_cons_self
      rw [List.flatten_cons, List.append_assoc, joinLines, content_append hline hend]
      cases hend with
      | none =>
          rw [List.append_nil, if_neg (fun h => h rfl), List.nil_append]
          split
          · rename_i hempty
            rw [hempty]
            exact hrest
          · rename_i hne
            rw [splitlines_append hline hne]
            exact hrest.prependTo line
      | crlf =>
          rw [if_pos (by simp)]
          exact (splitlines_crlf hline _).symm ▸ hrest.cons line
      | @«break» c hc =>
          rw [if_pos (by simp)]
          by_cases hcrlf : c = '\r' ∧ ∃ rest, raws.flatten = '\n' :: rest
          · obtain ⟨rfl, rest, hnext⟩ := hcrlf
            have hnone : ∀ c ∈ ([] : List Char), isBreak c = false := fun _ h => nomatch h
            have hempty : splitlines ('\n' :: rest) = [] :: splitlines rest :=
              splitlines_break hnone (by decide) rest fun _ h => absurd h.1 (by decide)
            rw [hnext] at hrest ⊢
            refine (splitlines_crlf hline rest).symm ▸ ⟨rfl, ?_⟩
            rw [List.tail_cons, List.tail_cons, ← hrest.filter_eq, hempty]
            rfl
          · exact (splitlines_break hline hc _ fun rest h => hcrlf ⟨h.1, rest, h.2⟩).symm
              ▸ hrest.cons line

theorem solidLines_flatten {raws : List (List Char)} (h : ∀ raw ∈ raws, IsLine raw) :
    solidLines raws.flatten = (joinLines raws).filter fun line => !isBlank line :=
  (splitlines_flatten h).filter_eq

end Text
