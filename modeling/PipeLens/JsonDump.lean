import PipeLens.Lib.JsonText
import PipeLens.Payload

/-!
# Writing and reading JSON

`json.dumps(value, ensure_ascii=False)` with its default separators, and as much of
`json.loads` as is needed to read such a text back: white space between the parts is skipped,
but texts that are no JSON are not all refused.

How floats are written is an argument. Python writes the shortest text that it reads back as
the same number.
-/

namespace PipeLens

open JsonText

/-- The characters of a number. -/
def isNumberChar (c : Char) : Bool := c.isDigit || ['-', '+', '.', 'e', 'E'].contains c

/-- The characters that make a number a float. -/
def isFloatMark (c : Char) : Bool := ['.', 'e', 'E'].contains c

/-- `float.__repr__`, and `float` of such a text. -/
structure FloatText where
  repr : Rat → List Char
  parse : List Char → Option Rat
  parse_repr : ∀ q, parse (repr q) = some q
  begins : ∀ q, ∃ c text, repr q = c :: text ∧ (c.isDigit || c == '-') = true
  chars : ∀ q, ∀ c ∈ repr q, isNumberChar c = true
  marked : ∀ q, (repr q).any isFloatMark = true

namespace Json

/-! ## Writing -/

section Write

variable (floats : FloatText)

def dumpFloat : JsonFloat → List Char
  | .finite q => floats.repr q
  | .infinite true => "-Infinity".toList
  | .infinite false => "Infinity".toList
  | .nan => "NaN".toList

mutual

/-- `json.dumps(value, ensure_ascii=False)`. -/
def dumps : Json → List Char
  | .null => "null".toList
  | .bool true => "true".toList
  | .bool false => "false".toList
  | .int n => encodeInt n
  | .float x => dumpFloat floats x
  | .str s => encodeString s
  | .list items => '[' :: dumpItems items
  | .dict fields => '\x7b' :: dumpFields fields

/-- The items of a list and its end. -/
def dumpItems : List Json → List Char
  | [] => [']']
  | v :: vs => dumps v ++ dumpMoreItems vs

def dumpMoreItems : List Json → List Char
  | [] => [']']
  | v :: vs => ", ".toList ++ (dumps v ++ dumpMoreItems vs)

/-- The fields of a dictionary and its end. -/
def dumpFields : List (String × Json) → List Char
  | [] => ['\x7d']
  | (key, v) :: fields => encodeString key ++ (": ".toList ++ (dumps v ++ dumpMoreFields fields))

def dumpMoreFields : List (String × Json) → List Char
  | [] => ['\x7d']
  | (key, v) :: fields =>
      ", ".toList ++ (encodeString key ++ (": ".toList ++ (dumps v ++ dumpMoreFields fields)))

end

end Write

/-! ## Reading -/

section Read

variable (floats : FloatText)

def skipSpace (cs : List Char) : List Char := cs.dropWhile [' ', '\t', '\n', '\r'].contains

/-- A number, or `-Infinity`. -/
def readNumber (cs : List Char) : Option (Json × List Char) :=
  let text := cs.takeWhile isNumberChar
  let rest := cs.dropWhile isNumberChar
  if text = ['-'] then (expect "Infinity".toList rest).map fun rest => (.float (.infinite true), rest)
  else if text.any isFloatMark then
    (floats.parse text).map fun q => (.float (.finite q), rest)
  else
    match decodeInt text with
    | some (n, []) => some (.int n, rest)
    | _ => none

def literals : List (String × Json) :=
  [("null", .null), ("true", .bool true), ("false", .bool false), ("NaN", .float .nan),
    ("Infinity", .float (.infinite false))]

def readLiteral (cs : List Char) : Option (Json × List Char) :=
  literals.findSome? fun literal => (expect literal.1.toList cs).map fun rest => (literal.2, rest)

mutual

/-- One value and the text behind it; the first argument bounds the length. -/
def readValue : Nat → List Char → Option (Json × List Char)
  | 0, _ => none
  | n + 1, cs =>
      match skipSpace cs with
      | [] => none
      | c :: cs =>
          if c = '"' then (decodeString (c :: cs)).map fun p => (.str p.1, p.2)
          else if c = '[' then (readItems n cs).map fun p => (.list p.1, p.2)
          else if c = '\x7b' then (readFields n cs).map fun p => (.dict p.1, p.2)
          else if c.isDigit || c == '-' then readNumber floats (c :: cs)
          else readLiteral (c :: cs)

/-- What follows the bracket that opens a list. -/
def readItems : Nat → List Char → Option (List Json × List Char)
  | 0, _ => none
  | n + 1, cs =>
      match expect [']'] (skipSpace cs) with
      | some rest => some ([], rest)
      | none =>
          match readValue n cs with
          | none => none
          | some (v, rest) => (readMoreItems n rest).map fun p => (v :: p.1, p.2)

def readMoreItems : Nat → List Char → Option (List Json × List Char)
  | 0, _ => none
  | n + 1, cs =>
      match expect [']'] (skipSpace cs) with
      | some rest => some ([], rest)
      | none =>
          match (expect [','] (skipSpace cs)).bind (readValue n) with
          | none => none
          | some (v, rest) => (readMoreItems n rest).map fun p => (v :: p.1, p.2)

/-- A key, a colon and a value. -/
def readField : Nat → List Char → Option ((String × Json) × List Char)
  | 0, _ => none
  | n + 1, cs =>
      match decodeString (skipSpace cs) with
      | none => none
      | some (key, rest) =>
          match (expect [':'] (skipSpace rest)).bind (readValue n) with
          | none => none
          | some (v, rest) => some ((key, v), rest)

/-- What follows the brace that opens a dictionary. -/
def readFields : Nat → List Char → Option (List (String × Json) × List Char)
  | 0, _ => none
  | n + 1, cs =>
      match expect ['\x7d'] (skipSpace cs) with
      | some rest => some ([], rest)
      | none =>
          match readField n cs with
          | none => none
          | some (field, rest) => (readMoreFields n rest).map fun p => (field :: p.1, p.2)

def readMoreFields : Nat → List Char → Option (List (String × Json) × List Char)
  | 0, _ => none
  | n + 1, cs =>
      match expect ['\x7d'] (skipSpace cs) with
      | some rest => some ([], rest)
      | none =>
          match (expect [','] (skipSpace cs)).bind (readField n) with
          | none => none
          | some (field, rest) => (readMoreFields n rest).map fun p => (field :: p.1, p.2)

end

/-- `json.loads`. -/
def loads (cs : List Char) : Option Json :=
  match readValue floats (cs.length + 1) cs with
  | some (v, rest) => if (skipSpace rest).isEmpty then some v else none
  | none => none

end Read

/-! ## Reading back -/

section ReadBack

variable {floats : FloatText}

/-- What follows a number does not continue it. -/
def NotNumber (cs : List Char) : Prop := ∀ c ∈ cs.head?, isNumberChar c = false

/-- The characters that a value can begin with. -/
def isOpening (c : Char) : Bool :=
  c.isDigit || ['"', '[', '\x7b', '-', 'n', 't', 'f', 'N', 'I'].contains c

theorem isOpening_cases {c : Char} (h : isOpening c = true) :
    [' ', '\t', '\n', '\r'].contains c = false ∧ c ≠ ']' := by
  unfold isOpening at h
  rw [Bool.or_eq_true, List.contains_iff_mem] at h
  rcases h with hdigit | hmem
  · refine ⟨Bool.eq_false_iff.mpr fun hspace => ?_, fun heq => ?_⟩
    · rw [List.contains_iff_mem] at hspace
      simp only [List.mem_cons, List.not_mem_nil, or_false] at hspace
      rcases hspace with rfl | rfl | rfl | rfl <;> exact absurd hdigit (by decide)
    · rw [heq] at hdigit
      exact absurd hdigit (by decide)
  · simp only [List.mem_cons, List.not_mem_nil, or_false] at hmem
    rcases hmem with rfl | rfl | rfl | rfl | rfl | rfl | rfl | rfl | rfl <;> decide

theorem encodeInt_begins (n : Int) : ∃ c text, encodeInt n = c :: text
    ∧ (c.isDigit || c == '-') = true := by
  cases n with
  | ofNat n =>
      obtain ⟨c, text, htext⟩ := List.exists_cons_of_ne_nil
        (Nat.toDigits_ne_nil (n := n) (b := 10))
      have hdigit := isDigit_toDigits n c (by rw [htext]; exact List.mem_cons_self)
      exact ⟨c, text, htext, by rw [hdigit, Bool.true_or]⟩
  | negSucc n => exact ⟨'-', _, rfl, rfl⟩

theorem encodeInt_chars (n : Int) : ∀ c ∈ encodeInt n, isNumberChar c = true := by
  have hdigits : ∀ n : Nat, ∀ c ∈ Nat.toDigits 10 n, isNumberChar c = true := by
    intro n c hc
    rw [isNumberChar, isDigit_toDigits n c hc, Bool.true_or]
  cases n with
  | ofNat n => exact hdigits n
  | negSucc n => exact List.forall_mem_cons.mpr ⟨by decide, hdigits (n + 1)⟩

/-- Every value begins with one of these. -/
theorem dumps_begins (v : Json) : ∃ c text, dumps floats v = c :: text ∧ isOpening c = true := by
  have hnumber : ∀ {c : Char}, (c.isDigit || c == '-') = true → isOpening c = true := by
    intro c hc
    unfold isOpening
    rcases Bool.or_eq_true_iff.mp hc with hdigit | hminus
    · rw [hdigit, Bool.true_or]
    · rw [beq_iff_eq.mp hminus]
      decide
  cases v with
  | null => exact ⟨'n', "ull".toList, rfl, by decide⟩
  | bool b =>
      cases b with
      | false => exact ⟨'f', "alse".toList, rfl, by decide⟩
      | true => exact ⟨'t', "rue".toList, rfl, by decide⟩
  | int n =>
      obtain ⟨c, text, htext, hc⟩ := encodeInt_begins n
      exact ⟨c, text, by rw [dumps, htext], hnumber hc⟩
  | float x =>
      cases x with
      | finite q =>
          obtain ⟨c, text, htext, hc⟩ := floats.begins q
          exact ⟨c, text, htext, hnumber hc⟩
      | infinite negative =>
          cases negative with
          | false => exact ⟨'I', "nfinity".toList, rfl, by decide⟩
          | true => exact ⟨'-', "Infinity".toList, rfl, by decide⟩
      | nan => exact ⟨'N', "aN".toList, rfl, by decide⟩
  | str s => exact ⟨'"', s.toList.flatMap escapeChar ++ ['"'], dumps.eq_6 .., by decide⟩
  | list items => exact ⟨'[', dumpItems floats items, dumps.eq_7 .., by decide⟩
  | dict fields => exact ⟨'\x7b', dumpFields floats fields, dumps.eq_8 .., by decide⟩

theorem length_dumps_pos (v : Json) : 0 < (dumps floats v).length := by
  obtain ⟨c, text, htext, _⟩ := @dumps_begins floats v
  rw [htext, List.length_cons]
  exact Nat.succ_pos _

theorem skipSpace_opening {c : Char} (h : isOpening c = true) (cs : List Char) :
    skipSpace (c :: cs) = c :: cs := by
  unfold skipSpace
  rw [List.dropWhile_cons, (isOpening_cases h).1]
  rfl

theorem skipSpace_dumps (v : Json) (rest : List Char) :
    skipSpace (dumps floats v ++ rest) = dumps floats v ++ rest := by
  obtain ⟨c, text, htext, hc⟩ := @dumps_begins floats v
  rw [htext, List.cons_append, skipSpace_opening hc]

theorem skipSpace_encodeString (s : String) (rest : List Char) :
    skipSpace (encodeString s ++ rest) = encodeString s ++ rest := by
  rw [encodeString, List.cons_append, skipSpace_opening (by decide)]

theorem expect_ne {c d : Char} (h : c ≠ d) (cs : List Char) : expect [c] (d :: cs) = none := by
  unfold expect
  rw [if_neg]
  simp [List.isPrefixOf, h]

theorem expect_bracket_dumps (v : Json) (rest : List Char) :
    expect [']'] (dumps floats v ++ rest) = none := by
  obtain ⟨c, text, htext, hc⟩ := @dumps_begins floats v
  rw [htext, List.cons_append, expect_ne (isOpening_cases hc).2.symm]

/-- Numbers are read to their end. -/
theorem readNumber_text {text rest : List Char} (hchars : ∀ c ∈ text, isNumberChar c = true)
    (hrest : NotNumber rest) :
    (text ++ rest).takeWhile isNumberChar = text
      ∧ (text ++ rest).dropWhile isNumberChar = rest := by
  have hstop : rest.takeWhile isNumberChar = [] ∧ rest.dropWhile isNumberChar = rest := by
    cases rest with
    | nil => exact ⟨rfl, rfl⟩
    | cons c rest =>
        have hc : isNumberChar c = false := hrest c rfl
        rw [List.takeWhile_cons, List.dropWhile_cons, hc]
        exact ⟨rfl, rfl⟩
  rw [List.takeWhile_append_of_pos hchars, List.dropWhile_append_of_pos hchars, hstop.1, hstop.2,
    List.append_nil]
  exact ⟨rfl, rfl⟩

theorem readNumber_int (n : Int) {rest : List Char} (hrest : NotNumber rest) :
    readNumber floats (encodeInt n ++ rest) = some (.int n, rest) := by
  obtain ⟨htext, hdrop⟩ := readNumber_text (encodeInt_chars n) hrest
  have hmark : ∀ m : Nat, (Nat.toDigits 10 m).any isFloatMark = false := by
    intro m
    refine List.any_eq_false.mpr fun c hc hmark => ?_
    have hdigit := isDigit_toDigits m c hc
    rw [isFloatMark, List.contains_iff_mem] at hmark
    simp only [List.mem_cons, List.not_mem_nil, or_false] at hmark
    rcases hmark with rfl | rfl | rfl <;> exact absurd hdigit (by decide)
  have hplain : (encodeInt n).any isFloatMark = false := by
    cases n with
    | ofNat n => exact hmark n
    | negSucc n =>
        rw [encodeInt, List.any_cons, hmark]
        decide
  have hlong : encodeInt n ≠ ['-'] := by
    cases n with
    | ofNat n =>
        intro heq
        have hdigit := isDigit_toDigits n '-' (by
          show '-' ∈ encodeInt (.ofNat n)
          rw [heq]
          exact List.mem_cons_self)
        exact absurd hdigit (by decide)
    | negSucc n => exact fun heq => Nat.toDigits_ne_nil (List.cons.inj heq).2
  have hend : NoDigit [] := fun c hc => by cases hc
  have hdecode := decodeInt_encodeInt n hend
  rw [List.append_nil] at hdecode
  unfold readNumber
  dsimp only
  rw [htext, hdrop, if_neg hlong, hplain, if_neg Bool.false_ne_true, hdecode]

theorem readNumber_finite (q : Rat) {rest : List Char} (hrest : NotNumber rest) :
    readNumber floats (floats.repr q ++ rest) = some (.float (.finite q), rest) := by
  obtain ⟨htext, hdrop⟩ := readNumber_text (floats.chars q) hrest
  have hlong : floats.repr q ≠ ['-'] := by
    intro heq
    have hmarked := floats.marked q
    rw [heq] at hmarked
    exact absurd hmarked (by decide)
  unfold readNumber
  dsimp only
  rw [htext, hdrop, if_neg hlong, if_pos (floats.marked q), floats.parse_repr]
  rfl

theorem notNumber_cons {c : Char} (h : isNumberChar c = false) (cs : List Char) :
    NotNumber (c :: cs) := by
  intro d hd
  rw [← Option.some.inj hd]
  exact h

theorem notNumber_moreItems (vs : List Json) (rest : List Char) :
    NotNumber (dumpMoreItems floats vs ++ rest) := by
  cases vs with
  | nil => exact notNumber_cons (by decide) rest
  | cons v vs =>
      rw [dumpMoreItems]
      exact notNumber_cons (by decide) _

theorem notNumber_moreFields (fields : List (String × Json)) (rest : List Char) :
    NotNumber (dumpMoreFields floats fields ++ rest) := by
  cases fields with
  | nil => exact notNumber_cons (by decide) rest
  | cons field fields =>
      rw [dumpMoreFields]
      exact notNumber_cons (by decide) _

/-- A number behind its first character. -/
theorem readValue_number {n : Nat} {text rest : List Char} {c : Char}
    (hc : (c.isDigit || c == '-') = true) :
    readValue floats (n + 1) (c :: text ++ rest) = readNumber floats (c :: text ++ rest) := by
  have hopening : isOpening c = true := by
    unfold isOpening
    rcases Bool.or_eq_true_iff.mp hc with hdigit | hminus
    · rw [hdigit, Bool.true_or]
    · rw [beq_iff_eq.mp hminus]
      decide
  have hne : ∀ d : Char, (d.isDigit || d == '-') = false → c ≠ d := by
    intro d hd heq
    rw [heq, hd] at hc
    cases hc
  rw [List.cons_append, readValue, skipSpace_opening hopening]
  dsimp only
  rw [if_neg (hne _ (by decide)), if_neg (hne _ (by decide)), if_neg (hne _ (by decide)),
    if_pos hc]

/-- What can be read back with a bound. -/
structure ReadsBack (floats : FloatText) (n : Nat) : Prop where
  value : ∀ v rest, (dumps floats v).length ≤ n → NotNumber rest →
    readValue floats n (dumps floats v ++ rest) = some (v, rest)
  items : ∀ vs rest, (dumpItems floats vs).length ≤ n →
    readItems floats n (dumpItems floats vs ++ rest) = some (vs, rest)
  moreItems : ∀ vs rest, (dumpMoreItems floats vs).length ≤ n →
    readMoreItems floats n (dumpMoreItems floats vs ++ rest) = some (vs, rest)
  field : ∀ key v rest, (dumps floats v).length < n → NotNumber rest →
    readField floats n (encodeString key ++ (": ".toList ++ (dumps floats v ++ rest)))
      = some ((key, v), rest)
  fields : ∀ fields rest, (dumpFields floats fields).length ≤ n →
    readFields floats n (dumpFields floats fields ++ rest) = some (fields, rest)
  moreFields : ∀ fields rest, (dumpMoreFields floats fields).length ≤ n →
    readMoreFields floats n (dumpMoreFields floats fields ++ rest) = some (fields, rest)

theorem readsBack_zero : ReadsBack floats 0 where
  value v rest h _ := absurd (length_dumps_pos v) (Nat.not_lt.mpr h)
  items vs rest h := by
    cases vs with
    | nil => exact absurd h (Nat.not_succ_le_zero 0)
    | cons v vs =>
        rw [dumpItems, List.length_append] at h
        have hv := @length_dumps_pos floats v
        omega
  moreItems vs rest h := by
    cases vs with
    | nil => exact absurd h (Nat.not_succ_le_zero 0)
    | cons v vs =>
        rw [dumpMoreItems, List.length_append] at h
        exact absurd h (by simp)
  field key v rest h _ := absurd h (Nat.not_lt_zero _)
  fields fields rest h := by
    cases fields with
    | nil => exact absurd h (Nat.not_succ_le_zero 0)
    | cons field fields =>
        rw [dumpFields, encodeString, List.length_append] at h
        exact absurd h (by simp)
  moreFields fields rest h := by
    cases fields with
    | nil => exact absurd h (Nat.not_succ_le_zero 0)
    | cons field fields =>
        rw [dumpMoreFields, List.length_append] at h
        exact absurd h (by simp)

variable {n : Nat}

theorem ReadsBack.value_succ (h : ReadsBack floats n) (v : Json) (rest : List Char)
    (hn : (dumps floats v).length ≤ n + 1) (hrest : NotNumber rest) :
    readValue floats (n + 1) (dumps floats v ++ rest) = some (v, rest) := by
  cases v with
  | null => rfl
  | bool b =>
      cases b with
      | false => rfl
      | true => rfl
  | int m =>
      obtain ⟨c, text, htext, hc⟩ := encodeInt_begins m
      rw [dumps, htext, readValue_number hc, ← htext, readNumber_int m hrest]
  | float x =>
      cases x with
      | finite q =>
          obtain ⟨c, text, htext, hc⟩ := floats.begins q
          have hwritten : dumps floats (.float (.finite q)) = floats.repr q := rfl
          rw [hwritten, htext, readValue_number hc, ← htext, readNumber_finite q hrest]
      | infinite negative =>
          cases negative with
          | false => rfl
          | true => rfl
      | nan => rfl
  | str s =>
      rw [dumps, readValue, skipSpace_encodeString]
      have hread := decodeString_encodeString s rest
      rw [encodeString, List.cons_append] at hread ⊢
      dsimp only
      rw [if_pos rfl, hread]
      rfl
  | list items =>
      have hlength : (dumpItems floats items).length ≤ n := by
        rw [dumps, List.length_cons] at hn
        omega
      have hitems := h.items items rest hlength
      rw [dumps, List.cons_append, readValue, skipSpace_opening (by decide)]
      dsimp only
      rw [if_neg (by decide), if_pos rfl, hitems]
      rfl
  | dict fields =>
      have hlength : (dumpFields floats fields).length ≤ n := by
        rw [dumps, List.length_cons] at hn
        omega
      have hfields := h.fields fields rest hlength
      rw [dumps, List.cons_append, readValue, skipSpace_opening (by decide)]
      dsimp only
      rw [if_neg (by decide), if_neg (by decide), if_pos rfl, hfields]
      rfl

theorem length_dumpMoreItems_pos (vs : List Json) : 0 < (dumpMoreItems floats vs).length := by
  cases vs with
  | nil => exact Nat.succ_pos _
  | cons v vs =>
      rw [dumpMoreItems, List.length_append, show ", ".toList.length = 2 from rfl]
      omega

theorem length_dumpMoreFields_pos (fields : List (String × Json)) :
    0 < (dumpMoreFields floats fields).length := by
  cases fields with
  | nil => exact Nat.succ_pos _
  | cons field fields =>
      rw [dumpMoreFields, List.length_append, show ", ".toList.length = 2 from rfl]
      omega

theorem ReadsBack.items_succ (h : ReadsBack floats n) (vs : List Json) (rest : List Char)
    (hn : (dumpItems floats vs).length ≤ n + 1) :
    readItems floats (n + 1) (dumpItems floats vs ++ rest) = some (vs, rest) := by
  cases vs with
  | nil => rfl
  | cons v vs =>
      have hv := @length_dumps_pos floats v
      have hvs := @length_dumpMoreItems_pos floats vs
      rw [dumpItems, List.length_append] at hn
      have hvalue := h.value v (dumpMoreItems floats vs ++ rest) (by omega)
        (notNumber_moreItems vs rest)
      have hmore := h.moreItems vs rest (by omega)
      rw [dumpItems, List.append_assoc, readItems, skipSpace_dumps, expect_bracket_dumps]
      dsimp only
      rw [hvalue]
      dsimp only
      rw [hmore]
      rfl

/-- The space behind a comma or a colon. -/
theorem readValue_space (cs : List Char) :
    readValue floats n (' ' :: cs) = readValue floats n cs := by
  cases n with
  | zero => rfl
  | succ n => rfl

theorem readField_space (cs : List Char) :
    readField floats n (' ' :: cs) = readField floats n cs := by
  cases n with
  | zero => rfl
  | succ n => rfl

theorem ReadsBack.moreItems_succ (h : ReadsBack floats n) (vs : List Json) (rest : List Char)
    (hn : (dumpMoreItems floats vs).length ≤ n + 1) :
    readMoreItems floats (n + 1) (dumpMoreItems floats vs ++ rest) = some (vs, rest) := by
  cases vs with
  | nil => rfl
  | cons v vs =>
      have hcomma : ", ".toList.length = 2 := rfl
      have hvs := @length_dumpMoreItems_pos floats vs
      rw [dumpMoreItems, List.length_append, List.length_append, hcomma] at hn
      have hvalue := h.value v (dumpMoreItems floats vs ++ rest) (by omega)
        (notNumber_moreItems vs rest)
      have hmore := h.moreItems vs rest (by omega)
      have hread : readMoreItems floats (n + 1) (dumpMoreItems floats (v :: vs) ++ rest)
          = match readValue floats n
              (' ' :: (dumps floats v ++ dumpMoreItems floats vs ++ rest)) with
            | none => none
            | some (v, rest) => (readMoreItems floats n rest).map fun p => (v :: p.1, p.2) := by
        rw [dumpMoreItems]
        rfl
      rw [hread, readValue_space, List.append_assoc, hvalue]
      dsimp only
      rw [hmore]
      rfl

theorem ReadsBack.field_succ (h : ReadsBack floats n) (key : String) (v : Json) (rest : List Char)
    (hn : (dumps floats v).length < n + 1) (hrest : NotNumber rest) :
    readField floats (n + 1) (encodeString key ++ (": ".toList ++ (dumps floats v ++ rest)))
      = some ((key, v), rest) := by
  have hvalue := h.value v rest (Nat.le_of_lt_succ hn) hrest
  have hcolon : expect [':'] (skipSpace (": ".toList ++ (dumps floats v ++ rest)))
      = some (' ' :: (dumps floats v ++ rest)) := rfl
  rw [readField, skipSpace_encodeString, decodeString_encodeString]
  dsimp only
  rw [hcolon, Option.bind_some, readValue_space, hvalue]

theorem ReadsBack.fields_succ (h : ReadsBack floats n) (fields : List (String × Json))
    (rest : List Char) (hn : (dumpFields floats fields).length ≤ n + 1) :
    readFields floats (n + 1) (dumpFields floats fields ++ rest) = some (fields, rest) := by
  cases fields with
  | nil => rfl
  | cons field fields =>
      obtain ⟨key, v⟩ := field
      have hcolon : ": ".toList.length = 2 := rfl
      have hkey : 2 ≤ (encodeString key).length := by
        rw [encodeString, List.length_cons, List.length_append, List.length_singleton]
        omega
      have hmorePos := @length_dumpMoreFields_pos floats fields
      rw [dumpFields, List.length_append, List.length_append, List.length_append, hcolon] at hn
      have hfield := h.field key v (dumpMoreFields floats fields ++ rest) (by omega)
        (notNumber_moreFields fields rest)
      have hmore := h.moreFields fields rest (by omega)
      have hbrace : ∀ cs, expect ['\x7d'] (encodeString key ++ cs) = none :=
        fun cs => expect_ne (by decide) _
      rw [dumpFields, List.append_assoc, List.append_assoc, List.append_assoc, readFields,
        skipSpace_encodeString, hbrace]
      dsimp only
      rw [hfield]
      dsimp only
      rw [hmore]
      rfl

theorem ReadsBack.moreFields_succ (h : ReadsBack floats n) (fields : List (String × Json))
    (rest : List Char) (hn : (dumpMoreFields floats fields).length ≤ n + 1) :
    readMoreFields floats (n + 1) (dumpMoreFields floats fields ++ rest) = some (fields, rest) := by
  cases fields with
  | nil => rfl
  | cons field fields =>
      obtain ⟨key, v⟩ := field
      have hcomma : ", ".toList.length = 2 := rfl
      have hcolon : ": ".toList.length = 2 := rfl
      have hmorePos := @length_dumpMoreFields_pos floats fields
      rw [dumpMoreFields, List.length_append, List.length_append, List.length_append,
        List.length_append, hcomma, hcolon] at hn
      have hfield := h.field key v (dumpMoreFields floats fields ++ rest) (by omega)
        (notNumber_moreFields fields rest)
      have hmore := h.moreFields fields rest (by omega)
      have hread : readMoreFields floats (n + 1) (dumpMoreFields floats ((key, v) :: fields) ++ rest)
          = match readField floats n (' ' :: (encodeString key ++ (": ".toList
              ++ (dumps floats v ++ dumpMoreFields floats fields)) ++ rest)) with
            | none => none
            | some (field, rest) =>
                (readMoreFields floats n rest).map fun p => (field :: p.1, p.2) := by
        rw [dumpMoreFields]
        rfl
      rw [hread, readField_space, List.append_assoc, List.append_assoc, List.append_assoc, hfield]
      dsimp only
      rw [hmore]
      rfl

theorem readsBack (floats : FloatText) (n : Nat) : ReadsBack floats n := by
  induction n with
  | zero => exact readsBack_zero
  | succ n ih =>
      exact ⟨ih.value_succ, ih.items_succ, ih.moreItems_succ, ih.field_succ, ih.fields_succ,
        ih.moreFields_succ⟩

/-- **What is written is read back.** -/
theorem loads_dumps (floats : FloatText) (v : Json) : loads floats (dumps floats v) = some v := by
  have hread := (readsBack floats ((dumps floats v).length + 1)).value v [] (Nat.le_succ _)
    fun c hc => by cases hc
  rw [List.append_nil] at hread
  unfold loads
  rw [hread]
  rfl

end ReadBack

/-! ## A way of writing floats -/

/-- Reads a numerator, a point and a denominator. -/
def parseFraction (cs : List Char) : Option Rat :=
  match decodeInt cs with
  | some (numerator, '.' :: rest) => (decodeNat rest).map fun p => mkRat numerator p.1
  | _ => none

/-- Numerator and denominator with a point between them: not what Python writes, but it can be
read back. -/
def fractionText : FloatText where
  repr q := encodeInt q.num ++ '.' :: Nat.toDigits 10 q.den
  parse := parseFraction
  parse_repr q := by
    have hdigits : NoDigit ('.' :: Nat.toDigits 10 q.den) := by
      intro c hc
      rw [← Option.some.inj hc]
      decide
    have hend : NoDigit [] := fun c hc => by cases hc
    have hden := decodeNat_toDigits q.den hend
    rw [List.append_nil] at hden
    unfold parseFraction
    rw [decodeInt_encodeInt q.num hdigits]
    show (decodeNat (Nat.toDigits 10 q.den)).map _ = some q
    rw [hden, Option.map_some, Rat.mkRat_self]
  begins q := by
    obtain ⟨c, text, htext, hc⟩ := encodeInt_begins q.num
    exact ⟨c, _, by rw [htext, List.cons_append], hc⟩
  chars q := by
    refine List.forall_mem_append.mpr ⟨encodeInt_chars q.num, ?_⟩
    refine List.forall_mem_cons.mpr ⟨by decide, fun c hc => ?_⟩
    rw [isNumberChar, isDigit_toDigits q.den c hc, Bool.true_or]
  marked q := by
    rw [List.any_append, List.any_cons]
    simp [isFloatMark]

instance : Nonempty FloatText := ⟨fractionText⟩

end Json

end PipeLens
