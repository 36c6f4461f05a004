import Mathlib.Data.List.Basic

/-!
# Reading back compact JSON

Writers and readers for the two scalar shapes of compact JSON, integers and
strings, on character lists. Each reader consumes what its writer produced and
returns the rest of the input, so that a record written field by field is read
back field by field.

Strings are escaped the way compact serializers do it: the two-character escapes
where JSON has one, `\u00XX` for the remaining control characters, and every other
character as it stands.
-/

namespace JsonText

/-- Consumes a fixed text. -/
def expect (lit cs : List Char) : Option (List Char) :=
  if lit.isPrefixOf cs then some (cs.drop lit.length) else none

theorem expect_append (lit cs : List Char) : expect lit (lit ++ cs) = some cs := by
  unfold expect
  rw [if_pos (List.isPrefixOf_iff_prefix.mpr (List.prefix_append lit cs)), List.drop_left]

/-! ## Integers -/

def encodeInt : Int → List Char
  | .ofNat n => Nat.toDigits 10 n
  | .negSucc n => '-' :: Nat.toDigits 10 (n + 1)

def decodeNat (cs : List Char) : Option (Nat × List Char) :=
  match cs.takeWhile Char.isDigit with
  | [] => none
  | ds => some (Nat.ofDigitChars 10 ds 0, cs.dropWhile Char.isDigit)

def decodeInt : List Char → Option (Int × List Char)
  | [] => none
  | c :: cs =>
      if c = '-' then (decodeNat cs).map fun p => (-(p.1 : Int), p.2)
      else (decodeNat (c :: cs)).map fun p => ((p.1 : Int), p.2)

/-- What follows a number does not continue it. -/
def NoDigit (cs : List Char) : Prop := ∀ c ∈ cs.head?, c.isDigit = false

theorem noDigit_append {lit : List Char} (h : lit.head?.map Char.isDigit = some false)
    (cs : List Char) : NoDigit (lit ++ cs) := by
  cases lit with
  | nil => exact absurd h (by simp)
  | cons c lit =>
      intro c' hc'
      rw [← Option.some.inj hc']
      simpa using h

theorem isDigit_toDigits (n : Nat) : ∀ c ∈ Nat.toDigits 10 n, c.isDigit = true :=
  fun _ hc => Nat.isDigit_of_mem_toDigits (by decide) (by decide) hc

theorem takeWhile_rest {rest : List Char} (h : NoDigit rest) :
    rest.takeWhile Char.isDigit = [] ∧ rest.dropWhile Char.isDigit = rest := by
  cases rest with
  | nil => exact ⟨rfl, rfl⟩
  | cons c cs =>
      have hc : c.isDigit = false := h c (by simp)
      simp [hc]

theorem decodeNat_toDigits (n : Nat) {rest : List Char} (h : NoDigit rest) :
    decodeNat (Nat.toDigits 10 n ++ rest) = some (n, rest) := by
  unfold decodeNat
  rw [List.takeWhile_append_of_pos (isDigit_toDigits n), (takeWhile_rest h).1, List.append_nil,
    List.dropWhile_append_of_pos (isDigit_toDigits n), (takeWhile_rest h).2]
  have hne : Nat.toDigits 10 n ≠ [] := Nat.toDigits_ne_nil
  split
  · rename_i he
    exact absurd he hne
  · rw [Nat.ofDigitChars_ten_toDigits]

/-- **Integers are read back.** -/
theorem decodeInt_encodeInt (n : Int) {rest : List Char} (h : NoDigit rest) :
    decodeInt (encodeInt n ++ rest) = some (n, rest) := by
  cases n with
  | ofNat n =>
      have hd := decodeNat_toDigits n h
      show decodeInt (Nat.toDigits 10 n ++ rest) = _
      cases hds : Nat.toDigits 10 n with
      | nil => exact absurd hds Nat.toDigits_ne_nil
      | cons c cs =>
          have hc : c ≠ '-' := by
            intro he
            have := isDigit_toDigits n c (by rw [hds]; simp)
            rw [he] at this
            exact absurd this (by decide)
          rw [hds] at hd
          simp only [List.cons_append] at hd ⊢
          rw [decodeInt, if_neg hc, hd]
          rfl
  | negSucc n =>
      show decodeInt ('-' :: (Nat.toDigits 10 (n + 1) ++ rest)) = _
      rw [decodeInt, if_pos rfl, decodeNat_toDigits (n + 1) h]
      rfl

/-! ## Strings -/

def escapeChar (c : Char) : List Char :=
  if c = '"' then ['\\', '"']
  else if c = '\\' then ['\\', '\\']
  else if c = '\n' then ['\\', 'n']
  else if c = '\r' then ['\\', 'r']
  else if c = '\t' then ['\\', 't']
  else if c.toNat = 8 then ['\\', 'b']
  else if c.toNat = 12 then ['\\', 'f']
  else if c.toNat < 32 then
    ['\\', 'u', '0', '0', Nat.digitChar (c.toNat / 16), Nat.digitChar (c.toNat % 16)]
  else [c]

def hexValue (c : Char) : Nat :=
  if c.isDigit then c.toNat - '0'.toNat else c.toNat - 'a'.toNat + 10

def decodeEscape : List Char → Option (Char × List Char)
  | [] => none
  | c :: cs =>
      if c = '"' then some ('"', cs)
      else if c = '\\' then some ('\\', cs)
      else if c = 'n' then some ('\n', cs)
      else if c = 'r' then some ('\r', cs)
      else if c = 't' then some ('\t', cs)
      else if c = 'b' then some (Char.ofNat 8, cs)
      else if c = 'f' then some (Char.ofNat 12, cs)
      else if c = 'u' then
        match cs with
        | _ :: _ :: a :: b :: rest => some (Char.ofNat (16 * hexValue a + hexValue b), rest)
        | _ => none
      else none

/-- One character of a string body, escaped or not. -/
def decodeChar : List Char → Option (Char × List Char)
  | [] => none
  | c :: cs => if c = '\\' then decodeEscape cs else some (c, cs)

/-- A string body up to its closing quote. -/
def decodeBody : Nat → List Char → Option (List Char × List Char)
  | 0, _ => none
  | fuel + 1, cs =>
      match expect ['"'] cs with
      | some rest => some ([], rest)
      | none =>
          match decodeChar cs with
          | none => none
          | some (c, rest) => (decodeBody fuel rest).map fun p => (c :: p.1, p.2)

def encodeString (s : String) : List Char := '"' :: (s.toList.flatMap escapeChar ++ ['"'])

def decodeString (cs : List Char) : Option (String × List Char) :=
  match expect ['"'] cs with
  | none => none
  | some rest => (decodeBody rest.length rest).map fun p => (String.ofList p.1, p.2)

theorem hexValue_digitChar : ∀ n, n < 16 → hexValue (Nat.digitChar n) = n := by decide

theorem decodeChar_escapeChar (c : Char) (rest : List Char) :
    decodeChar (escapeChar c ++ rest) = some (c, rest) := by
  unfold escapeChar
  split
  · rename_i h; rw [h]; rfl
  split
  · rename_i h; rw [h]; rfl
  split
  · rename_i h; rw [h]; rfl
  split
  · rename_i h; rw [h]; rfl
  split
  · rename_i h; rw [h]; rfl
  split
  · rename_i h
    have hc : c = Char.ofNat 8 := by rw [← Char.ofNat_toNat c, h]
    rw [hc]; rfl
  split
  · rename_i h
    have hc : c = Char.ofNat 12 := by rw [← Char.ofNat_toNat c, h]
    rw [hc]; rfl
  split
  · rename_i h
    show some (Char.ofNat (16 * hexValue _ + hexValue _), rest) = _
    rw [hexValue_digitChar _ (by omega), hexValue_digitChar _ (Nat.mod_lt _ (by decide)),
      Nat.div_add_mod, Char.ofNat_toNat]
  · rename_i h₂ _ _ _ _ _ _
    show (if c = '\\' then decodeEscape rest else some (c, rest)) = _
    rw [if_neg h₂]

/-- An escaped character never starts with the closing quote. -/
theorem escapeChar_ne_quote (c : Char) (rest : List Char) :
    expect ['"'] (escapeChar c ++ rest) = none := by
  unfold escapeChar
  split
  · rfl
  · rename_i h
    repeat' split
    all_goals first
      | rfl
      | (unfold expect
         rw [if_neg]
         simp [List.isPrefixOf, Ne.symm h])

theorem length_escapeChar_pos (c : Char) : 1 ≤ (escapeChar c).length := by
  unfold escapeChar
  repeat' split
  all_goals simp

theorem length_flatMap_escapeChar (s : List Char) : s.length ≤ (s.flatMap escapeChar).length := by
  induction s with
  | nil => simp
  | cons c s ih =>
      rw [List.flatMap_cons, List.length_append, List.length_cons]
      have := length_escapeChar_pos c
      omega

theorem decodeBody_flatMap (s rest : List Char) : ∀ fuel, s.length < fuel →
    decodeBody fuel (s.flatMap escapeChar ++ '"' :: rest) = some (s, rest) := by
  induction s with
  | nil =>
      intro fuel h
      cases fuel with
      | zero => exact absurd h (by simp)
      | succ fuel =>
          show decodeBody (fuel + 1) (['"'] ++ rest) = _
          rw [decodeBody, expect_append]
  | cons c s ih =>
      intro fuel h
      cases fuel with
      | zero => exact absurd h (by simp)
      | succ fuel =>
          rw [List.flatMap_cons, List.append_assoc, decodeBody, escapeChar_ne_quote,
            decodeChar_escapeChar]
          simp only
          rw [ih fuel (by simp only [List.length_cons] at h; omega)]
          rfl

/-- **Strings are read back.** -/
theorem decodeString_encodeString (s : String) (rest : List Char) :
    decodeString (encodeString s ++ rest) = some (s, rest) := by
  have hq : encodeString s ++ rest = ['"'] ++ (s.toList.flatMap escapeChar ++ '"' :: rest) := by
    simp [encodeString]
  unfold decodeString
  rw [hq, expect_append]
  simp only
  rw [decodeBody_flatMap, Option.map_some, String.ofList_toList]
  have := length_flatMap_escapeChar s.toList
  rw [List.length_append, List.length_cons]
  omega

end JsonText
