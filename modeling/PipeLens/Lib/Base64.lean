import Mathlib.Data.List.DropRight

/-!
# Base64

Bytes are written in groups of three, each as four characters that stand for six bits; a last
group that is shorter is filled up with `=`. The reader takes one character after the other
and keeps the bits that do not make a byte yet. It is strict: it refuses every other character,
and whatever follows the padding.

The last two characters of the alphabet are those of file names and URLs, and the reader takes
the original ones for them as well.

Without its padding a text can be filled up again from its length alone, and what was written
is read back.
-/

namespace Base64

/-- The characters for six bits, in order. -/
def alphabet : List Char :=
  "ABCDEFGHIJKLMNOPQRSTUVWXYZabcdefghijklmnopqrstuvwxyz0123456789-_".toList

def charOf (v : Nat) : Char := alphabet.getD v 'A'

/-- The original spelling of the last two characters. -/
def normal (c : Char) : Char := if c = '+' then '-' else if c = '/' then '_' else c

def valueOf (c : Char) : Option Nat := alphabet.idxOf? (normal c)

/-! ## Writing -/

/-- `base64.urlsafe_b64encode`. -/
def encode : List UInt8 → List Char
  | [] => []
  | [a] => [charOf (a.toNat / 4), charOf (a.toNat % 4 * 16), '=', '=']
  | [a, b] =>
      [charOf (a.toNat / 4), charOf (a.toNat % 4 * 16 + b.toNat / 16),
        charOf (b.toNat % 16 * 4), '=']
  | a :: b :: c :: bytes =>
      charOf (a.toNat / 4) :: charOf (a.toNat % 4 * 16 + b.toNat / 16)
        :: charOf (b.toNat % 16 * 4 + c.toNat / 64) :: charOf (c.toNat % 64) :: encode bytes

/-! ## Reading -/

/-- The bytes of a text: `position` characters of the group were read, `left` are the bits that
remain of them, and `pads` counts padding. -/
def decodeLoop (position left pads : Nat) (started : Bool) : List Char → Option (List UInt8)
  | [] => if position = 0 then some [] else none
  | c :: text =>
      if c = '=' then
        if 2 ≤ position ∧ 4 ≤ position + (pads + 1) then if text.isEmpty then some [] else none
        else decodeLoop position left (if 2 ≤ position then pads + 1 else pads) true text
      else
        match valueOf c with
        | none => none
        | some v =>
            if started then none
            else
              match position with
              | 0 => decodeLoop 1 v 0 false text
              | 1 =>
                  (decodeLoop 2 (v % 16) 0 false text).map (UInt8.ofNat (left * 4 + v / 16) :: ·)
              | 2 => (decodeLoop 3 (v % 4) 0 false text).map (UInt8.ofNat (left * 16 + v / 4) :: ·)
              | _ => (decodeLoop 0 0 0 false text).map (UInt8.ofNat (left * 64 + v) :: ·)

/-- `base64.b64decode(text, altchars=b"-_", validate=True)`; `none` where it raises. -/
def decode (text : List Char) : Option (List UInt8) :=
  match text with
  | '=' :: _ => none
  | text => decodeLoop 0 0 0 false text

/-! ## Reading what was written -/

theorem valueOf_charOf {v : Nat} (h : v < 64) : valueOf (charOf v) = some v := by
  have hall : ∀ v : Fin 64, valueOf (charOf v.val) = some v.val := by decide +kernel
  exact hall ⟨v, h⟩

theorem charOf_ne_pad {v : Nat} (h : v < 64) : charOf v ≠ '=' := by
  have hall : ∀ v : Fin 64, charOf v.val ≠ '=' := by decide +kernel
  exact hall ⟨v, h⟩

/-- The first character of a group. -/
theorem decodeLoop_first {v : Nat} (h : v < 64) (text : List Char) :
    decodeLoop 0 0 0 false (charOf v :: text) = decodeLoop 1 v 0 false text := by
  rw [decodeLoop, if_neg (charOf_ne_pad h), valueOf_charOf h]
  rfl

theorem decodeLoop_second {v left : Nat} (h : v < 64) (text : List Char) :
    decodeLoop 1 left 0 false (charOf v :: text)
      = (decodeLoop 2 (v % 16) 0 false text).map (UInt8.ofNat (left * 4 + v / 16) :: ·) := by
  rw [decodeLoop, if_neg (charOf_ne_pad h), valueOf_charOf h]
  rfl

theorem decodeLoop_third {v left : Nat} (h : v < 64) (text : List Char) :
    decodeLoop 2 left 0 false (charOf v :: text)
      = (decodeLoop 3 (v % 4) 0 false text).map (UInt8.ofNat (left * 16 + v / 4) :: ·) := by
  rw [decodeLoop, if_neg (charOf_ne_pad h), valueOf_charOf h]
  rfl

theorem decodeLoop_fourth {v left : Nat} (h : v < 64) (text : List Char) :
    decodeLoop 3 left 0 false (charOf v :: text)
      = (decodeLoop 0 0 0 false text).map (UInt8.ofNat (left * 64 + v) :: ·) := by
  rw [decodeLoop, if_neg (charOf_ne_pad h), valueOf_charOf h]
  rfl

theorem ofNat_eq {a : UInt8} {n : Nat} (h : n = a.toNat) : UInt8.ofNat n = a := by
  rw [h, UInt8.ofNat_toNat]

/-- The bits of one byte, read from two characters. -/
theorem first_byte (a : UInt8) {low : Nat} (h : low < 16) :
    UInt8.ofNat (a.toNat / 4 * 4 + (a.toNat % 4 * 16 + low) / 16) = a :=
  ofNat_eq (by omega)

theorem second_byte (a b : UInt8) {low : Nat} (h : low < 4) :
    UInt8.ofNat ((a.toNat % 4 * 16 + b.toNat / 16) % 16 * 16 + (b.toNat % 16 * 4 + low) / 4)
      = b := by
  have hb := b.toNat_lt
  exact ofNat_eq (by omega)

theorem third_byte (b c : UInt8) :
    UInt8.ofNat ((b.toNat % 16 * 4 + c.toNat / 64) % 4 * 64 + c.toNat % 64) = c := by
  have hc := c.toNat_lt
  exact ofNat_eq (by omega)

theorem decodeLoop_encode (bytes : List UInt8) :
    decodeLoop 0 0 0 false (encode bytes) = some bytes := by
  induction bytes using encode.induct with
  | case1 => rfl
  | case2 a =>
      have ha := a.toNat_lt
      rw [encode, decodeLoop_first (by omega), decodeLoop_second (by omega)]
      have hbyte := first_byte a (by omega : 0 < 16)
      rw [Nat.add_zero] at hbyte
      rw [hbyte]
      rfl
  | case3 a b =>
      have ha := a.toNat_lt
      have hb := b.toNat_lt
      rw [encode, decodeLoop_first (by omega), decodeLoop_second (by omega),
        decodeLoop_third (by omega)]
      have hbyte := second_byte a b (by omega : 0 < 4)
      rw [Nat.add_zero] at hbyte
      rw [first_byte a (by omega), hbyte]
      rfl
  | case4 a b c bytes ih =>
      have ha := a.toNat_lt
      have hb := b.toNat_lt
      have hc := c.toNat_lt
      rw [encode, decodeLoop_first (by omega), decodeLoop_second (by omega),
        decodeLoop_third (by omega), decodeLoop_fourth (by omega), ih, third_byte b c,
        first_byte a (by omega), second_byte a b (by omega)]
      rfl

/-- A text does not begin with padding. -/
theorem decode_eq_loop {text : List Char} (h : text.head? ≠ some '=') :
    decode text = decodeLoop 0 0 0 false text := by
  unfold decode
  split
  · exact absurd rfl h
  · rfl

/-! ## Padding -/

/-- What is missing to a multiple of four. -/
def missing (length : Nat) : Nat := (4 - length % 4) % 4

/-- The padding that a text lacks. -/
def fill (text : List Char) : List Char := text ++ List.replicate (missing text.length) '='

/-- `text.rstrip("=")`. -/
def strip (text : List Char) : List Char := text.rdropWhile (· == '=')

/-- A written text is what its bits need, and then the padding that is missing. -/
theorem encode_shape (bytes : List UInt8) :
    ∃ body, encode bytes = fill body ∧ ∀ c ∈ body, c ≠ '=' := by
  induction bytes using encode.induct with
  | case1 => exact ⟨[], rfl, nofun⟩
  | case2 a =>
      have ha := a.toNat_lt
      refine ⟨[_, _], rfl, ?_⟩
      simp only [List.forall_mem_cons]
      exact ⟨charOf_ne_pad (by omega), charOf_ne_pad (by omega), nofun⟩
  | case3 a b =>
      have ha := a.toNat_lt
      have hb := b.toNat_lt
      refine ⟨[_, _, _], rfl, ?_⟩
      simp only [List.forall_mem_cons]
      exact ⟨charOf_ne_pad (by omega), charOf_ne_pad (by omega), charOf_ne_pad (by omega), nofun⟩
  | case4 a b c bytes ih =>
      have ha := a.toNat_lt
      have hb := b.toNat_lt
      have hc := c.toNat_lt
      obtain ⟨body, hbody, hplain⟩ := ih
      have hgroup (w x y z : Char) :
          fill (w :: x :: y :: z :: body) = w :: x :: y :: z :: fill body := by
        have hlength : missing (w :: x :: y :: z :: body).length = missing body.length := by
          simp only [missing, List.length_cons]
          omega
        rw [fill, hlength]
        rfl
      refine ⟨charOf (a.toNat / 4) :: charOf (a.toNat % 4 * 16 + b.toNat / 16)
        :: charOf (b.toNat % 16 * 4 + c.toNat / 64) :: charOf (c.toNat % 64) :: body, ?_, ?_⟩
      · rw [encode, hbody, hgroup]
      · simp only [List.forall_mem_cons]
        exact ⟨charOf_ne_pad (by omega), charOf_ne_pad (by omega), charOf_ne_pad (by omega),
          charOf_ne_pad (by omega), hplain⟩

theorem strip_fill {body : List Char} (h : ∀ c ∈ body, c ≠ '=') : strip (fill body) = body := by
  unfold strip fill
  induction missing body.length with
  | zero =>
      rw [List.replicate_zero, List.append_nil, List.rdropWhile_eq_self_iff]
      intro hne hlast
      exact h _ (List.getLast_mem hne) (eq_of_beq hlast)
  | succ n ih =>
      rw [List.replicate_succ', ← List.append_assoc, List.rdropWhile_concat_pos _ _ _ (by decide)]
      exact ih

/-- **What was written is read back**, with its padding taken off and put on again. -/
theorem decode_fill_strip (bytes : List UInt8) :
    decode (fill (strip (encode bytes))) = some bytes := by
  obtain ⟨body, hbody, hplain⟩ := encode_shape bytes
  rw [hbody, strip_fill hplain, ← hbody, decode_eq_loop, decodeLoop_encode]
  rw [hbody]
  cases body with
  | nil => exact nofun
  | cons c body =>
      intro hhead
      exact hplain c List.mem_cons_self (Option.some.inj hhead)

end Base64
