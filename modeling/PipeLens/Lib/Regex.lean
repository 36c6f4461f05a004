import Mathlib.Data.List.Basic

/-!
# Regular expressions

Backtracking regular expressions as in Python's `re`. A match is found by trying:
`run` lists the ways in which an expression can match from a position, the
preferred one first, so that the first way through a whole expression is the one
that `re` reports.

Classes of characters are predicates. Case-insensitive matching is a matter of the
predicate too: `lit` compares after `fold`, which has the few characters outside
ASCII that `re.I` identifies with ASCII letters.
-/

/-- A position in a text: what is before it, in reverse, what is after it, and the groups. -/
structure Regex.Pos where
  before : List Char
  after : List Char
  groups : List (Nat × List Char) := []
  deriving DecidableEq, Repr

inductive Regex where
  | empty
  /-- A character with `p`. -/
  | char (p : Char → Bool)
  | seq (r s : Regex)
  /-- `r|s`. -/
  | alt (r s : Regex)
  /-- `r*`, as often as possible. -/
  | star (r : Regex)
  /-- A group whose text is kept. -/
  | group (n : Nat) (r : Regex)
  /-- `^`, at the start of the text only. -/
  | start
  /-- `\b`, for the word characters with `p`. -/
  | boundary (p : Char → Bool)
  /-- `(?!r)`. -/
  | notAhead (r : Regex)

namespace Regex

/-- Repeats a step that makes progress, at most `n` times and as often as possible. -/
def iterate (step : Pos → List Pos) : Nat → Pos → List Pos
  | 0, pos => [pos]
  | n + 1, pos =>
      ((step pos).filter fun pos' => decide (pos'.after.length < pos.after.length)).flatMap
        (iterate step n) ++ [pos]

/-- Whether a position has a word character on exactly one side. -/
def isBoundary (p : Char → Bool) (pos : Pos) : Bool :=
  (pos.before.head?.any p) != (pos.after.head?.any p)

/-- The positions an expression can match up to, in the order of preference. -/
def run : Regex → Pos → List Pos
  | .empty, pos => [pos]
  | .char p, pos =>
      match pos.after with
      | [] => []
      | c :: after => if p c then [{ pos with before := c :: pos.before, after := after }] else []
  | .seq r s, pos => (r.run pos).flatMap s.run
  | .alt r s, pos => r.run pos ++ s.run pos
  | .star r, pos => iterate r.run pos.after.length pos
  | .group n r, pos =>
      (r.run pos).map fun pos' =>
        { pos' with
          groups := (n, pos.after.take (pos.after.length - pos'.after.length)) :: pos'.groups }
  | .start, pos => if pos.before.isEmpty then [pos] else []
  | .boundary p, pos => if isBoundary p pos then [pos] else []
  | .notAhead r, pos => if (r.run pos).isEmpty then [pos] else []

/-- `r.match(text)`. -/
def matchStart (r : Regex) (text : List Char) : Option Pos :=
  (r.run { before := [], after := text }).head?

/-- Whether `r` matches from here on or further right. -/
def searchFrom (r : Regex) (before : List Char) : List Char → Bool
  | [] => !(r.run { before := before, after := [] }).isEmpty
  | c :: after =>
      !(r.run { before := before, after := c :: after }).isEmpty
        || searchFrom r (c :: before) after

/-- Whether `r.search(text)` finds a match. -/
def search (r : Regex) (text : List Char) : Bool := searchFrom r [] text

/-- The match that `r.search` finds from here on. -/
def findFrom (r : Regex) (before : List Char) : List Char → Option Pos
  | [] => (r.run { before := before, after := [] }).head?
  | c :: after =>
      match (r.run { before := before, after := c :: after }).head? with
      | some pos => some pos
      | none => findFrom r (c :: before) after

/-- `r.search(text)`. -/
def find (r : Regex) (text : List Char) : Option Pos := findFrom r [] text

/-- `r.sub(replacement, text)` from here on, for an `r` that matches no empty text. -/
def subFrom (r : Regex) (replacement : List Char) : Nat → List Char → List Char → List Char
  | 0, _, after => after
  | _ + 1, _, [] => []
  | n + 1, before, c :: after =>
      match (r.run { before := before, after := c :: after }).head? with
      | none => c :: subFrom r replacement n (c :: before) after
      | some pos => replacement ++ subFrom r replacement n pos.before pos.after

def sub (r : Regex) (replacement text : List Char) : List Char :=
  subFrom r replacement (text.length + 1) [] text

/-! ## Derived expressions -/

/-- `r?`. -/
def opt (r : Regex) : Regex := .alt r .empty

/-- `r+`. -/
def plus (r : Regex) : Regex := .seq r (.star r)

/-- A sequence. -/
def all : List Regex → Regex
  | [] => .empty
  | r :: rs => .seq r (all rs)

/-- An alternative of several. -/
def any : List Regex → Regex
  | [] => .char fun _ => false
  | [r] => r
  | r :: rs => .alt r (any rs)

/-- The lower-case letter for a character that `re.I` identifies with an ASCII letter. -/
def fold (c : Char) : Char :=
  if c.isUpper then c.toLower
  else if c.toNat = 0x212a then 'k'
  else if c.toNat = 0x17f then 's'
  else if c.toNat = 0x130 ∨ c.toNat = 0x131 then 'i'
  else c

/-- A literal text of ASCII characters under `re.I`. -/
def lit (text : String) : Regex := all (text.toList.map fun x => .char fun c => fold c == fold x)

/-- A literal text, case and all. -/
def verbatim (text : String) : Regex := all (text.toList.map fun x => .char (· == x))

/-! ## What can be matched -/

attribute [local simp] run

theorem mem_run_seq {r s : Regex} {pos pos' : Pos} (mid : Pos) (hr : mid ∈ r.run pos)
    (hs : pos' ∈ s.run mid) : pos' ∈ (Regex.seq r s).run pos :=
  List.mem_flatMap.mpr ⟨mid, hr, hs⟩

/-- A repetition can stop after any of its characters. -/
theorem mem_iterate_char {p : Char → Bool} {groups : List (Nat × List Char)} {cs : List Char}
    {n : Nat} {before after : List Char} (h : ∀ c ∈ cs, p c = true) (hn : cs.length ≤ n) :
    { before := cs.reverse ++ before, after := after, groups := groups : Pos }
      ∈ iterate (Regex.char p).run n
        { before := before, after := cs ++ after, groups := groups } := by
  induction cs generalizing n before with
  | nil =>
      cases n with
      | zero => exact List.mem_singleton.mpr rfl
      | succ n => exact List.mem_append_right _ (List.mem_singleton.mpr rfl)
  | cons c cs ih =>
      cases n with
      | zero => exact absurd hn (by simp)
      | succ n =>
          have hrest : { before := cs.reverse ++ c :: before, after := after, groups := groups : Pos }
              ∈ iterate (Regex.char p).run n
                { before := c :: before, after := cs ++ after, groups := groups } :=
            ih (fun d hd => h d (List.mem_cons_of_mem c hd)) (by simpa using hn)
          refine List.mem_append_left _ (List.mem_flatMap.mpr
            ⟨{ before := c :: before, after := cs ++ after, groups := groups }, ?_, ?_⟩)
          · simp [h c List.mem_cons_self]
          · simpa using hrest

theorem mem_run_star {p : Char → Bool} {cs before after : List Char}
    {groups : List (Nat × List Char)} (h : ∀ c ∈ cs, p c = true) :
    { before := cs.reverse ++ before, after := after, groups := groups : Pos }
      ∈ (Regex.star (.char p)).run { before := before, after := cs ++ after, groups := groups } :=
  mem_iterate_char h (by simp)

/-- A literal matches itself. -/
theorem mem_run_lit {groups : List (Nat × List Char)} {text before after : List Char} :
    { before := text.reverse ++ before, after := after, groups := groups : Pos }
      ∈ (all (text.map fun x => .char fun c => fold c == fold x)).run
        { before := before, after := text ++ after, groups := groups } := by
  induction text generalizing before with
  | nil => exact List.mem_singleton.mpr rfl
  | cons x text ih =>
      have hrest : { before := text.reverse ++ x :: before, after := after, groups := groups : Pos }
          ∈ (all (text.map fun x => .char fun c => fold c == fold x)).run
            { before := x :: before, after := text ++ after, groups := groups } := ih
      refine mem_run_seq { before := x :: before, after := text ++ after, groups := groups }
        (by simp) ?_
      simpa using hrest

theorem search_of_run {r : Regex} {text : List Char} {pos : Pos}
    (h : pos ∈ r.run { before := [], after := text }) : r.search text = true := by
  have hne : (r.run { before := [], after := text }).isEmpty = false := by
    cases hx : r.run { before := [], after := text } with
    | nil => rw [hx] at h; exact nomatch h
    | cons _ _ => rfl
  unfold search
  cases text with
  | nil => simp [searchFrom, hne]
  | cons c text => simp [searchFrom, hne]

/-! ## What is matched -/

/-- The match that is tried first. -/
def Prefers (r : Regex) (pos pos' : Pos) : Prop := (r.run pos).head? = some pos'

theorem Prefers.seq {r s : Regex} {pos mid pos' : Pos} (hr : Prefers r pos mid)
    (hs : Prefers s mid pos') : Prefers (.seq r s) pos pos' := by
  unfold Prefers at hr hs ⊢
  rw [run]
  cases hways : r.run pos with
  | nil =>
      rw [hways] at hr
      exact nomatch hr
  | cons first others =>
      rw [hways] at hr
      obtain rfl := Option.some.inj hr
      rw [List.flatMap_cons, List.head?_append, hs]
      rfl

/-- In front of `rest`, the expression takes `text`, wherever it starts, and finds these groups. -/
def Takes (r : Regex) (text rest : List Char) (found : List (Nat × List Char)) : Prop :=
  ∀ before groups,
    Prefers r ⟨before, text ++ rest, groups⟩ ⟨text.reverse ++ before, rest, found ++ groups⟩

namespace Takes

theorem empty (rest : List Char) : Takes .empty [] rest [] := fun _ _ => rfl

theorem char {p : Char → Bool} {c : Char} (h : p c = true) (rest : List Char) :
    Takes (.char p) [c] rest [] := by
  intro before groups
  simp [Prefers, h]

theorem seq {r s : Regex} {text text' rest rest' : List Char}
    {found found' : List (Nat × List Char)} (hr : Takes r text rest' found)
    (hs : Takes s text' rest found') (h : rest' = text' ++ rest) :
    Takes (.seq r s) (text ++ text') rest (found' ++ found) := by
  intro before groups
  rw [h] at hr
  have hboth := (hr before groups).seq (hs (text.reverse ++ before) (found ++ groups))
  simpa using hboth

theorem opt {r : Regex} {text rest : List Char} {found : List (Nat × List Char)}
    (h : Takes r text rest found) : Takes (opt r) text rest found := by
  intro before groups
  have hr := h before groups
  unfold Prefers at hr ⊢
  rw [Regex.opt, run, List.head?_append, hr]
  rfl

/-- Left out, because it does not match here. -/
theorem opt_none {r : Regex} {rest : List Char} (h : ∀ before groups, r.run ⟨before, rest, groups⟩ = []) :
    Takes (Regex.opt r) [] rest [] := by
  intro before groups
  unfold Prefers
  rw [Regex.opt, run, List.nil_append, h before groups]
  rfl

/-- A repetition goes on as long as it can. -/
theorem iterate_char {p : Char → Bool} {groups : List (Nat × List Char)} {cs : List Char} {n : Nat}
    {before rest : List Char} (h : ∀ c ∈ cs, p c = true) (hn : cs.length ≤ n)
    (hstop : ∀ c ∈ rest.head?, p c = false) :
    (iterate (Regex.char p).run n ⟨before, cs ++ rest, groups⟩).head?
      = some ⟨cs.reverse ++ before, rest, groups⟩ := by
  induction cs generalizing n before with
  | nil =>
      have hnone : (Regex.char p).run ⟨before, rest, groups⟩ = [] := by
        cases rest with
        | nil => rfl
        | cons c rest => simp [hstop c rfl]
      cases n with
      | zero => rfl
      | succ n =>
          rw [List.nil_append, iterate, hnone]
          rfl
  | cons c cs ih =>
      cases n with
      | zero => exact absurd hn (by simp)
      | succ n =>
          have hone : (Regex.char p).run ⟨before, c :: cs ++ rest, groups⟩
              = [⟨c :: before, cs ++ rest, groups⟩] := by
            simp [h c List.mem_cons_self]
          have hrest : (iterate (Regex.char p).run n ⟨c :: before, cs ++ rest, groups⟩).head?
              = some ⟨cs.reverse ++ c :: before, rest, groups⟩ :=
            ih (fun d hd => h d (List.mem_cons_of_mem c hd)) (Nat.le_of_succ_le_succ hn)
          rw [iterate, hone, List.head?_append]
          simp only [List.filter_cons, List.cons_append, List.length_cons, List.length_append,
            Nat.lt_succ_self, decide_true, if_true, List.filter_nil, List.flatMap_cons,
            List.flatMap_nil, List.append_nil, hrest]
          simp

theorem star_char {p : Char → Bool} {cs rest : List Char} (h : ∀ c ∈ cs, p c = true)
    (hstop : ∀ c ∈ rest.head?, p c = false) : Takes (.star (.char p)) cs rest [] :=
  fun _ _ => iterate_char h (by simp) hstop

theorem plus_char {p : Char → Bool} {cs rest : List Char} (hne : cs ≠ [])
    (h : ∀ c ∈ cs, p c = true) (hstop : ∀ c ∈ rest.head?, p c = false) :
    Takes (plus (.char p)) cs rest [] := by
  obtain ⟨c, cs, rfl⟩ := List.exists_cons_of_ne_nil hne
  exact (char (h c List.mem_cons_self) (cs ++ rest)).seq
    (star_char (fun d hd => h d (List.mem_cons_of_mem c hd)) hstop) rfl

theorem verbatim (text : String) (rest : List Char) :
    Takes (Regex.verbatim text) text.toList rest [] := by
  unfold Regex.verbatim
  induction text.toList with
  | nil => exact empty rest
  | cons c text ih => exact (char (beq_self_eq_true c) (text ++ rest)).seq ih rfl

theorem group {r : Regex} {text rest : List Char} {found : List (Nat × List Char)} (n : Nat)
    (h : Takes r text rest found) : Takes (.group n r) text rest ((n, text) :: found) := by
  intro before groups
  have hr := h before groups
  unfold Prefers at hr ⊢
  rw [run, List.head?_map, hr]
  simp

end Takes

/-- An expression that is tied to the start. -/
theorem matchStart_of_takes {r : Regex} {text rest : List Char} {found : List (Nat × List Char)}
    (h : Takes r text rest found) :
    (Regex.seq .start r).matchStart (text ++ rest) = some ⟨text.reverse, rest, found⟩ := by
  have hstart : Prefers .start ⟨[], text ++ rest, []⟩ ⟨[], text ++ rest, []⟩ := rfl
  have hboth := hstart.seq (h [] [])
  simpa [Prefers, matchStart] using hboth

end Regex
