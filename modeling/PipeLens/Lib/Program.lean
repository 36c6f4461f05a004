import Mathlib.Logic.Basic

/-!
# Programs with state and exceptions

A program changes a state and then returns a value or raises. What it did before
it raised stays done, and a handler starts from there: this is the behaviour of
`try` in the languages whose code is modelled here.

`Triple P p Q E` is the specification of a program. From a state with `P` it ends
either normally, in a state with `Q`, or by raising, in a state with `E`. The rules
follow the constructs of a program, so a proof about one mirrors its text. The
second half compares two programs that differ only in a part of their text: they
run alike wherever the differing parts do.
-/

/-- A program over the states `σ` that can raise an `ε`. -/
abbrev Program (ε σ α : Type) := ExceptT ε (StateM σ) α

namespace Program

variable {ε σ α β : Type}

/-- Runs a program from a state. -/
def exec (p : Program ε σ α) (s : σ) : Except ε α × σ := p.run.run s

/-- A program given by what it does to a state. -/
def ofRun (f : σ → Except ε α × σ) : Program ε σ α := ExceptT.mk fun s => f s

@[simp] theorem exec_ofRun (f : σ → Except ε α × σ) (s : σ) : exec (ofRun f) s = f s := rfl

@[simp] theorem exec_pure (a : α) (s : σ) : exec (pure a : Program ε σ α) s = (.ok a, s) := rfl

@[simp] theorem exec_throw (e : ε) (s : σ) :
    exec (throw e : Program ε σ α) s = (.error e, s) := rfl

theorem exec_bind (p : Program ε σ α) (f : α → Program ε σ β) (s : σ) :
    exec (p >>= f) s =
      match exec p s with
      | (.ok a, s') => exec (f a) s'
      | (.error e, s') => (.error e, s') := by
  change (ExceptT.bindCont f (exec p s).1) (exec p s).2 = _
  rcases exec p s with ⟨e | a, s'⟩ <;> rfl

theorem exec_tryCatch (p : Program ε σ α) (handler : ε → Program ε σ α) (s : σ) :
    exec (tryCatch p handler) s =
      match exec p s with
      | (.ok a, s') => (.ok a, s')
      | (.error e, s') => exec (handler e) s' := by
  change (fun r : Except ε α × σ => (match r.1 with
    | .ok a => pure (.ok a)
    | .error e => handler e : StateM σ (Except ε α)) r.2) (exec p s) = _
  rcases exec p s with ⟨e | a, s'⟩ <;> rfl

/-- Runs a program and returns how it ended. -/
def outcome (p : Program ε σ α) : Program ε σ (Except ε α) :=
  tryCatch (do let a ← p; return .ok a) fun e => return .error e

/-! ## Specifications -/

/-- From `P`, the program returns with `Q` or raises with `E`. -/
def Triple (P : σ → Prop) (p : Program ε σ α) (Q : α → σ → Prop) (E : ε → σ → Prop) : Prop :=
  ∀ s, P s →
    match exec p s with
    | (.ok a, s') => Q a s'
    | (.error e, s') => E e s'

namespace Triple

variable {P P' : σ → Prop} {Q Q' : α → σ → Prop} {R : β → σ → Prop} {E F : ε → σ → Prop}
  {p : Program ε σ α} {f : α → Program ε σ β} {handler : ε → Program ε σ α}

theorem pure {a : α} (h : ∀ s, P s → Q a s) : Triple P (Pure.pure a : Program ε σ α) Q E := h

theorem throw {e : ε} (h : ∀ s, P s → E e s) :
    Triple P (MonadExcept.throw e : Program ε σ α) Q E := h

theorem bind (hp : Triple P p Q E) (hf : ∀ a, Triple (Q a) (f a) R E) :
    Triple P (p >>= f) R E := by
  intro s hs
  rw [exec_bind]
  have h := hp s hs
  revert h
  rcases exec p s with ⟨e | a, s'⟩
  · exact id
  · exact hf a s'

theorem tryCatch (hp : Triple P p Q F) (hh : ∀ e, Triple (F e) (handler e) Q E) :
    Triple P (tryCatch p handler) Q E := by
  intro s hs
  rw [exec_tryCatch]
  have h := hp s hs
  revert h
  rcases exec p s with ⟨e | a, s'⟩
  · exact hh e s'
  · exact id

theorem outcome (hp : Triple P p Q F) :
    Triple P (outcome p) (fun r s => match r with
      | .ok a => Q a s
      | .error e => F e s) E :=
  tryCatch (bind hp fun _ => pure fun _ => id) fun _ => pure fun _ => id

theorem weaken (h : Triple P' p Q' F) (hP : ∀ s, P s → P' s) (hQ : ∀ a s, Q' a s → Q a s)
    (hE : ∀ e s, F e s → E e s) : Triple P p Q E := by
  intro s hs
  have h' := h s (hP s hs)
  revert h'
  rcases exec p s with ⟨e | a, s'⟩
  · exact hE e s'
  · exact hQ a s'

end Triple

/-! ## What a program returns -/

/-- Whatever state it starts from, the program returns values with `Q` only. -/
def Returns (p : Program ε σ α) (Q : α → Prop) : Prop :=
  ∀ s a s', exec p s = (.ok a, s') → Q a

namespace Returns

variable {p : Program ε σ α} {f : α → Program ε σ β} {Q : α → Prop} {R : β → Prop}

theorem pure {a : α} (h : Q a) : Returns (Pure.pure a : Program ε σ α) Q := by
  intro s b s' hexec
  cases hexec
  exact h

theorem throw {e : ε} : Returns (MonadExcept.throw e : Program ε σ α) Q := by
  intro s b s' hexec
  cases hexec

theorem bind (hp : Returns p Q) (hf : ∀ a, Q a → Returns (f a) R) : Returns (p >>= f) R := by
  intro s b s' hexec
  rw [exec_bind] at hexec
  cases hmid : exec p s with
  | mk result mid =>
      rw [hmid] at hexec
      cases result with
      | error e => cases hexec
      | ok a => exact hf a (hp s a mid hmid) mid b s' hexec

theorem any : Returns p fun _ => True := fun _ _ _ _ => trivial

end Returns

/-! ## Where a result or an error comes from -/

theorem bind_eq_ok {x : Except ε α} {f : α → Except ε β} {b : β} (h : x >>= f = .ok b) :
    ∃ a, x = .ok a ∧ f a = .ok b := by
  cases x with
  | error e => exact nomatch h
  | ok a => exact ⟨a, rfl, h⟩

theorem bind_eq_error {x : Except ε α} {f : α → Except ε β} {e : ε} (h : x >>= f = .error e) :
    x = .error e ∨ ∃ a, f a = .error e := by
  cases x with
  | error e' =>
      cases h
      exact Or.inl rfl
  | ok a => exact Or.inr ⟨a, h⟩

theorem mapM_eq_error {f : α → Except ε β} {e : ε} :
    ∀ {l : List α}, l.mapM f = .error e → ∃ a, f a = .error e
  | [], h => nomatch h
  | a :: l, h => by
      rw [List.mapM_cons] at h
      rcases bind_eq_error h with h | ⟨b, h⟩
      · exact ⟨a, h⟩
      · rcases bind_eq_error h with h | ⟨bs, h⟩
        · exact mapM_eq_error h
        · exact nomatch h

theorem mapM_eq_ok_mem {f : α → Except ε β} {l : List α} {l' : List β} (h : l.mapM f = .ok l') :
    ∀ b ∈ l', ∃ a ∈ l, f a = .ok b := by
  induction l generalizing l' with
  | nil =>
      rw [List.mapM_nil] at h
      obtain rfl := Except.ok.inj h
      exact fun b hm => absurd hm List.not_mem_nil
  | cons a l ih =>
      rw [List.mapM_cons] at h
      obtain ⟨first, hfirst, h⟩ := bind_eq_ok h
      obtain ⟨others, hothers, h⟩ := bind_eq_ok h
      obtain rfl := Except.ok.inj h
      intro b hm
      rcases List.mem_cons.mp hm with rfl | hm
      · exact ⟨a, List.mem_cons_self, hfirst⟩
      · obtain ⟨other, hother, hb⟩ := ih hothers b hm
        exact ⟨other, List.mem_cons_of_mem _ hother, hb⟩

theorem mapM_eq_ok {f : α → Except ε β} {P : β → Prop} (hf : ∀ a b, f a = .ok b → P b)
    {l : List α} {l' : List β} (h : l.mapM f = .ok l') : ∀ b ∈ l', P b := by
  intro b hm
  obtain ⟨a, _, ha⟩ := mapM_eq_ok_mem h b hm
  exact hf a b ha

/-! ## Programs that run alike -/

/-- From `P`, the two programs run alike. -/
def Alike (P : σ → Prop) (p q : Program ε σ α) : Prop := ∀ s, P s → exec p s = exec q s

/-- After a common part, only what that part can return has to be compared. -/
theorem Alike.bind {P : σ → Prop} {Q : α → σ → Prop} {E : ε → σ → Prop} {p : Program ε σ α}
    {f g : α → Program ε σ β} (hp : Triple P p Q E) (hfg : ∀ a, Alike (Q a) (f a) (g a)) :
    Alike P (p >>= f) (p >>= g) := by
  intro s hs
  rw [exec_bind, exec_bind]
  have h := hp s hs
  revert h
  rcases exec p s with ⟨e | a, s'⟩
  · exact fun _ => rfl
  · exact hfg a s'

end Program
