import Mathlib.Data.Fintype.Basic

/-!
# Executable transition systems

A system is a partial step function: `step s l` is the state after label `l`, or
`none` when `l` is not enabled in `s`. All nondeterminism sits in the label, so a
concrete schedule can be run, and a property of every schedule is a property of
every reachable state.

Many results hold only for runs whose steps stay inside some discipline. The
discipline is a predicate `ok` on the state *before* a step and the label taken
there, and `Reach step ok s₀` collects what such runs can reach from `s₀`.
-/

namespace Transition

variable {σ ℓ : Type}

/-- The states reachable from `s₀` by steps that all meet `ok`. -/
inductive Reach (step : σ → ℓ → Option σ) (ok : σ → ℓ → Prop) (s₀ : σ) : σ → Prop where
  | init : Reach step ok s₀ s₀
  | tail {s t : σ} {l : ℓ} :
      Reach step ok s₀ s → ok s l → step s l = some t → Reach step ok s₀ t

/-- The vacuous discipline: every enabled step is allowed. -/
def anyStep (_ : σ) (_ : ℓ) : Prop := True

instance (s : σ) (l : ℓ) : Decidable (anyStep s l) := inferInstanceAs (Decidable True)

variable {step : σ → ℓ → Option σ} {ok : σ → ℓ → Prop} {s₀ s : σ}

/--
**The invariant rule.** What holds initially, and is carried across every step
the discipline allows, holds in every reachable state.
-/
theorem Reach.invariant {P : σ → Prop} (h : Reach step ok s₀ s) (hinit : P s₀)
    (hstep : ∀ {s s' : σ} {l : ℓ}, Reach step ok s₀ s → P s → ok s l →
      step s l = some s' → P s') : P s := by
  induction h with
  | init => exact hinit
  | tail hr ho hs ih => exact hstep hr ih ho hs

/-- Runs a schedule; `none` as soon as a label is not enabled or breaks `ok`. -/
def exec (step : σ → ℓ → Option σ) (ok : σ → ℓ → Prop) [∀ s l, Decidable (ok s l)] :
    σ → List ℓ → Option σ
  | s, [] => some s
  | s, l :: ls =>
      if ok s l then
        match step s l with
        | none => none
        | some s' => exec step ok s' ls
      else none

/-- A schedule that runs to the end reaches its last state. -/
theorem reach_of_exec [∀ s l, Decidable (ok s l)] {ls : List ℓ} {s₁ s₂ : σ}
    (h₁ : Reach step ok s₀ s₁) (h : exec step ok s₁ ls = some s₂) : Reach step ok s₀ s₂ := by
  induction ls generalizing s₁ with
  | nil =>
      rw [exec] at h
      exact Option.some.inj h ▸ h₁
  | cons l ls ih =>
      rw [exec] at h
      split at h
      · rename_i hok
        split at h
        · exact absurd h (by simp)
        · rename_i s' hs
          exact ih (Reach.tail h₁ hok hs) h
      · exact absurd h (by simp)

/-! ## Machines that answer calls -/

section Replies

variable {τ κ ρ : Type}

/-- What a machine answers to a list of calls, one reply a call. -/
def replies (answer : σ → κ → σ × ρ) : σ → List κ → List ρ
  | _, [] => []
  | s, c :: cs => (answer s c).2 :: replies answer (answer s c).1 cs

/--
**The simulation rule.** Two machines whose related states answer every call alike,
and stay related, cannot be told apart by any list of calls.
-/
theorem replies_eq_of_simulation {answer : σ → κ → σ × ρ} {answer' : τ → κ → τ × ρ}
    {R : σ → τ → Prop}
    (hstep : ∀ {s t}, R s t → ∀ c,
      (answer s c).2 = (answer' t c).2 ∧ R (answer s c).1 (answer' t c).1)
    {s : σ} {t : τ} (h : R s t) (cs : List κ) : replies answer s cs = replies answer' t cs := by
  induction cs generalizing s t with
  | nil => rfl
  | cons c cs ih =>
      obtain ⟨hreply, hnext⟩ := hstep h c
      rw [replies, replies, hreply, ih hnext]

end Replies

/-- Two participants, for concrete schedules. -/
inductive Duo where
  | first
  | second
  deriving DecidableEq

instance : Fintype Duo where
  elems := {.first, .second}
  complete := by intro d; cases d <;> decide

end Transition
