import Mathlib.Data.List.Induction

/-!
# The list commands of Redis

A Redis list read from its head. `LPUSH` adds at the head, `RPOP` takes from the
tail, and `LREM key 1 x` removes the occurrence of `x` nearest to the head. The
only loop built on them here is the one that empties one list into another.
-/

namespace RedisList

variable {α : Type}

/-- `LPUSH`. -/
def lpush (x : α) (xs : List α) : List α := x :: xs

/-- `RPOP`: the tail element and what is left, or `none` on an empty list. -/
def rpop (xs : List α) : Option (α × List α) :=
  match xs.getLast? with
  | none => none
  | some x => some (x, xs.dropLast)

/-- `LREM key 1 x`: how many occurrences went, and what is left. -/
def lrem [DecidableEq α] (x : α) (xs : List α) : Nat × List α :=
  if x ∈ xs then (1, xs.erase x) else (0, xs)

/--
The loop `while item := RPOP src: LPUSH dst item`. The fuel is the length of the
source: each round takes one element.
-/
def drainLoop : Nat → List α → List α → Nat → List α × List α × Nat
  | 0, src, dst, n => (src, dst, n)
  | fuel + 1, src, dst, n =>
      match rpop src with
      | none => (src, dst, n)
      | some (x, rest) => drainLoop fuel rest (lpush x dst) (n + 1)

/-- Empties `src` into `dst`, counting the moved elements. -/
def drain (src dst : List α) : List α × List α × Nat := drainLoop src.length src dst 0

theorem rpop_nil : rpop ([] : List α) = none := rfl

theorem rpop_concat (xs : List α) (x : α) : rpop (xs ++ [x]) = some (x, xs) := by
  unfold rpop
  rw [List.getLast?_concat]
  simp

theorem rpop_eq_none {xs : List α} (h : rpop xs = none) : xs = [] := by
  rcases List.eq_nil_or_concat xs with hn | ⟨ys, y, hy⟩
  · exact hn
  · rw [hy, List.concat_eq_append, rpop_concat] at h
    exact absurd h (by simp)

theorem rpop_eq_some {xs ys : List α} {x : α} (h : rpop xs = some (x, ys)) : xs = ys ++ [x] := by
  rcases List.eq_nil_or_concat xs with hn | ⟨zs, z, hz⟩
  · rw [hn, rpop_nil] at h
    exact absurd h (by simp)
  · rw [hz, List.concat_eq_append, rpop_concat] at h
    simp only [Option.some.injEq, Prod.mk.injEq] at h
    rw [hz, List.concat_eq_append, h.1, h.2]

theorem drainLoop_eq (src : List α) : ∀ (dst : List α) (n : Nat),
    drainLoop src.length src dst n = ([], src ++ dst, n + src.length) := by
  induction src using List.reverseRecOn with
  | nil => intro dst n; rfl
  | append_singleton xs x ih =>
      intro dst n
      rw [List.length_append, List.length_singleton, drainLoop, rpop_concat]
      simp only [lpush]
      rw [ih, List.append_assoc]
      simp only [List.cons_append, List.nil_append, Prod.mk.injEq, true_and]
      omega

/-- **Draining keeps every element and its order.** -/
theorem drain_eq (src dst : List α) : drain src dst = ([], src ++ dst, src.length) := by
  rw [drain, drainLoop_eq]
  simp

theorem lrem_of_mem [DecidableEq α] {x : α} {xs : List α} (h : x ∈ xs) :
    lrem x xs = (1, xs.erase x) := if_pos h

theorem lrem_of_not_mem [DecidableEq α] {x : α} {xs : List α} (h : x ∉ xs) :
    lrem x xs = (0, xs) := if_neg h

end RedisList
