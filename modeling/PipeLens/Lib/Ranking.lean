import Mathlib.Data.List.Sort

/-!
# The best of a list

Sorting a list and taking its first `k` elements. `Best` says which elements these
are without sorting: what is taken is in order, and nothing that is left out comes
before it. If no two different elements are tied, the order in which the elements
were given makes no difference.
-/

namespace Ranking

variable {α : Type} (r : α → α → Prop)

/-- `best` are the `k` elements of `xs` that come first. -/
structure Best (k : Nat) (xs best : List α) : Prop where
  ordered : best.Pairwise r
  length : best.length = min k xs.length
  others : ∃ others, (best ++ others).Perm xs ∧ ∀ a ∈ best, ∀ b ∈ others, r a b

variable [DecidableRel r]

/-- `sorted(xs)[:k]`. -/
def firstOf (k : Nat) (xs : List α) : List α := (xs.insertionSort r).take k

theorem mem_firstOf {k : Nat} {xs : List α} {a : α} (h : a ∈ firstOf r k xs) : a ∈ xs :=
  (List.mem_insertionSort r).mp (List.mem_of_mem_take h)

theorem firstOf_best [Std.Total r] [IsTrans α r] (k : Nat) (xs : List α) :
    Best r k xs (firstOf r k xs) := by
  have hsorted := List.pairwise_insertionSort r xs
  have hperm := List.perm_insertionSort r xs
  have hsplit := List.take_append_drop k (xs.insertionSort r)
  refine ⟨hsorted.sublist (List.take_sublist k _), ?_, (xs.insertionSort r).drop k, ?_, ?_⟩
  · rw [firstOf, List.length_take, List.length_insertionSort]
  · rw [firstOf, hsplit]
    exact hperm
  · rw [← hsplit, List.pairwise_append] at hsorted
    exact hsorted.2.2

/-- **The order of the elements makes no difference.** -/
theorem firstOf_perm [Std.Total r] [IsTrans α r] {k : Nat} {xs ys : List α} (h : xs.Perm ys)
    (hties : ∀ a ∈ xs, ∀ b ∈ xs, r a b → r b a → a = b) : firstOf r k xs = firstOf r k ys := by
  have hsame : xs.insertionSort r = ys.insertionSort r := by
    have hperm : (xs.insertionSort r).Perm (ys.insertionSort r) :=
      (List.perm_insertionSort r xs).trans (h.trans (List.perm_insertionSort r ys).symm)
    refine hperm.eq_of_pairwise ?_ (List.pairwise_insertionSort r xs)
      (List.pairwise_insertionSort r ys)
    intro a b ha hb hab hba
    have hbx : b ∈ xs := h.mem_iff.mpr ((List.mem_insertionSort r).mp hb)
    exact hties a ((List.mem_insertionSort r).mp ha) b hbx hab hba
  rw [firstOf, firstOf, hsame]

end Ranking
