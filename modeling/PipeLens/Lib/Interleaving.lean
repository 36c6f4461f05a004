import Mathlib.Data.List.Basic

/-!
# Interleavings

A list that is made of two others, each in its order. If in both of them only the last
element can fail a condition, at most one element before the end of the whole list does.
-/

section Interleavings

variable {α : Type*} {good : α → Prop}

/-- The third list is made of the other two, each in its order. -/
inductive Interleaved : List α → List α → List α → Prop where
  | nil : Interleaved [] [] []
  | left {x : α} {xs ys zs : List α} (h : Interleaved xs ys zs) : Interleaved (x :: xs) ys (x :: zs)
  | right {y : α} {xs ys zs : List α} (h : Interleaved xs ys zs) :
      Interleaved xs (y :: ys) (y :: zs)

namespace Interleaved

theorem of_left (xs : List α) : Interleaved xs [] xs := by
  induction xs with
  | nil => exact .nil
  | cons x xs ih => exact .left ih

theorem of_right (ys : List α) : Interleaved [] ys ys := by
  induction ys with
  | nil => exact .nil
  | cons y ys ih => exact .right ih

theorem append {xs ys zs xs' ys' zs' : List α} (h : Interleaved xs ys zs)
    (h' : Interleaved xs' ys' zs') : Interleaved (xs ++ xs') (ys ++ ys') (zs ++ zs') := by
  induction h with
  | nil => exact h'
  | left _ ih => exact .left ih
  | right _ ih => exact .right ih

theorem mem {xs ys zs : List α} (h : Interleaved xs ys zs) {z : α} (hz : z ∈ zs) :
    z ∈ xs ∨ z ∈ ys := by
  induction h with
  | nil => exact nomatch hz
  | left _ ih =>
      rcases List.mem_cons.mp hz with rfl | hz
      · exact Or.inl List.mem_cons_self
      · exact (ih hz).imp_left (List.mem_cons_of_mem _)
  | right _ ih =>
      rcases List.mem_cons.mp hz with rfl | hz
      · exact Or.inr List.mem_cons_self
      · exact (ih hz).imp_right (List.mem_cons_of_mem _)

theorem eq_of_left {ys zs : List α} (h : Interleaved [] ys zs) : zs = ys := by
  induction ys generalizing zs with
  | nil =>
      cases h
      rfl
  | cons y ys ih =>
      cases h with
      | right h => rw [ih h]

theorem eq_of_right {xs zs : List α} (h : Interleaved xs [] zs) : zs = xs := by
  induction xs generalizing zs with
  | nil =>
      cases h
      rfl
  | cons x xs ih =>
      cases h with
      | left h => rw [ih h]

end Interleaved

/-- At most one that is not good comes before the last. -/
def OneLoose (good : α → Prop) : List α → Prop
  | [] => True
  | x :: xs => (good x ∧ OneLoose good xs) ∨ xs.Pairwise fun y _ => good y

theorem Interleaved.oneLoose {xs ys zs : List α} (h : Interleaved xs ys zs)
    (hxs : xs.Pairwise fun x _ => good x) (hys : ys.Pairwise fun y _ => good y) :
    OneLoose good zs := by
  induction h with
  | nil => trivial
  | @left x xs ys zs h ih =>
      obtain ⟨hx, hxs⟩ := List.pairwise_cons.mp hxs
      cases xs with
      | nil =>
          rw [h.eq_of_left]
          exact Or.inr hys
      | cons x' xs => exact Or.inl ⟨hx x' List.mem_cons_self, ih hxs hys⟩
  | @right y xs ys zs h ih =>
      obtain ⟨hy, hys⟩ := List.pairwise_cons.mp hys
      cases ys with
      | nil =>
          rw [h.eq_of_right]
          exact Or.inr hxs
      | cons y' ys => exact Or.inl ⟨hy y' List.mem_cons_self, ih hxs hys⟩

end Interleavings
