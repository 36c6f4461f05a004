import Mathlib.Data.List.Basic
import Mathlib.Data.Nat.Basic

/-!
# Listings that come in pages

A listing is read page by page until a page is not full. Between two requests it may
grow at its end. What has been read is then the listing as it was at the time of the
last request: a full page that was read earlier does not change any more.

A search in a listing that grows at its front goes over some items twice, and misses none.
-/

namespace Paging

variable {α : Type}

/-- Page `k`, from 0 on, of a listing with `n` items on a page. -/
def page (n k : Nat) (listing : List α) : List α := (listing.drop (n * k)).take n

/-- Reads pages from `k` on; `read` has each page as it is when it is asked for. -/
def gather (n : Nat) (read : Nat → List α) : Nat → Nat → List α
  | 0, _ => []
  | fuel + 1, k =>
      if (read k).length < n then read k else read k ++ gather n read fuel (k + 1)

/-- A listing that only grows at its end. -/
def Grows (listing : Nat → List α) : Prop := ∀ k, listing k <+: listing (k + 1)

theorem Grows.later {listing : Nat → List α} (h : Grows listing) {k l : Nat} (hkl : k ≤ l) :
    listing k <+: listing l := by
  induction hkl with
  | refl => exact List.prefix_rfl
  | step _ ih => exact ih.trans (h _)

theorem length_page (n k : Nat) (listing : List α) :
    (page n k listing).length = min n (listing.length - n * k) := by
  rw [page, List.length_take, List.length_drop]

/-- A full page is the same in a longer listing. -/
theorem page_eq_of_full {n k : Nat} {listing longer : List α} (h : listing <+: longer)
    (hfull : n * k + n ≤ listing.length) : page n k longer = page n k listing := by
  obtain ⟨rest, rfl⟩ := h
  unfold page
  rw [List.drop_append_of_le_length (by omega), List.take_append_of_le_length]
  rw [List.length_drop]
  omega

theorem page_append_drop (n k : Nat) (listing : List α) :
    page n k listing ++ listing.drop (n * (k + 1)) = listing.drop (n * k) := by
  unfold page
  rw [Nat.mul_succ, ← List.drop_drop]
  exact List.take_append_drop n _

/-- Page `k` is the first that is not full when it is asked for, and the last of the listing. -/
structure LastPage (n : Nat) (listing : Nat → List α) (k : Nat) : Prop where
  start : n * k ≤ (listing k).length
  notFull : (listing k).length < n * k + n
  full : ∀ j, j < k → n * j + n ≤ (listing j).length

/-- **The pages that are read make up the listing at the time of the last request.** -/
theorem gather_from {n bound : Nat} {listing : Nat → List α} (hgrows : Grows listing)
    (hbound : ∀ k, (listing k).length ≤ bound) {fuel k : Nat} (hk : n * k ≤ (listing k).length)
    (hbefore : ∀ j, j < k → n * j + n ≤ (listing j).length) (hfuel : bound < n * (k + fuel)) :
    ∃ last, k ≤ last ∧ last < k + fuel ∧ LastPage n listing last
      ∧ gather n (fun k => page n k (listing k)) fuel k = (listing last).drop (n * k) := by
  induction fuel generalizing k with
  | zero =>
      have hlength := hbound k
      rw [Nat.add_zero] at hfuel
      omega
  | succ fuel ih =>
      have hlength := length_page n k (listing k)
      rw [gather]
      by_cases hshort : (page n k (listing k)).length < n
      · refine ⟨k, Nat.le_refl k, by omega, ⟨hk, by omega, hbefore⟩, ?_⟩
        rw [if_pos hshort]
        have hrest : (listing k).drop (n * (k + 1)) = [] := by
          rw [List.drop_eq_nil_iff, Nat.mul_succ]
          omega
        rw [← page_append_drop, hrest, List.append_nil]
      · have hfull : n * k + n ≤ (listing k).length := by omega
        have hgrown := (hgrows k).length_le
        have hnext : n * (k + 1) ≤ (listing (k + 1)).length := by
          rw [Nat.mul_succ]
          omega
        have hfuel' : bound < n * (k + 1 + fuel) := by
          have heq : k + 1 + fuel = k + (fuel + 1) := by omega
          rw [heq]
          exact hfuel
        have hbefore' : ∀ j, j < k + 1 → n * j + n ≤ (listing j).length := by
          intro j hj
          rcases Nat.lt_succ_iff_lt_or_eq.mp hj with hj | rfl
          · exact hbefore j hj
          · exact hfull
        obtain ⟨last, hle, hlt, hlast, hrest⟩ := ih hnext hbefore' hfuel'
        refine ⟨last, by omega, by omega, hlast, ?_⟩
        have hsame := page_eq_of_full (hgrows.later (Nat.le_of_succ_le hle)) hfull
        rw [if_neg hshort, hrest, ← hsame, page_append_drop]

theorem gather_all {n bound : Nat} {listing : Nat → List α} (hgrows : Grows listing)
    (hbound : ∀ k, (listing k).length ≤ bound) {fuel : Nat} (hfuel : bound < n * fuel) :
    ∃ last, last < fuel ∧ LastPage n listing last
      ∧ gather n (fun k => page n k (listing k)) fuel 0 = listing last := by
  obtain ⟨last, _, hlt, hlast, hall⟩ :=
    gather_from hgrows hbound (Nat.zero_le _) (fun j hj => absurd hj (Nat.not_lt_zero j))
      (by rwa [Nat.zero_add])
  refine ⟨last, by omega, hlast, ?_⟩
  rw [hall, Nat.mul_zero, List.drop_zero]

/-! ## Searching from the front -/

/-- Searches the pages from `k` on, until an item is found or a page is not full. -/
def search (p : α → Bool) (n : Nat) (read : Nat → List α) : Nat → Nat → Option α
  | 0, _ => none
  | fuel + 1, k =>
      match (read k).find? p with
      | some a => some a
      | none => if (read k).length < n then none else search p n read fuel (k + 1)

/-- A listing that grows at its front, by items that are not searched for. -/
def GrowsAtFront (p : α → Bool) (listing : Nat → List α) : Prop :=
  ∀ k, ∃ new, listing (k + 1) = new ++ listing k ∧ ∀ a ∈ new, p a = false

theorem GrowsAtFront.find?_eq {p : α → Bool} {listing : Nat → List α}
    (h : GrowsAtFront p listing) (k : Nat) : (listing k).find? p = (listing 0).find? p := by
  induction k with
  | zero => rfl
  | succ k ih =>
      obtain ⟨new, hnew, hfails⟩ := h k
      have hnone : new.find? p = none := by
        rw [List.find?_eq_none]
        intro a hm
        rw [hfails a hm]
        exact Bool.false_ne_true
      rw [hnew, List.find?_append, hnone, Option.none_or, ih]

theorem take_append_page (n k : Nat) (listing : List α) :
    listing.take (n * k) ++ page n k listing = listing.take (n * (k + 1)) := by
  rw [Nat.mul_succ, List.take_add]
  rfl

/-- What has been searched stays at the front, behind what is new. -/
theorem seen_later {p : α → Bool} {listing : Nat → List α} (hgrows : GrowsAtFront p listing)
    {k m : Nat} (hseen : ((listing k).take m).find? p = none) :
    ((listing (k + 1)).take m).find? p = none := by
  obtain ⟨new, hnew, hfails⟩ := hgrows k
  rw [List.find?_eq_none] at hseen ⊢
  intro a hm
  rw [hnew, List.take_append] at hm
  rcases List.mem_append.mp hm with hm | hm
  · rw [hfails a (List.mem_of_mem_take hm)]
    exact Bool.false_ne_true
  · have hsub : (listing k).take (m - new.length) <+: (listing k).take m :=
      List.take_prefix_take_left (by omega)
    exact hseen a (hsub.subset hm)

/-- **The search finds what a search through the listing finds**, as far as it reaches. -/
theorem search_from {p : α → Bool} {listing : Nat → List α} (hgrows : GrowsAtFront p listing)
    (n fuel : Nat) {k : Nat}
    (hseen : ((listing k).take (n * k)).find? p = none) :
    ∃ last, k ≤ last ∧ last ≤ k + fuel
      ∧ search p n (fun k => page n k (listing k)) (fuel + 1) k
        = ((listing last).take (n * (k + fuel + 1))).find? p := by
  have hstep : ((listing k).take (n * (k + 1))).find? p = (page n k (listing k)).find? p := by
    rw [← take_append_page, List.find?_append, hseen, Option.none_or]
  induction fuel generalizing k with
  | zero =>
      refine ⟨k, Nat.le_refl k, Nat.le_refl k, ?_⟩
      rw [Nat.add_zero, hstep, search]
      cases (page n k (listing k)).find? p with
      | some a => rfl
      | none =>
          rw [search]
          exact ite_self none
  | succ fuel ih =>
      rw [search]
      cases hfound : (page n k (listing k)).find? p with
      | some a =>
          refine ⟨k, Nat.le_refl k, Nat.le_add_right k _, ?_⟩
          have hprefix : (listing k).take (n * (k + 1))
              <+: (listing k).take (n * (k + (fuel + 1) + 1)) :=
            List.take_prefix_take_left (Nat.mul_le_mul_left n (by omega))
          obtain ⟨rest, hrest⟩ := hprefix
          rw [← hrest, List.find?_append, hstep, hfound]
          rfl
      | none =>
          rw [hfound] at hstep
          dsimp only
          by_cases hshort : (page n k (listing k)).length < n
          · refine ⟨k, Nat.le_refl k, Nat.le_add_right k _, ?_⟩
            rw [if_pos hshort]
            rw [length_page] at hshort
            -- the page is the last one
            have hall : ∀ m, n * (k + 1) ≤ m → (listing k).take m
                = (listing k).take (n * (k + 1)) := by
              intro m hm
              rw [Nat.mul_succ] at hm ⊢
              rw [List.take_of_length_le (by omega), List.take_of_length_le (by omega)]
            rw [hall _ (Nat.mul_le_mul_left n (by omega)), hstep]
          · rw [if_neg hshort]
            have hnext := seen_later hgrows hstep
            obtain ⟨last, hle, hlast, heq⟩ := ih hnext (by
              rw [← take_append_page, List.find?_append, hnext, Option.none_or])
            refine ⟨last, by omega, by omega, ?_⟩
            rw [heq, show k + 1 + fuel + 1 = k + (fuel + 1) + 1 by omega]

end Paging
