import Mathlib.Data.List.Chain
import Mathlib.Data.List.Infix

/-!
# Guarded characters

A text in which a certain character never stands without one of its followers. The
character is not at the end of such a text, so that guarded texts can be put together
in any way; and where a guarded text is cut, a follower at the place of the cut is
enough.
-/

variable {α : Type*} {c : α} {ok : α → Prop} {text more : List α}

/-- Every `c` in the text is followed by a character with `ok`. -/
structure Guarded (c : α) (ok : α → Prop) (text : List α) : Prop where
  chain : text.IsChain fun x y => x = c → ok y
  closed : ∀ x ∈ text.getLast?, x ≠ c

instance [DecidableEq α] [DecidablePred ok] : Decidable (Guarded c ok text) :=
  decidable_of_iff ((text.IsChain fun x y => x = c → ok y) ∧ ∀ x ∈ text.getLast?, x ≠ c)
    ⟨fun h => ⟨h.1, h.2⟩, fun h => ⟨h.chain, h.closed⟩⟩

namespace Guarded

theorem nil : Guarded c ok [] := by
  refine ⟨List.IsChain.nil, ?_⟩
  intro x hx
  exact nomatch hx

/-- A text without the character. -/
theorem of_notMem (h : c ∉ text) : Guarded c ok text := by
  refine ⟨?_, ?_⟩
  · refine List.Pairwise.isChain (List.pairwise_of_forall_mem_list ?_)
    intro x hx y _ heq
    rw [heq] at hx
    exact absurd hx h
  · intro x hx heq
    rw [heq] at hx
    exact h (List.mem_of_getLast? hx)

theorem append (h : Guarded c ok text) (h' : Guarded c ok more) : Guarded c ok (text ++ more) := by
  refine ⟨List.isChain_append.mpr ⟨h.chain, h'.chain, ?_⟩, ?_⟩
  · intro x hx y _ heq
    exact absurd heq (h.closed x hx)
  · intro x hx
    cases more with
    | nil =>
        rw [List.append_nil] at hx
        exact h.closed x hx
    | cons y more =>
        rw [List.getLast?_append_of_ne_nil _ (List.cons_ne_nil y more)] at hx
        exact h'.closed x hx

theorem flatten {pieces : List (List α)} (h : ∀ piece ∈ pieces, Guarded c ok piece) :
    Guarded c ok pieces.flatten := by
  induction pieces with
  | nil => exact nil
  | cons piece pieces ih =>
      rw [List.flatten_cons]
      exact (h piece List.mem_cons_self).append
        (ih fun other hother => h other (List.mem_cons_of_mem piece hother))

theorem intercalate {separator : List α} {pieces : List (List α)} (hsep : Guarded c ok separator)
    (h : ∀ piece ∈ pieces, Guarded c ok piece) : Guarded c ok (separator.intercalate pieces) := by
  induction pieces with
  | nil => exact nil
  | cons piece pieces ih =>
      have hpiece := h piece List.mem_cons_self
      have hrest := ih fun other hother => h other (List.mem_cons_of_mem piece hother)
      cases pieces with
      | nil =>
          rw [List.intercalate_singleton]
          exact hpiece
      | cons next pieces =>
          rw [List.intercalate_cons_cons]
          exact (hpiece.append hsep).append hrest

/-- A text that is cut, with a follower after the cut. -/
theorem cut_append {start rest : List α} {d : α} (h : Guarded c ok text)
    (hcut : start <+: text) (hd : ok d) (hrest : Guarded c ok (d :: rest)) :
    Guarded c ok (start ++ d :: rest) := by
  refine ⟨List.isChain_append.mpr ⟨ List.IsChain.prefix h.chain hcut, hrest.chain, ?_⟩, ?_⟩
  · intro x _ y hy _
    rw [← Option.some.inj hy]
    exact hd
  · intro x hx
    rw [List.getLast?_append_of_ne_nil _ (List.cons_ne_nil d rest)] at hx
    exact hrest.closed x hx

/-- What comes after the character. -/
theorem followed {before after : List α} (h : Guarded c ok (before ++ c :: after)) :
    ∃ d rest, after = d :: rest ∧ ok d := by
  cases after with
  | nil => exact absurd rfl (h.closed c (by simp))
  | cons d rest =>
      obtain ⟨_, hafter, _⟩ := List.isChain_append.mp h.chain
      exact ⟨d, rest, rfl, (List.isChain_cons_cons.mp hafter).1 rfl⟩

end Guarded
