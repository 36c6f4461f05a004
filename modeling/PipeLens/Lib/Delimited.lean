import Mathlib.Data.List.Infix

/-!
# Delimited blocks in a text

A text in which every opening delimiter is closed before the next one opens, and how
this is read off from the parts of a text. Two parts can be looked at one by one where a
character stands between them that is in no delimiter.
-/

namespace Delimited

variable {α : Type*} {opener closer : List α}

/-- Every block is closed before the next one opens, and before the end. -/
def Balanced (opener closer text : List α) : Prop :=
  ∀ before after, text = before ++ opener ++ after →
    ∃ inner rest, after = inner ++ closer ++ rest ∧ ¬ opener <:+: inner

/-- A word stands on one side of a character that it does not have. -/
theorem on_one_side {word left right before after : List α} {d : α} (hd : d ∉ word)
    (h : before ++ word ++ after = left ++ d :: right) :
    (∃ more, left = before ++ word ++ more ∧ after = more ++ d :: right)
      ∨ ∃ more, before = left ++ d :: more ∧ right = more ++ word ++ after := by
  rcases List.append_eq_append_iff.mp h with ⟨more, hleft, hafter⟩ | ⟨more, hword, hright⟩
  · exact Or.inl ⟨more, hleft, hafter⟩
  · cases more with
    | nil =>
        rw [List.append_nil] at hword
        rw [List.nil_append] at hright
        exact Or.inl ⟨[], by rw [List.append_nil, hword], hright.symm⟩
    | cons c more =>
        obtain ⟨rfl, hrest⟩ := List.cons.inj hright
        -- the character is in `before`, as it cannot be in the word
        rcases List.append_eq_append_iff.mp hword with ⟨tail, hleft, hcons⟩ | ⟨tail, hbefore, hcons⟩
        · exact absurd (by rw [hcons]; simp) hd
        · cases tail with
          | nil =>
              rw [List.nil_append] at hcons
              exact absurd (by rw [← hcons]; exact List.mem_cons_self) hd
          | cons e tail =>
              obtain ⟨rfl, hmore⟩ := List.cons.inj hcons
              exact Or.inr ⟨tail, hbefore, by rw [hrest, hmore]; rfl⟩

/-- A word whose first character is not in the left part. -/
theorem in_right {word left right before after : List α} {c : α} (hc : c ∉ left)
    (h : before ++ (c :: word) ++ after = left ++ right) :
    ∃ more, before = left ++ more ∧ right = more ++ (c :: word) ++ after := by
  rw [List.append_assoc] at h
  rcases List.append_eq_append_iff.mp h with ⟨more, hleft, hword⟩ | ⟨more, hbefore, hright⟩
  · cases more with
    | nil =>
        rw [List.append_nil] at hleft
        refine ⟨[], by rw [List.append_nil, hleft], ?_⟩
        rw [List.nil_append] at hword ⊢
        exact hword.symm
    | cons d more =>
        have hd : c = d := (List.cons.inj hword).1
        exact absurd (by rw [hleft, hd]; simp) hc
  · exact ⟨more, hbefore, by rw [hright, List.append_assoc]⟩

/-! ## Parts of a text -/

theorem balanced_of_absent {text : List α} (h : ¬ opener <:+: text) :
    Balanced opener closer text := by
  intro before after heq
  exact absurd ⟨before, after, heq.symm⟩ h

/-- What comes last is closed by itself. -/
theorem Balanced.right {left right : List α} (h : Balanced opener closer (left ++ right)) :
    Balanced opener closer right := by
  intro before after heq
  refine h (left ++ before) after ?_
  rw [heq]
  simp only [List.append_assoc]

/-- Two parts with a character between them. -/
theorem Balanced.append {left right : List α} {d : α} (hd : d ∉ opener)
    (hleft : Balanced opener closer left) (hright : Balanced opener closer right) :
    Balanced opener closer (left ++ d :: right) := by
  intro before after heq
  rcases on_one_side hd heq.symm with ⟨more, hin, hafter⟩ | ⟨more, hbefore, hin⟩
  · obtain ⟨inner, rest, hclose, hnone⟩ := hleft before more hin
    refine ⟨inner, rest ++ d :: right, ?_, hnone⟩
    rw [hafter, hclose]
    simp only [List.append_assoc]
  · exact hright more after hin

section Lead

/- Both delimiters begin with the same character. -/
variable {c : α} {opened closed : List α}

/-- A part without that character, in front. -/
theorem balanced_append_iff {left right : List α} (hc : c ∉ left) :
    Balanced (c :: opened) closer (left ++ right) ↔ Balanced (c :: opened) closer right := by
  refine ⟨Balanced.right, ?_⟩
  intro h before after heq
  obtain ⟨more, _, hin⟩ := in_right hc heq.symm
  exact h more after hin

/-- A part without that character, at the end, after a character that no delimiter has. -/
theorem balanced_end_iff {left right : List α} {d : α} (hopen : d ∉ c :: opened)
    (hclose : d ∉ c :: closed) (hc : c ∉ right) :
    Balanced (c :: opened) (c :: closed) (left ++ d :: right)
      ↔ Balanced (c :: opened) (c :: closed) left := by
  have hright : ∀ (word : List α) before after, right ≠ before ++ (c :: word) ++ after := by
    intro word before after heq
    refine hc ?_
    rw [heq]
    simp
  constructor
  · intro h before after heq
    obtain ⟨inner, rest, hclosed, hnone⟩ := h before (after ++ d :: right) (by
      rw [heq]
      simp only [List.append_assoc])
    rcases on_one_side hclose hclosed.symm with ⟨more, hin, _⟩ | ⟨more, _, hin⟩
    · exact ⟨inner, more, hin, hnone⟩
    · exact absurd hin (hright closed more rest)
  · intro h
    refine h.append hopen (balanced_of_absent ?_)
    intro hinfix
    obtain ⟨before, after, heq⟩ := hinfix
    exact hright opened before after heq.symm

end Lead

end Delimited
