import Mathlib.Data.List.Nodup

/-!
# Records as lists of fields

A record is written as a list of names and values. One is built by computing a value for each
item of a list, where each computation can fail; what was computed for an item is then found
under its name.
-/

namespace Fields

variable {α ε κ ν β γ : Type}

/-- A field for every item, or the first error. -/
def build (key : α → κ) (value : α → Except ε ν) : List α → Except ε (List (κ × ν))
  | [] => .ok []
  | a :: as => do
      let v ← value a
      let fields ← build key value as
      return (key a, v) :: fields

/-- A computation that goes on after another one succeeds only if both do. -/
theorem bind_ok {x : Except ε β} {f : β → Except ε γ} {c : γ} (h : x >>= f = .ok c) :
    ∃ b, x = .ok b ∧ f b = .ok c := by
  cases x with
  | error e => exact nomatch h
  | ok b => exact ⟨b, rfl, h⟩

variable {key : α → κ} {value : α → Except ε ν}

theorem build_total {as : List α} (h : ∀ a ∈ as, ∃ v, value a = .ok v) :
    ∃ fields, build key value as = .ok fields := by
  induction as with
  | nil => exact ⟨[], rfl⟩
  | cons a as ih =>
      obtain ⟨v, hv⟩ := h a List.mem_cons_self
      obtain ⟨fields, hfields⟩ := ih fun b hb => h b (List.mem_cons_of_mem a hb)
      refine ⟨(key a, v) :: fields, ?_⟩
      rw [build, hv, hfields]
      rfl

/-- **Every field is found under its name.** -/
theorem lookup_build [BEq κ] [LawfulBEq κ] {as : List α} {fields : List (κ × ν)}
    (hbuild : build key value as = .ok fields) (hnodup : (as.map key).Nodup) :
    ∀ a ∈ as, ∃ v, value a = .ok v ∧ fields.lookup (key a) = some v := by
  induction as generalizing fields with
  | nil => exact nofun
  | cons b as ih =>
      rw [build] at hbuild
      obtain ⟨v, hv, hrest⟩ := bind_ok hbuild
      obtain ⟨rest, hfields, hcons⟩ := bind_ok hrest
      have heq : (key b, v) :: rest = fields := Except.ok.inj hcons
      rw [List.map_cons, List.nodup_cons] at hnodup
      rw [← heq]
      intro a ha
      rcases List.mem_cons.mp ha with hhead | htail
      · rw [hhead]
        exact ⟨v, hv, by rw [List.lookup_cons_self]⟩
      · obtain ⟨w, hw, hlookup⟩ := ih hfields hnodup.2 a htail
        have hne : (key a == key b) = false := by
          rw [beq_eq_false_iff_ne]
          intro hkeys
          exact hnodup.1 (hkeys ▸ List.mem_map_of_mem htail)
        exact ⟨w, hw, by rw [List.lookup_cons, hne]; exact hlookup⟩

end Fields
