import Mathlib.Tactic.Common
import PipeLens.Lib.Regex

/-!
# What an expression matches

`Lang r` holds of the texts that `r` can match, leaving aside what `r` asks of their
surroundings. Every way of `run` consumes such a text. The converse needs an
expression that looks at nothing but the text it consumes, a *plain* one: a way
through it exists in front of any of its texts, whatever stands around.

A plain expression between two word boundaries is the shape of most patterns for
tokens. `search_bounded` says when a text has a match of one.
-/

namespace Regex

/-- Nothing in the expression looks at the surroundings of the text it consumes. -/
def plain : Regex → Bool
  | .empty => true
  | .char _ => true
  | .seq r s => r.plain && s.plain
  | .alt r s => r.plain && s.plain
  | .star r => r.plain
  | .group _ r => r.plain
  | .start => false
  | .boundary _ => false
  | .notAhead _ => false

/-- The numbers of the groups in an expression. -/
def groupNumbers : Regex → List Nat
  | .seq r s => r.groupNumbers ++ s.groupNumbers
  | .alt r s => r.groupNumbers ++ s.groupNumbers
  | .star r => r.groupNumbers
  | .group n r => n :: r.groupNumbers
  | _ => []

/-- The texts an expression consumes. -/
inductive Lang : Regex → List Char → Prop where
  | empty : Lang .empty []
  | char {p : Char → Bool} {c : Char} (h : p c = true) : Lang (.char p) [c]
  | seq {r s : Regex} {t u : List Char} (hr : Lang r t) (hs : Lang s u) : Lang (.seq r s) (t ++ u)
  | altLeft {r s : Regex} {t : List Char} (h : Lang r t) : Lang (.alt r s) t
  | altRight {r s : Regex} {t : List Char} (h : Lang s t) : Lang (.alt r s) t
  | starNil {r : Regex} : Lang (.star r) []
  | starCons {r : Regex} {t u : List Char} (hr : Lang r t) (hs : Lang (.star r) u) :
      Lang (.star r) (t ++ u)
  | group {n : Nat} {r : Regex} {t : List Char} (h : Lang r t) : Lang (.group n r) t
  | start : Lang .start []
  | boundary {p : Char → Bool} : Lang (.boundary p) []
  | notAhead {r : Regex} : Lang (.notAhead r) []

/-- From `pos` to `pos'` the text `t` is consumed, and groups with these numbers are found. -/
structure Consumes (numbers : List Nat) (t : List Char) (pos pos' : Pos) : Prop where
  after : pos.after = t ++ pos'.after
  before : pos'.before = t.reverse ++ pos.before
  groups : ∃ found : List (Nat × List Char),
    pos'.groups = found ++ pos.groups ∧ ∀ item ∈ found, item.1 ∈ numbers

namespace Consumes

variable {numbers numbers' : List Nat} {t u : List Char} {pos mid pos' : Pos}

theorem nothing (pos : Pos) : Consumes numbers [] pos pos :=
  ⟨rfl, rfl, [], rfl, fun _ h => absurd h List.not_mem_nil⟩

theorem mono (h : Consumes numbers t pos pos') (hsub : ∀ n ∈ numbers, n ∈ numbers') :
    Consumes numbers' t pos pos' := by
  obtain ⟨found, hfound, hin⟩ := h.groups
  exact ⟨h.after, h.before, found, hfound, fun item hm => hsub _ (hin item hm)⟩

theorem trans (h : Consumes numbers t pos mid) (h' : Consumes numbers u mid pos') :
    Consumes numbers (t ++ u) pos pos' := by
  obtain ⟨found, hfound, hin⟩ := h.groups
  obtain ⟨found', hfound', hin'⟩ := h'.groups
  refine ⟨by rw [h.after, h'.after, List.append_assoc], ?_, found' ++ found, ?_, ?_⟩
  · rw [h'.before, h.before, List.reverse_append, List.append_assoc]
  · rw [hfound', hfound, List.append_assoc]
  · intro item hm
    rcases List.mem_append.mp hm with hm | hm
    · exact hin' item hm
    · exact hin item hm

end Consumes

/-! ## Every way consumes a text of the expression -/

theorem iterate_sound {r : Regex}
    (hr : ∀ {pos pos' : Pos}, pos' ∈ r.run pos →
      ∃ t, Lang r t ∧ Consumes r.groupNumbers t pos pos') {n : Nat} {pos pos' : Pos}
    (h : pos' ∈ iterate r.run n pos) :
    ∃ t, Lang (.star r) t ∧ Consumes r.groupNumbers t pos pos' := by
  induction n generalizing pos with
  | zero =>
      rw [iterate, List.mem_singleton] at h
      subst h
      exact ⟨[], .starNil, .nothing pos'⟩
  | succ n ih =>
      rw [iterate, List.mem_append, List.mem_flatMap, List.mem_singleton] at h
      rcases h with ⟨mid, hmid, hrest⟩ | rfl
      · obtain ⟨t, ht, hstep⟩ := hr (List.mem_filter.mp hmid).1
        obtain ⟨u, hu, hsteps⟩ := ih hrest
        exact ⟨t ++ u, .starCons ht hu, hstep.trans hsteps⟩
      · exact ⟨[], .starNil, .nothing pos'⟩

/-- **Soundness.** -/
theorem run_sound {r : Regex} {pos pos' : Pos} (h : pos' ∈ r.run pos) :
    ∃ t, Lang r t ∧ Consumes r.groupNumbers t pos pos' := by
  induction r generalizing pos pos' with
  | empty =>
      rw [run, List.mem_singleton] at h
      subst h
      exact ⟨[], .empty, .nothing pos'⟩
  | char p =>
      rw [run] at h
      split at h
      · exact absurd h List.not_mem_nil
      · rename_i c after hafter
        split at h
        · rename_i hp
          rw [List.mem_singleton] at h
          subst h
          exact ⟨[c], .char hp, hafter, rfl, [], rfl, fun _ hm => absurd hm List.not_mem_nil⟩
        · exact absurd h List.not_mem_nil
  | seq r s ihr ihs =>
      rw [run, List.mem_flatMap] at h
      obtain ⟨mid, hmid, hrest⟩ := h
      obtain ⟨t, ht, hstep⟩ := ihr hmid
      obtain ⟨u, hu, hstep'⟩ := ihs hrest
      exact ⟨t ++ u, .seq ht hu, (hstep.mono fun n hn => List.mem_append_left _ hn).trans
        (hstep'.mono fun n hn => List.mem_append_right _ hn)⟩
  | alt r s ihr ihs =>
      rw [run, List.mem_append] at h
      rcases h with h | h
      · obtain ⟨t, ht, hstep⟩ := ihr h
        exact ⟨t, .altLeft ht, hstep.mono fun n hn => List.mem_append_left _ hn⟩
      · obtain ⟨t, ht, hstep⟩ := ihs h
        exact ⟨t, .altRight ht, hstep.mono fun n hn => List.mem_append_right _ hn⟩
  | star r ih =>
      rw [run] at h
      exact iterate_sound ih h
  | group n r ih =>
      rw [run, List.mem_map] at h
      obtain ⟨mid, hmid, rfl⟩ := h
      obtain ⟨t, ht, hstep⟩ := ih hmid
      obtain ⟨found, hfound, hin⟩ := hstep.groups
      refine ⟨t, .group ht, hstep.after, hstep.before,
        (n, pos.after.take (pos.after.length - mid.after.length)) :: found, ?_, ?_⟩
      · rw [List.cons_append, ← hfound]
      · intro item hm
        rcases List.mem_cons.mp hm with rfl | hm
        · exact List.mem_cons_self
        · exact List.mem_cons_of_mem _ (hin item hm)
  | start =>
      rw [run] at h
      split at h
      · rw [List.mem_singleton] at h
        subst h
        exact ⟨[], .start, .nothing pos'⟩
      · exact absurd h List.not_mem_nil
  | boundary p =>
      rw [run] at h
      split at h
      · rw [List.mem_singleton] at h
        subst h
        exact ⟨[], .boundary, .nothing pos'⟩
      · exact absurd h List.not_mem_nil
  | notAhead r _ =>
      rw [run] at h
      split at h
      · rw [List.mem_singleton] at h
        subst h
        exact ⟨[], .notAhead, .nothing pos'⟩
      · exact absurd h List.not_mem_nil

/-! ## A plain expression matches its texts anywhere -/

/-- A way through `r` that consumes `t`, wherever it stands. -/
def Reaches (ways : Pos → List Pos) (t : List Char) : Prop :=
  ∀ before rest groups, ∃ groups',
    { before := t.reverse ++ before, after := rest, groups := groups' : Pos }
      ∈ ways { before := before, after := t ++ rest, groups := groups }

theorem iterate_complete {r : Regex} (hr : ∀ {t : List Char}, Lang r t → Reaches r.run t)
    {t : List Char} (h : Lang (.star r) t) {n : Nat} (hn : t.length ≤ n) :
    Reaches (iterate r.run n) t := by
  generalize hs : Regex.star r = s at h
  induction h generalizing n with
  | starNil =>
      intro before rest groups
      refine ⟨groups, ?_⟩
      cases n with
      | zero => exact List.mem_singleton.mpr rfl
      | succ n => exact List.mem_append_right _ (List.mem_singleton.mpr rfl)
  | @starCons r' t u ht hu _ ih =>
      cases hs
      have hu' : u.length ≤ n := by
        rw [List.length_append] at hn
        omega
      by_cases hempty : t = []
      · subst hempty
        exact ih hu' rfl
      · intro before rest groups
        have hpos : 0 < t.length := List.length_pos_iff.mpr hempty
        cases n with
        | zero =>
            rw [List.length_append] at hn
            omega
        | succ n =>
            obtain ⟨groups₁, hstep⟩ := hr ht before (u ++ rest) groups
            have hrest : u.length ≤ n := by
              rw [List.length_append] at hn
              omega
            obtain ⟨groups₂, hsteps⟩ := ih hrest rfl (t.reverse ++ before) rest groups₁
            refine ⟨groups₂, List.mem_append_left _ (List.mem_flatMap.mpr
              ⟨⟨t.reverse ++ before, u ++ rest, groups₁⟩, ?_, ?_⟩)⟩
            · rw [List.append_assoc]
              refine List.mem_filter.mpr ⟨hstep, decide_eq_true ?_⟩
              simp only [List.length_append]
              omega
            · rw [List.reverse_append, List.append_assoc]
              exact hsteps
  | _ => exact absurd hs (by simp)

/-- **Completeness.** -/
theorem run_complete {r : Regex} (hplain : r.plain = true) {t : List Char} (h : Lang r t) :
    Reaches r.run t := by
  induction r generalizing t with
  | empty =>
      cases h
      exact fun before rest groups => ⟨groups, List.mem_singleton.mpr rfl⟩
  | char p =>
      cases h with
      | char hp =>
          intro before rest groups
          exact ⟨groups, by simp [run, hp]⟩
  | seq r s ihr ihs =>
      rw [plain, Bool.and_eq_true] at hplain
      cases h with
      | seq hr hs =>
          rename_i t u
          intro before rest groups
          obtain ⟨groups₁, hmid⟩ := ihr hplain.1 hr before (u ++ rest) groups
          obtain ⟨groups₂, hend⟩ := ihs hplain.2 hs (t.reverse ++ before) rest groups₁
          refine ⟨groups₂, ?_⟩
          rw [List.append_assoc, List.reverse_append, List.append_assoc]
          exact mem_run_seq _ hmid hend
  | alt r s ihr ihs =>
      rw [plain, Bool.and_eq_true] at hplain
      intro before rest groups
      cases h with
      | altLeft h =>
          obtain ⟨groups', hin⟩ := ihr hplain.1 h before rest groups
          exact ⟨groups', List.mem_append_left _ hin⟩
      | altRight h =>
          obtain ⟨groups', hin⟩ := ihs hplain.2 h before rest groups
          exact ⟨groups', List.mem_append_right _ hin⟩
  | star r ih =>
      intro before rest groups
      exact iterate_complete (ih hplain) h (by simp) before rest groups
  | group n r ih =>
      cases h with
      | group h =>
          intro before rest groups
          obtain ⟨groups', hin⟩ := ih hplain h before rest groups
          exact ⟨_, List.mem_map.mpr ⟨_, hin, rfl⟩⟩
  | start => exact absurd hplain (by simp [plain])
  | boundary p => exact absurd hplain (by simp [plain])
  | notAhead r _ => exact absurd hplain (by simp [plain])

/-! ## Searching -/

theorem searchFrom_iff {r : Regex} {before after : List Char} :
    searchFrom r before after = true
    ↔ ∃ x y, after = x ++ y ∧ r.run { before := x.reverse ++ before, after := y } ≠ [] := by
  induction after generalizing before with
  | nil =>
      rw [searchFrom, Bool.not_eq_true', List.isEmpty_eq_false_iff]
      constructor
      · intro h
        exact ⟨[], [], rfl, h⟩
      · rintro ⟨x, y, hxy, h⟩
        obtain ⟨rfl, rfl⟩ := List.append_eq_nil_iff.mp hxy.symm
        exact h
  | cons c after ih =>
      rw [searchFrom, Bool.or_eq_true, Bool.not_eq_true', List.isEmpty_eq_false_iff, ih]
      constructor
      · rintro (h | ⟨x, y, rfl, h⟩)
        · exact ⟨[], c :: after, rfl, h⟩
        · exact ⟨c :: x, y, rfl, by simpa using h⟩
      · rintro ⟨x, y, hxy, h⟩
        cases x with
        | nil =>
            rw [List.nil_append] at hxy
            subst hxy
            exact Or.inl h
        | cons d x =>
            rw [List.cons_append, List.cons.injEq] at hxy
            obtain ⟨rfl, rfl⟩ := hxy
            exact Or.inr ⟨x, y, rfl, by simpa using h⟩

/-- An expression that consumes a text of its own finds it in any text around. -/
theorem search_of_part {r : Regex} (hplain : r.plain = true) {x t y : List Char}
    (h : Lang r t) : r.search (x ++ t ++ y) = true := by
  obtain ⟨groups', hin⟩ := run_complete hplain h x.reverse y []
  refine searchFrom_iff.mpr ⟨x, t ++ y, List.append_assoc .., ?_⟩
  rw [List.append_nil]
  exact List.ne_nil_of_mem hin

/-! ## Expressions between word boundaries -/

/-- `\b…\b`. -/
def bounded (p : Char → Bool) (body : Regex) : Regex := all [.boundary p, body, .boundary p]

/-- There is a word boundary between the two texts. -/
def Edge (p : Char → Bool) (x y : List Char) : Prop := isBoundary p ⟨x.reverse, y, []⟩ = true

theorem isBoundary_eq {p : Char → Bool} {before after : List Char}
    {groups : List (Nat × List Char)} :
    isBoundary p ⟨before, after, groups⟩ = true ↔ Edge p before.reverse after := by
  rw [Edge, List.reverse_reverse]
  exact Iff.rfl

/-- A text of the body stands between `x` and `y`, with a word boundary on either side. -/
structure Occurs (p : Char → Bool) (body : Regex) (x t y : List Char) : Prop where
  text : Lang body t
  left : Edge p x (t ++ y)
  right : Edge p (x ++ t) y

theorem run_bounded_sound {p : Char → Bool} {body : Regex} {pos pos' : Pos}
    (h : pos' ∈ (bounded p body).run pos) :
    ∃ t, Consumes body.groupNumbers t pos pos'
      ∧ Occurs p body pos.before.reverse t pos'.after := by
  simp only [bounded, all, run, List.mem_flatMap, List.mem_ite_nil_right, List.mem_singleton] at h
  obtain ⟨first, ⟨hleft, hfirst⟩, mid, hmid, last, ⟨hright, hlast⟩, hend⟩ := h
  rw [hfirst] at hmid
  rw [hend, hlast]
  obtain ⟨t, ht, hstep⟩ := run_sound hmid
  refine ⟨t, hstep, ht, ?_, ?_⟩
  · rw [← hstep.after]
    exact isBoundary_eq.mp hleft
  · have hbefore : mid.before.reverse = pos.before.reverse ++ t := by
      rw [hstep.before, List.reverse_append, List.reverse_reverse]
    rw [← hbefore]
    exact isBoundary_eq.mp hright

theorem run_bounded_complete {p : Char → Bool} {body : Regex} (hplain : body.plain = true)
    {x t y : List Char} (h : Occurs p body x t y) :
    (bounded p body).run { before := x.reverse, after := t ++ y } ≠ [] := by
  obtain ⟨groups', hin⟩ := run_complete hplain h.text x.reverse y []
  have hright : isBoundary p ⟨t.reverse ++ x.reverse, y, groups'⟩ = true := by
    rw [isBoundary_eq, List.reverse_append, List.reverse_reverse, List.reverse_reverse]
    exact h.right
  refine List.ne_nil_of_mem
    (mem_run_seq { before := x.reverse, after := t ++ y } ?_ (mem_run_seq _ hin
      (mem_run_seq ⟨t.reverse ++ x.reverse, y, groups'⟩ ?_ (List.mem_singleton.mpr rfl))))
  · rw [run, if_pos (isBoundary_eq.mpr (by rw [List.reverse_reverse]; exact h.left))]
    exact List.mem_singleton.mpr rfl
  · rw [run, if_pos hright]
    exact List.mem_singleton.mpr rfl

/-- **A search finds what occurs.** -/
theorem search_bounded {p : Char → Bool} {body : Regex} (hplain : body.plain = true)
    {text : List Char} :
    (bounded p body).search text = true ↔ ∃ x t y, text = x ++ t ++ y ∧ Occurs p body x t y := by
  rw [search, searchFrom_iff]
  constructor
  · rintro ⟨x, y, rfl, h⟩
    obtain ⟨pos', hpos⟩ := List.exists_mem_of_ne_nil _ h
    obtain ⟨t, hstep, hoccurs⟩ := run_bounded_sound hpos
    have hy : y = t ++ pos'.after := hstep.after
    rw [List.append_nil, List.reverse_reverse] at hoccurs
    exact ⟨x, t, pos'.after, by rw [hy, List.append_assoc], hoccurs⟩
  · rintro ⟨x, t, y, rfl, h⟩
    refine ⟨x, t ++ y, List.append_assoc .., ?_⟩
    rw [List.append_nil]
    exact run_bounded_complete hplain h

end Regex
