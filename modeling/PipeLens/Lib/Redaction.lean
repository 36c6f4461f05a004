import PipeLens.Lib.RegexLanguage

/-!
# Redacting by substitution

`subn` replaces each match of an expression by a template, which may repeat a group.
A redaction is a substitution that keeps a first part of each match, and puts a mark
in place of the rest. `Redacts` is what is common to all of them: a text in which
pieces have been cut out, each replaced by the mark, and none cut off inside a word.

The mark is bracketed by characters that are no word characters. So a token that
occurs in the result without a bracket in it stands in a piece that was kept, and it
occurred there before: a cut makes no new token (`Redacts.occurs`). Where the cuts
are all that the expression matches, none is left at all.
-/

namespace Regex

/-! ## Expressions that exclude a character -/

/-- The expression never consumes the character. -/
def excludes (c : Char) : Regex → Bool
  | .char p => !p c
  | .seq r s => r.excludes c && s.excludes c
  | .alt r s => r.excludes c && s.excludes c
  | .star r => r.excludes c
  | .group _ r => r.excludes c
  | _ => true

/-- The expression may consume nothing. -/
def nullable : Regex → Bool
  | .char _ => false
  | .seq r s => r.nullable && s.nullable
  | .alt r s => r.nullable || s.nullable
  | .group _ r => r.nullable
  | _ => true

theorem not_mem_of_excludes {c : Char} {r : Regex} {t : List Char} (h : Lang r t)
    (hex : r.excludes c = true) : c ∉ t := by
  induction h with
  | char hp =>
      intro hm
      rw [List.mem_singleton] at hm
      subst hm
      rw [excludes, hp] at hex
      exact absurd hex (by simp)
  | seq _ _ ihr ihs =>
      rw [excludes, Bool.and_eq_true] at hex
      rw [List.mem_append, not_or]
      exact ⟨ihr hex.1, ihs hex.2⟩
  | altLeft _ ih =>
      rw [excludes, Bool.and_eq_true] at hex
      exact ih hex.1
  | altRight _ ih =>
      rw [excludes, Bool.and_eq_true] at hex
      exact ih hex.2
  | starCons _ _ ihr ihs =>
      rw [List.mem_append, not_or]
      exact ⟨ihr hex, ihs hex⟩
  | group _ ih => exact ih hex
  | empty | starNil | start | boundary | notAhead => exact List.not_mem_nil

theorem ne_nil_of_not_nullable {r : Regex} {t : List Char} (h : Lang r t)
    (hnull : r.nullable = false) : t ≠ [] := by
  induction h with
  | char _ => exact List.cons_ne_nil _ _
  | seq _ _ ihr ihs =>
      rw [nullable, Bool.and_eq_false_iff] at hnull
      intro he
      obtain ⟨ht, hu⟩ := List.append_eq_nil_iff.mp he
      rcases hnull with hr | hs
      · exact ihr hr ht
      · exact ihs hs hu
  | altLeft _ ih =>
      rw [nullable, Bool.or_eq_false_iff] at hnull
      exact ih hnull.1
  | altRight _ ih =>
      rw [nullable, Bool.or_eq_false_iff] at hnull
      exact ih hnull.2
  | group _ ih => exact ih hnull
  | empty | starNil | starCons | start | boundary | notAhead => exact absurd hnull (by simp [nullable])

/-! ## `subn` -/

/-- A part of a template. -/
inductive Part where
  | text (t : List Char)
  /-- `\n`. -/
  | group (n : Nat)
  deriving DecidableEq, Repr

/-- What a part stands for after a match; a group that took no part is empty. -/
def Part.expand (pos : Pos) : Part → List Char
  | .text t => t
  | .group n => (pos.groups.lookup n).getD []

/-- `r.subn(template, text)` from here on, for an `r` that matches no empty text. -/
def subnFrom (r : Regex) (template : List Part) :
    Nat → List Char → List Char → List Char × Nat
  | 0, _, after => (after, 0)
  | _ + 1, _, [] => ([], 0)
  | n + 1, before, c :: after =>
      match (r.run { before := before, after := c :: after }).head? with
      | none =>
          let rest := subnFrom r template n (c :: before) after
          (c :: rest.1, rest.2)
      | some pos =>
          let rest := subnFrom r template n pos.before pos.after
          (template.flatMap (Part.expand pos) ++ rest.1, rest.2 + 1)

/-- The text with every match replaced, and their number. -/
def subn (r : Regex) (template : List Part) (text : List Char) : List Char × Nat :=
  subnFrom r template (text.length + 1) [] text

end Regex

open Regex

/-- A mark between two characters that stand in no word. -/
structure Mark (p : Char → Bool) where
  opening : Char
  inner : List Char
  closing : Char
  opening_out : p opening = false
  closing_out : p closing = false

def Mark.text {p : Char → Bool} (m : Mark p) : List Char := m.opening :: (m.inner ++ [m.closing])

/-- A cut between the two is not inside a word. -/
def CleanCut (p : Char → Bool) (a b : Option Char) : Prop := ¬ (a.any p = true ∧ b.any p = true)

/-- There is a word boundary between the two. -/
def Joint (p : Char → Bool) (a b : Option Char) : Prop := (a.any p != b.any p) = true

theorem Joint.clean {p : Char → Bool} {a b : Option Char} (h : Joint p a b) : CleanCut p a b := by
  rintro ⟨ha, hb⟩
  rw [Joint, ha, hb] at h
  exact absurd h (by simp)

/-- A boundary next to a character of no word is one next to whatever is cleanly cut off. -/
theorem Joint.of_clean {p : Char → Bool} {a a' b : Option Char} (h : Joint p a' b)
    (ha : a'.any p = false) (hclean : CleanCut p a b) : Joint p a b := by
  have hb : b.any p = true := by
    rw [Joint, ha] at h
    simpa using h
  have ha' : a.any p = false := by
    rw [← Bool.not_eq_true]
    exact fun hp => hclean ⟨hp, hb⟩
  rw [Joint, ha', hb]
  rfl

theorem Joint.symm {p : Char → Bool} {a b : Option Char} (h : Joint p a b) : Joint p b a := by
  have hcomm : (b.any p != a.any p) = (a.any p != b.any p) := by
    cases a.any p <;> cases b.any p <;> rfl
  rw [Joint, hcomm]
  exact h

theorem CleanCut.symm {p : Char → Bool} {a b : Option Char} (h : CleanCut p a b) :
    CleanCut p b a := fun hab => h ⟨hab.2, hab.1⟩

/--
`out` is `text`, which stands after `before` (in reverse), with pieces cut out and
marked. Where a character is kept, `keeps` holds of what stands before and after.
-/
inductive Redacts {p : Char → Bool} (m : Mark p) (keeps : List Char → List Char → Prop) :
    List Char → List Char → List Char → Prop where
  | nil {before : List Char} : Redacts m keeps before [] []
  | keep {before text out : List Char} {c : Char} (hkeep : keeps before (c :: text))
      (h : Redacts m keeps (c :: before) text out) : Redacts m keeps before (c :: text) (c :: out)
  | cut {before removed rest out : List Char} (hne : removed ≠ [])
      (left : CleanCut p before.head? removed.head?)
      (right : CleanCut p removed.getLast? rest.head?)
      (h : Redacts m keeps (removed.reverse ++ before) rest out) :
      Redacts m keeps before (removed ++ rest) (m.text ++ out)

namespace Redacts

variable {p : Char → Bool} {m : Mark p} {keeps : List Char → List Char → Prop}
  {before text out : List Char}

/-! ## What occurs in the result occurred before -/

/-- A text without `c` lies on one side of each `c`. -/
theorem append_cons_split {a b x t y : List Char} {c : Char} (h : a ++ c :: b = x ++ t ++ y)
    (hc : c ∉ t) :
    (∃ z, a = x ++ t ++ z ∧ y = z ++ c :: b) ∨ ∃ z, x = a ++ c :: z ∧ b = z ++ t ++ y := by
  rw [List.append_assoc] at h
  rcases List.append_eq_append_iff.mp h with ⟨u, hx, hcb⟩ | ⟨u, ha, hty⟩
  · cases u with
    | nil =>
        rw [List.append_nil] at hx
        rw [List.nil_append] at hcb
        cases t with
        | nil => exact Or.inl ⟨[], by simp [hx], hcb.symm⟩
        | cons d t =>
            rw [List.cons_append, List.cons.injEq] at hcb
            exact absurd (hcb.1 ▸ List.mem_cons_self) hc
    | cons d u =>
        rw [List.cons_append, List.cons.injEq] at hcb
        obtain ⟨rfl, hb⟩ := hcb
        exact Or.inr ⟨u, hx, by rw [hb, List.append_assoc]⟩
  · rcases List.append_eq_append_iff.mp hty with ⟨v, hu, hcb⟩ | ⟨v, ht, hvb⟩
    · exact Or.inl ⟨v, by rw [ha, hu, List.append_assoc], hcb⟩
    · cases v with
      | nil =>
          rw [List.append_nil] at ht
          rw [List.nil_append] at hvb
          exact Or.inl ⟨[], by rw [ha, ht, List.append_nil], hvb.symm⟩
      | cons d v =>
          rw [List.cons_append, List.cons.injEq] at hvb
          have hin : c ∈ t := by
            rw [ht, hvb.1]
            exact List.mem_append_right _ List.mem_cons_self
          exact absurd hin hc

/-- The two texts go on alike, or one with a character of no word where the other is cut. -/
def GoOnAlike (p : Char → Bool) (last : Option Char) (y y' : List Char) : Prop :=
  y'.head? = y.head? ∨ (y.head?.any p = false ∧ CleanCut p last y'.head?)

/-- A beginning of the result without the mark's bracket has been kept. -/
theorem kept_beginning (h : Redacts m keeps before text out) {t y : List Char}
    (hout : out = t ++ y) (hopen : m.opening ∉ t) :
    ∃ y', text = t ++ y' ∧ GoOnAlike p (t.reverse ++ before).head? y y' := by
  induction h generalizing t with
  | nil =>
      obtain ⟨rfl, rfl⟩ := List.append_eq_nil_iff.mp hout.symm
      exact ⟨[], rfl, Or.inl rfl⟩
  | @keep before text out c _ _ ih =>
      cases t with
      | nil =>
          rw [List.nil_append] at hout
          exact ⟨c :: text, rfl, Or.inl (by rw [← hout]; rfl)⟩
      | cons d t =>
          rw [List.cons_append, List.cons.injEq] at hout
          obtain ⟨rfl, hout⟩ := hout
          obtain ⟨y', htext, hgo⟩ := ih hout fun hm => hopen (List.mem_cons_of_mem _ hm)
          refine ⟨y', by rw [htext]; rfl, ?_⟩
          rw [List.reverse_cons, List.append_assoc]
          exact hgo
  | @cut before removed rest out hne left _ _ _ =>
      cases t with
      | nil =>
          rw [List.nil_append] at hout
          obtain ⟨d, removed, rfl⟩ := List.exists_cons_of_ne_nil hne
          refine ⟨d :: removed ++ rest, rfl, Or.inr ⟨?_, left⟩⟩
          rw [← hout]
          exact m.opening_out
      | cons d t =>
          rw [Mark.text, List.cons_append, List.cons_append, List.cons.injEq] at hout
          exact absurd (hout.1 ▸ List.mem_cons_self) hopen

/-- A text stands after `x` in the result, and after `x'` in the text, with the same boundaries. -/
structure Stands (p : Char → Bool) (keeps : List Char → List Char → Prop)
    (before outBefore x x' t y y' : List Char) : Prop where
  kept : keeps (x'.reverse ++ before) (t ++ y')
  left : Joint p (x.reverse ++ outBefore).head? t.head? →
    Joint p (x'.reverse ++ before).head? t.head?
  right : Joint p t.getLast? y.head? → Joint p t.getLast? y'.head?

theorem getLast?_eq_head? {t before : List Char} (ht : t ≠ []) :
    (t.reverse ++ before).head? = t.getLast? := by
  rw [← List.head?_reverse]
  cases hr : t.reverse with
  | nil => exact absurd (List.reverse_eq_nil_iff.mp hr) ht
  | cons c r => rfl

theorem joint_right {t before y y' : List Char} (ht : t ≠ [])
    (hgo : GoOnAlike p (t.reverse ++ before).head? y y') (h : Joint p t.getLast? y.head?) :
    Joint p t.getLast? y'.head? := by
  rcases hgo with he | ⟨hout, hclean⟩
  · rw [he]
    exact h
  · rw [getLast?_eq_head? ht] at hclean
    exact (h.symm.of_clean hout hclean.symm).symm

/--
**What occurs in the result occurred in the text.** A text without the brackets of the
mark that stands in the result, and not inside the mark, has been kept: it stands in
the original text, with a word boundary wherever it has one in the result.
-/
theorem occurs (h : Redacts m keeps before text out) {outBefore : List Char}
    (hctx : before.head? = outBefore.head?
      ∨ (outBefore.head?.any p = false ∧ CleanCut p before.head? text.head?))
    {x t y : List Char} (hout : out = x ++ t ++ y) (ht : t ≠ []) (hopen : m.opening ∉ t)
    (hclose : m.closing ∉ t) (hinner : ¬ t <:+: m.inner) :
    ∃ x' y', text = x' ++ t ++ y' ∧ Stands p keeps before outBefore x x' t y y' := by
  induction h generalizing outBefore x with
  | nil =>
      obtain ⟨hxt, _⟩ := List.append_eq_nil_iff.mp hout.symm
      exact absurd (List.append_eq_nil_iff.mp hxt).2 ht
  | @keep before text out c hkeep hrest ih =>
      cases x with
      | nil =>
          rw [List.nil_append] at hout
          obtain ⟨y', htext, hgo⟩ := (Redacts.keep hkeep hrest).kept_beginning hout hopen
          refine ⟨[], y', by rw [htext]; rfl, ?_, ?_, joint_right ht hgo⟩
          · rw [← htext]
            exact hkeep
          · have hhead : (c :: text).head? = t.head? := by
              rw [htext]
              obtain ⟨d, t, rfl⟩ := List.exists_cons_of_ne_nil ht
              rfl
            intro hj
            rcases hctx with he | ⟨houtb, hclean⟩
            · rw [List.reverse_nil, List.nil_append] at hj ⊢
              rw [he]
              exact hj
            · rw [hhead] at hclean
              exact hj.of_clean houtb hclean
      | cons d x =>
          rw [List.cons_append, List.cons_append, List.cons.injEq] at hout
          obtain ⟨rfl, hout⟩ := hout
          obtain ⟨x', y', htext, hkept, hleft, hright⟩ :=
            @ih (c :: outBefore) (Or.inl rfl) x hout
          refine ⟨c :: x', y', by rw [htext]; rfl, ?_, ?_, hright⟩
          · rw [List.reverse_cons, List.append_assoc]
            exact hkept
          · rw [List.reverse_cons, List.append_assoc, List.reverse_cons, List.append_assoc]
            exact hleft
  | @cut before removed rest out hne left right hrest ih =>
      cases x with
      | nil =>
          obtain ⟨d, t, rfl⟩ := List.exists_cons_of_ne_nil ht
          rw [Mark.text, List.nil_append, List.cons_append, List.cons_append,
            List.cons.injEq] at hout
          exact absurd (hout.1 ▸ List.mem_cons_self) hopen
      | cons d x =>
          rw [Mark.text, List.cons_append, List.cons_append, List.cons_append, List.cons.injEq,
            List.append_assoc, List.singleton_append] at hout
          obtain ⟨rfl, hout⟩ := hout
          rcases append_cons_split hout hclose with ⟨z, hz, _⟩ | ⟨z, hx, hz⟩
          · exact absurd ⟨x, z, hz.symm⟩ hinner
          · have hclean : CleanCut p (removed.reverse ++ before).head? rest.head? := by
              rw [getLast?_eq_head? hne]
              exact right
            obtain ⟨x', y', htext, hkept, hleft, hright⟩ :=
              @ih (m.closing :: (m.inner.reverse ++ m.opening :: outBefore))
                (Or.inr ⟨m.closing_out, hclean⟩) z hz
            refine ⟨removed ++ x', y', by rw [htext]; simp, ?_, ?_, hright⟩
            · rw [List.reverse_append, List.append_assoc]
              exact hkept
            · rw [hx, List.reverse_append, List.append_assoc]
              intro hj
              refine hleft ?_
              simpa using hj

end Redacts

/-! ## Tokens -/

/-- An expression for tokens that fit into no mark. -/
structure Token.Fits {p : Char → Bool} (body : Regex) (m : Mark p) : Prop where
  plain : body.plain = true
  nonempty : body.nullable = false
  opening : body.excludes m.opening = true
  closing : body.excludes m.closing = true
  inner : body.search m.inner = false

namespace Redacts

variable {p : Char → Bool} {m : Mark p} {keeps : List Char → List Char → Prop}
  {text out : List Char} {body : Regex}

theorem edge_iff {x y : List Char} : Edge p x y ↔ Joint p x.reverse.head? y.head? := Iff.rfl

/-- A token of the result is a token of the text, in a place that was kept. -/
theorem token_kept (h : Redacts m keeps [] text out) (hfits : Token.Fits body m)
    {x t y : List Char} (hout : out = x ++ t ++ y) (ho : Occurs p body x t y) :
    ∃ x' y', text = x' ++ t ++ y' ∧ keeps x'.reverse (t ++ y') ∧ Occurs p body x' t y' := by
  have ht : t ≠ [] := ne_nil_of_not_nullable ho.text hfits.nonempty
  have hinner : ¬ t <:+: m.inner := by
    rintro ⟨a, b, hab⟩
    have hfound := search_of_part (x := a) (y := b) hfits.plain ho.text
    rw [hab, hfits.inner] at hfound
    exact absurd hfound (by simp)
  have hhead : ∀ y : List Char, (t ++ y).head? = t.head? := by
    intro y
    obtain ⟨d, t, rfl⟩ := List.exists_cons_of_ne_nil ht
    rfl
  have hlast : ∀ x : List Char, (x ++ t).reverse.head? = t.getLast? := by
    intro x
    rw [List.reverse_append]
    exact getLast?_eq_head? ht
  obtain ⟨x', y', htext, hkept, hleft, hright⟩ := @occurs _ _ _ _ _ _ h [] (Or.inl rfl) _ _ _ hout ht
    (not_mem_of_excludes ho.text hfits.opening) (not_mem_of_excludes ho.text hfits.closing) hinner
  rw [List.append_nil] at hkept hleft
  rw [List.append_nil] at hleft
  refine ⟨x', y', htext, hkept, ho.text, ?_, ?_⟩
  · have hj := ho.left
    rw [edge_iff, hhead] at hj ⊢
    exact hleft hj
  · have hj := ho.right
    rw [edge_iff, hlast] at hj ⊢
    exact hright hj

/-- **A redaction makes no token.** -/
theorem search_false (h : Redacts m keeps [] text out) (hfits : Token.Fits body m)
    (hnone : (bounded p body).search text = false) : (bounded p body).search out = false := by
  rw [← Bool.not_eq_true] at hnone ⊢
  intro hfound
  obtain ⟨x, t, y, hout, ho⟩ := (search_bounded hfits.plain).mp hfound
  obtain ⟨x', y', htext, _, ho'⟩ := h.token_kept hfits hout ho
  exact hnone ((search_bounded hfits.plain).mpr ⟨x', t, y', htext, ho'⟩)

/-- **Where only what is no token is kept, no token is left.** -/
theorem search_own (h : Redacts m (fun before after =>
      (bounded p body).run { before := before, after := after } = []) [] text out)
    (hfits : Token.Fits body m) : (bounded p body).search out = false := by
  rw [← Bool.not_eq_true]
  intro hfound
  obtain ⟨x, t, y, hout, ho⟩ := (search_bounded hfits.plain).mp hfound
  obtain ⟨x', y', _, hkept, ho'⟩ := h.token_kept hfits hout ho
  exact run_bounded_complete hfits.plain ho' hkept

end Redacts

/-! ## Substitutions that redact -/

/-- A match of which `kept` is repeated and `removed` is cut out cleanly. -/
structure CutsOut {p : Char → Bool} (m : Mark p) (template : List Part) (before after : List Char)
    (pos : Pos) (kept removed : List Char) : Prop where
  matched : after = kept ++ (removed ++ pos.after)
  passed : pos.before = removed.reverse ++ (kept.reverse ++ before)
  expanded : template.flatMap (Part.expand pos) = kept ++ m.text
  nonempty : removed ≠ []
  left : CleanCut p (kept.reverse ++ before).head? removed.head?
  right : CleanCut p removed.getLast? pos.after.head?

theorem Redacts.keeping {p : Char → Bool} {m : Mark p} {keeps : List Char → List Char → Prop}
    {kept before text out : List Char} (hkeeps : kept = [] ∨ ∀ b a, keeps b a)
    (h : Redacts m keeps (kept.reverse ++ before) text out) :
    Redacts m keeps before (kept ++ text) (kept ++ out) := by
  rcases hkeeps with rfl | hkeeps
  · exact h
  · induction kept generalizing before with
    | nil => exact h
    | cons c kept ih =>
        refine .keep (hkeeps ..) (ih ?_)
        rw [List.reverse_cons, List.append_assoc] at h
        exact h

/-- **A substitution redacts** if each match it finds is cut out cleanly. -/
theorem redacts_subnFrom {p : Char → Bool} {m : Mark p} {keeps : List Char → List Char → Prop}
    {r : Regex} {template : List Part}
    (hfail : ∀ before after, r.run { before := before, after := after } = [] →
      keeps before after)
    (hcut : ∀ before after pos, (r.run { before := before, after := after }).head? = some pos →
      ∃ kept removed, CutsOut m template before after pos kept removed
        ∧ (kept = [] ∨ ∀ b a, keeps b a))
    {n : Nat} {before after : List Char} (hn : after.length < n) :
    Redacts m keeps before after (subnFrom r template n before after).1 := by
  induction n generalizing before after with
  | zero => exact absurd hn (by simp)
  | succ n ih =>
      cases after with
      | nil => exact .nil
      | cons c after =>
          rw [subnFrom]
          cases hrun : (r.run { before := before, after := c :: after }).head? with
          | none =>
              rw [List.head?_eq_none_iff] at hrun
              refine .keep (hfail _ _ hrun) (ih ?_)
              simpa using hn
          | some pos =>
              obtain ⟨kept, removed, hout, hkeeps⟩ := hcut _ _ _ hrun
              have hshort : pos.after.length < n := by
                have hlen := congrArg List.length hout.matched
                have hpos := List.length_pos_iff.mpr hout.nonempty
                simp only [List.length_cons, List.length_append] at hlen hn
                omega
              have hrest := @ih pos.before pos.after hshort
              rw [hout.passed] at hrest
              dsimp only
              rw [hout.matched, hout.expanded, List.append_assoc, hout.passed]
              exact Redacts.keeping hkeeps (.cut hout.nonempty hout.left hout.right hrest)

/-- A token between word boundaries is cut out whole, and none is left. -/
theorem redacts_token {p : Char → Bool} {m : Mark p} {body : Regex} (hnull : body.nullable = false)
    (text : List Char) :
    Redacts m (fun before after => (bounded p body).run { before := before, after := after } = [])
      [] text (subn (bounded p body) [.text m.text] text).1 := by
  refine redacts_subnFrom (fun _ _ h => h) ?_ (Nat.lt_succ_self _)
  intro before after pos hrun
  obtain ⟨t, hstep, ho⟩ := run_bounded_sound (List.mem_of_mem_head? hrun)
  have ht : t ≠ [] := ne_nil_of_not_nullable ho.text hnull
  have hleft := ho.left
  have hright := ho.right
  rw [Redacts.edge_iff] at hleft hright
  rw [List.reverse_reverse, show (t ++ pos.after).head? = t.head? by
    obtain ⟨d, t, rfl⟩ := List.exists_cons_of_ne_nil ht
    rfl] at hleft
  rw [List.reverse_append, Redacts.getLast?_eq_head? ht] at hright
  refine ⟨[], t, ⟨hstep.after, hstep.before, ?_, ht, hleft.clean, hright.clean⟩, Or.inl rfl⟩
  simp [Part.expand]

/-! ## Tokens in parts of a text -/

section Parts

variable {p : Char → Bool} {body : Regex}

theorem search_body_of_bounded (hplain : body.plain = true) {text : List Char}
    (h : (bounded p body).search text = true) : body.search text = true := by
  obtain ⟨x, t, y, rfl, ho⟩ := (search_bounded hplain).mp h
  exact search_of_part hplain ho.text

/-- A token of a part that is cleanly cut off is a token of the whole text. -/
theorem search_of_clean_part (hplain : body.plain = true) (hnull : body.nullable = false)
    {x part z : List Char} (hleft : CleanCut p x.getLast? part.head?)
    (hright : CleanCut p part.getLast? z.head?) (h : (bounded p body).search part = true) :
    (bounded p body).search (x ++ part ++ z) = true := by
  obtain ⟨x', t, y', rfl, ho⟩ := (search_bounded hplain).mp h
  have ht : t ≠ [] := ne_nil_of_not_nullable ho.text hnull
  refine (search_bounded hplain).mpr ⟨x ++ x', t, y' ++ z, by simp, ho.text, ?_, ?_⟩
  · have hedge := ho.left
    rw [Redacts.edge_iff] at hedge ⊢
    obtain ⟨d, t, rfl⟩ := List.exists_cons_of_ne_nil ht
    cases hx : x'.reverse with
    | nil =>
        rw [List.reverse_eq_nil_iff] at hx
        subst hx
        rw [List.append_nil, List.head?_reverse]
        exact hedge.of_clean rfl hleft
    | cons e x' =>
        rw [hx] at hedge
        rw [List.reverse_append, hx]
        exact hedge
  · have hedge := ho.right
    rw [Redacts.edge_iff] at hedge ⊢
    have hlast : ∀ before : List Char, (before ++ t).reverse.head? = t.getLast? := by
      intro before
      rw [List.reverse_append]
      exact Redacts.getLast?_eq_head? ht
    rw [hlast] at hedge ⊢
    cases y' with
    | nil =>
        rw [List.append_nil, List.getLast?_append_of_ne_nil _ ht] at hright
        exact (hedge.symm.of_clean rfl hright.symm).symm
    | cons e y' => exact hedge

/-- A character that is in no word and in no token ends a part. -/
structure Stop (p : Char → Bool) (body : Regex) (c : Char) : Prop where
  outside : p c = false
  excluded : body.excludes c = true

/-- **No token lies across a stop.** -/
theorem search_append_stop (hplain : body.plain = true) (hnull : body.nullable = false) {c : Char}
    (hstop : Stop p body c) {a b : List Char}
    (h : (bounded p body).search (a ++ c :: b) = true) :
    (bounded p body).search a = true ∨ (bounded p body).search b = true := by
  obtain ⟨x, t, y, htext, ho⟩ := (search_bounded hplain).mp h
  have ht : t ≠ [] := ne_nil_of_not_nullable ho.text hnull
  have hc : c ∉ t := not_mem_of_excludes ho.text hstop.excluded
  have hnone : ∀ d : Option Char, Joint p d (some c) → Joint p d none := by
    intro d hd
    rw [Joint, Option.any_some, hstop.outside] at hd
    exact hd
  rcases Redacts.append_cons_split htext hc with ⟨z, rfl, hy⟩ | ⟨z, hx, rfl⟩
  · refine Or.inl ((search_bounded hplain).mpr ⟨x, t, z, rfl, ho.text, ?_, ?_⟩)
    · have hedge := ho.left
      rw [Redacts.edge_iff] at hedge ⊢
      obtain ⟨d, t, rfl⟩ := List.exists_cons_of_ne_nil ht
      exact hedge
    · have hedge := ho.right
      rw [Redacts.edge_iff, hy] at hedge
      rw [Redacts.edge_iff]
      cases z with
      | nil => exact hnone _ hedge
      | cons e z => exact hedge
  · refine Or.inr ((search_bounded hplain).mpr ⟨z, t, y, rfl, ho.text, ?_, ?_⟩)
    · have hedge := ho.left
      rw [Redacts.edge_iff, hx, List.reverse_append, List.reverse_cons] at hedge
      rw [Redacts.edge_iff]
      cases hz : z.reverse with
      | nil =>
          rw [hz] at hedge
          exact (hnone _ hedge.symm).symm
      | cons e z' =>
          rw [hz] at hedge
          exact hedge
    · have hedge := ho.right
      rw [Redacts.edge_iff] at hedge ⊢
      have hlast : ∀ before : List Char, (before ++ t).reverse.head? = t.getLast? := by
        intro before
        rw [List.reverse_append]
        exact Redacts.getLast?_eq_head? ht
      rw [hlast] at hedge ⊢
      exact hedge

end Parts
