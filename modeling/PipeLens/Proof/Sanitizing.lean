import PipeLens.Sanitizer
import PipeLens.Lib.Lines
import PipeLens.Proof.ErrorContext

/-!
# Sanitized text holds no token

Four rules look for tokens between word boundaries. After such a rule none of its
tokens is left, because the cuts are clean. The other two rules cut the value off a
name, again cleanly: the name ends in a sign of assignment or in white space, and the
value goes on to white space or a separator. So no rule makes a token of an earlier
one, and what leaves `sanitize_log` holds none of the four kinds.
-/

namespace PipeLens.Proof

open PipeLens Regex

/-- What the patterns rely on in Python's tables. -/
structure StandardTables (unicode : Unicode) : Prop where
  ascii : ∀ c : Char, c.toNat < 128 → unicode.isAlnum c = c.isAlphanum
  space : ∀ c : Char, Text.isSpace c = true → unicode.isAlnum c = false

section Tables

variable {unicode : Unicode} (hstd : StandardTables unicode)
include hstd

theorem isWord_ascii {c : Char} (hc : c.toNat < 128) (hno : (c.isAlphanum || c == '_') = false) :
    unicode.isWord c = false := by
  unfold Unicode.isWord
  rw [hstd.ascii c hc]
  exact hno

theorem isWord_space {c : Char} (hc : Text.isSpace c = true) : unicode.isWord c = false := by
  unfold Unicode.isWord
  rw [hstd.space c hc, Bool.false_or, beq_eq_false_iff_ne]
  rintro rfl
  exact absurd hc (by decide)

/-- The mark of a rule. -/
def redactionMark (inner : String) : Mark unicode.isWord where
  opening := '['
  inner := inner.toList
  closing := ']'
  opening_out := isWord_ascii hstd (by decide) (by decide)
  closing_out := isWord_ascii hstd (by decide) (by decide)

end Tables

/-! ## The shape of a match -/

/-- The preferred way through a sequence. -/
theorem head?_seq {r s : Regex} {pos pos' : Pos} (h : ((Regex.seq r s).run pos).head? = some pos') :
    ∃ mid ∈ r.run pos, (s.run mid).head? = some pos' := by
  rw [run] at h
  generalize r.run pos = ways at h ⊢
  induction ways with
  | nil => exact absurd h (by simp)
  | cons first others ih =>
      rw [List.flatMap_cons, List.head?_append] at h
      cases hfirst : (s.run first).head? with
      | some found =>
          rw [hfirst, Option.some_or] at h
          exact ⟨first, List.mem_cons_self, hfirst.trans h⟩
      | none =>
          rw [hfirst, Option.none_or] at h
          obtain ⟨mid, hmid, hs⟩ := ih h
          exact ⟨mid, List.mem_cons_of_mem _ hmid, hs⟩

theorem head?_seq_empty {r : Regex} {pos pos' : Pos}
    (h : ((Regex.seq r .empty).run pos).head? = some pos') : (r.run pos).head? = some pos' := by
  have hrun : (Regex.seq r .empty).run pos = r.run pos := by
    rw [run]
    exact List.flatMap_singleton' _
  rw [hrun] at h
  exact h

/-- A repetition of a character goes on as long as there is one. -/
theorem greedy_iterate {p : Char → Bool} {n : Nat} {pos pos' : Pos} (hn : pos.after.length ≤ n)
    (h : (iterate (Regex.char p).run n pos).head? = some pos') :
    ∀ c ∈ pos'.after.head?, p c = false := by
  induction n generalizing pos with
  | zero =>
      rw [iterate] at h
      obtain rfl := Option.some.inj h
      rw [List.length_eq_zero_iff.mp (Nat.le_zero.mp hn)]
      simp
  | succ n ih =>
      rw [iterate, run] at h
      cases hafter : pos.after with
      | nil =>
          rw [hafter] at h
          obtain rfl := Option.some.inj h
          rw [hafter]
          simp
      | cons c after =>
          rw [hafter] at h hn
          by_cases hp : p c = true
          · have hlen : after.length ≤ n := by simpa using hn
            have hone : ([{ pos with before := c :: pos.before, after := after }].filter
                fun pos' : Pos => decide (pos'.after.length < (c :: after).length))
                = [{ pos with before := c :: pos.before, after := after }] := by simp
            simp only [if_pos hp, hone, List.flatMap_cons, List.flatMap_nil, List.append_nil,
              List.head?_append] at h
            cases hrest : (iterate (Regex.char p).run n
                { pos with before := c :: pos.before, after := after }).head? with
            | none =>
                rw [List.head?_eq_none_iff] at hrest
                cases n with
                | zero => exact absurd hrest (by simp [iterate])
                | succ n => exact absurd hrest (by simp [iterate])
            | some found =>
                rw [hrest, Option.some_or] at h
                obtain rfl := Option.some.inj h
                exact ih hlen hrest
          · simp only [if_neg hp, List.filter_nil, List.flatMap_nil, List.nil_append] at h
            obtain rfl := Option.some.inj h
            rw [hafter]
            simpa using hp

theorem greedy_plus {p : Char → Bool} {pos pos' : Pos}
    (h : ((plus (.char p)).run pos).head? = some pos') :
    ∀ c ∈ pos'.after.head?, p c = false := by
  obtain ⟨mid, _, hrest⟩ := head?_seq h
  exact greedy_iterate (Nat.le_refl _) hrest

theorem lookup_append {found groups : List (Nat × List Char)} {n : Nat}
    (h : ∀ item ∈ found, item.1 ≠ n) : (found ++ groups).lookup n = groups.lookup n := by
  induction found with
  | nil => rfl
  | cons item found ih =>
      obtain ⟨m, t⟩ := item
      have hne : (n == m) = false := beq_eq_false_iff_ne.mpr (h (m, t) List.mem_cons_self).symm
      rw [List.cons_append, List.lookup_cons, hne]
      exact ih fun item hm => h item (List.mem_cons_of_mem _ hm)

/-- The first group of a match, with what it consumed. -/
theorem run_group {r : Regex} {n : Nat} {pos mid : Pos} (h : mid ∈ (Regex.group n r).run pos) :
    ∃ g, Lang r g ∧ pos.after = g ++ mid.after ∧ mid.before = g.reverse ++ pos.before
      ∧ mid.groups.lookup n = some g := by
  rw [run, List.mem_map] at h
  obtain ⟨inner, hinner, rfl⟩ := h
  obtain ⟨g, hg, hstep⟩ := run_sound hinner
  refine ⟨g, hg, hstep.after, hstep.before, ?_⟩
  have htake : pos.after.take (pos.after.length - inner.after.length) = g := by
    rw [hstep.after, List.length_append, Nat.add_sub_cancel, List.take_left]
  rw [List.lookup_cons_self, htake]

/-! ## Names and values -/

section Rules

variable {unicode : Unicode} (hstd : StandardTables unicode)
include hstd

/-- An assignment ends in a character of no word. -/
theorem assignment_ends {t : List Char} (h : Lang assignment t) :
    ∃ c, t.getLast? = some c ∧ unicode.isWord c = false := by
  have hspaces : ∀ {s : List Char}, Lang (.star space) s → ∀ c ∈ s, Text.isSpace c = true := by
    intro s hs
    generalize hr : Regex.star space = r at hs
    induction hs with
    | starNil => exact fun c hm => absurd hm List.not_mem_nil
    | starCons hone _ _ ih =>
        cases hr
        cases hone with
        | char hp =>
            intro c hm
            rcases List.mem_append.mp hm with hm | hm
            · rw [List.mem_singleton] at hm
              exact hm ▸ hp
            · exact ih rfl c hm
    | _ => exact absurd hr (by simp)
  cases h with
  | @seq _ _ before rest _ hrest =>
      cases hrest with
      | @seq _ _ sign trailing hsign htrailing =>
          cases htrailing with
          | @seq _ _ spaces nothing hs hnothing =>
              cases hnothing
              cases hsign with
              | @char _ c hc =>
                  have hcword : unicode.isWord c = false := by
                    simp only [Bool.or_eq_true, beq_iff_eq] at hc
                    rcases hc with rfl | rfl <;> exact isWord_ascii hstd (by decide) (by decide)
                  cases hlast : spaces.getLast? with
                  | none =>
                      rw [List.getLast?_eq_none_iff] at hlast
                      subst hlast
                      exact ⟨c, by simp, hcword⟩
                  | some d =>
                      have hd := hspaces hs d (List.mem_of_getLast? hlast)
                      refine ⟨d, ?_, isWord_space hstd hd⟩
                      rw [List.append_nil, List.getLast?_append, List.getLast?_append, hlast]
                      rfl

/-- A name that ends in an assignment can be followed by a cut. -/
theorem cut_after_name {name : Regex} {g before : List Char} (b : Option Char)
    (h : Lang (.seq name assignment) g) :
    CleanCut unicode.isWord (g.reverse ++ before).head? b := by
  cases h with
  | @seq _ _ t u _ hu =>
      obtain ⟨c, hc, hword⟩ := assignment_ends hstd hu
      have hlast : ((t ++ u).reverse ++ before).head? = some c := by
        rw [List.reverse_append, List.append_assoc, List.head?_append, List.head?_reverse, hc]
        rfl
      rintro ⟨ha, _⟩
      rw [hlast, Option.any_some, hword] at ha
      exact absurd ha (by simp)

omit hstd in
/-- A value goes on as long as its characters do, and ends before a character of no word. -/
theorem cut_before_stop {p : Char → Bool} {pos mid : Pos} (a : Option Char)
    (hstop : ∀ c, p c = false → unicode.isWord c = false)
    (h : ((plus (.char p)).run mid).head? = some pos) :
    CleanCut unicode.isWord a pos.after.head? := by
  rintro ⟨_, hb⟩
  obtain ⟨c, hc, hword⟩ := (Option.any_eq_true _ _).mp hb
  rw [hstop c (greedy_plus h c hc)] at hword
  exact absurd hword (by simp)

omit hstd in
theorem plus_nonempty {p : Char → Bool} {t : List Char} (h : Lang (plus (.char p)) t) : t ≠ [] :=
  ne_nil_of_not_nullable h rfl

/-- The substitution of `authorization` cuts out the scheme and the value. -/
theorem redacts_authorization (text : List Char) :
    Redacts (redactionMark hstd "REDACTED") (fun _ _ => True) [] text
      (subn authorization [.group 1, .text "[REDACTED]".toList] text).1 := by
  refine redacts_subnFrom (fun _ _ _ => trivial) ?_ (Nat.lt_succ_self _)
  intro before after pos hrun
  obtain ⟨mid, hname, hrest⟩ := head?_seq hrun
  obtain ⟨mid', hscheme, hvalue⟩ := head?_seq hrest
  have hvalue := head?_seq_empty hvalue
  obtain ⟨g, hg, hafter, hbefore, hlookup⟩ := run_group hname
  have hafter : after = g ++ mid.after := hafter
  have hbefore : mid.before = g.reverse ++ before := hbefore
  obtain ⟨u, _, hscheme⟩ := run_sound hscheme
  obtain ⟨v, hv, hstep⟩ := run_sound (List.mem_of_mem_head? hvalue)
  have hconsumed := hscheme.trans hstep
  have hgroups : pos.groups.lookup 1 = some g := by
    obtain ⟨found, hfound, hin⟩ := hconsumed.groups
    rw [hfound, lookup_append fun item hm => absurd (hin item hm) List.not_mem_nil, hlookup]
  have hvne := plus_nonempty hv
  refine ⟨g, u ++ v, ⟨?_, ?_, ?_, ?_, ?_, ?_⟩, Or.inr fun _ _ => trivial⟩
  · rw [hafter, hconsumed.after]
  · rw [hconsumed.before, hbefore]
  · simp only [List.flatMap_cons, List.flatMap_nil, List.append_nil, Part.expand, hgroups,
      Option.getD_some]
    rfl
  · simp [hvne]
  · exact cut_after_name hstd _ hg
  · refine cut_before_stop _ (fun c hc => ?_) hvalue
    exact isWord_space hstd (by simpa using hc)

/-- The substitution of `secret_assignment` cuts out the value. -/
theorem redacts_secretAssignment (text : List Char) :
    Redacts (redactionMark hstd "REDACTED") (fun _ _ => True) [] text
      (subn (secretAssignment unicode) [.group 1, .text "[REDACTED]".toList] text).1 := by
  refine redacts_subnFrom (fun _ _ _ => trivial) ?_ (Nat.lt_succ_self _)
  intro before after pos hrun
  obtain ⟨first, hfirst, hrun⟩ := head?_seq hrun
  have hsame : first = { before := before, after := after } := by
    rw [wordBoundary, run, List.mem_ite_nil_right, List.mem_singleton] at hfirst
    exact hfirst.2
  subst hsame
  obtain ⟨mid, hname, hrest⟩ := head?_seq hrun
  have hvalue := head?_seq_empty hrest
  obtain ⟨g, hg, hafter, hbefore, hlookup⟩ := run_group hname
  have hafter : after = g ++ mid.after := hafter
  have hbefore : mid.before = g.reverse ++ before := hbefore
  have hgroup := List.mem_of_mem_head? hvalue
  obtain ⟨v, hv, hstep⟩ := run_sound hgroup
  have hgroups : pos.groups.lookup 1 = some g := by
    obtain ⟨found, hfound, hin⟩ := hstep.groups
    have hother : ∀ item ∈ found, item.1 ≠ 1 := by
      intro item hm he
      have hnum := hin item hm
      rw [he] at hnum
      exact absurd hnum (by decide)
    rw [hfound, lookup_append hother, hlookup]
  cases hv with
  | group hv =>
      have hvne := plus_nonempty hv
      refine ⟨g, v, ⟨?_, ?_, ?_, hvne, ?_, ?_⟩, Or.inr fun _ _ => trivial⟩
      · rw [hafter, hstep.after]
      · rw [hstep.before, hbefore]
      · simp only [List.flatMap_cons, List.flatMap_nil, List.append_nil, Part.expand, hgroups,
          Option.getD_some]
        rfl
      · exact cut_after_name hstd _ hg
      · rw [run, List.head?_map, Option.map_eq_some_iff] at hvalue
        obtain ⟨inner, hinner, rfl⟩ := hvalue
        show CleanCut unicode.isWord v.getLast? inner.after.head?
        refine cut_before_stop _ (fun c hc => ?_) hinner
        simp only [Bool.not_eq_false', Bool.or_eq_true, beq_iff_eq] at hc
        rcases hc with (hc | rfl) | rfl
        · exact isWord_space hstd hc
        · exact isWord_ascii hstd (by decide) (by decide)
        · exact isWord_ascii hstd (by decide) (by decide)

end Rules

/-! ## The rules, one after the other -/

/-- The rule makes no token. -/
def Keeps (unicode : Unicode) (body : Regex) (rule : RedactionRule) : Prop :=
  ∀ text, (bounded unicode.isWord body).search text = false →
    (bounded unicode.isWord body).search (rule.pattern.subn rule.replacement text).1 = false

/-- The rule leaves no token. -/
def Frees (unicode : Unicode) (body : Regex) (rule : RedactionRule) : Prop :=
  ∀ text, (bounded unicode.isWord body).search (rule.pattern.subn rule.replacement text).1 = false

theorem redact_keeps {unicode : Unicode} {body : Regex} {rules : List RedactionRule}
    (hkeeps : ∀ rule ∈ rules, Keeps unicode body rule) {text : List Char}
    (h : (bounded unicode.isWord body).search text = false) :
    (bounded unicode.isWord body).search (redact rules text).1 = false := by
  induction rules generalizing text with
  | nil => exact h
  | cons rule rules ih =>
      have hfirst := hkeeps rule List.mem_cons_self text h
      exact ih (fun other hm => hkeeps other (List.mem_cons_of_mem _ hm)) hfirst

/-- **A token that one rule takes out stays out.** -/
theorem redact_frees {unicode : Unicode} {body : Regex} {rules : List RedactionRule}
    (hkeeps : ∀ rule ∈ rules, Keeps unicode body rule)
    (hfrees : ∃ rule ∈ rules, Frees unicode body rule) (text : List Char) :
    (bounded unicode.isWord body).search (redact rules text).1 = false := by
  induction rules generalizing text with
  | nil =>
      obtain ⟨rule, hm, _⟩ := hfrees
      exact absurd hm List.not_mem_nil
  | cons rule rules ih =>
      have hothers : ∀ other ∈ rules, Keeps unicode body other :=
        fun other hm => hkeeps other (List.mem_cons_of_mem _ hm)
      obtain ⟨own, hm, hown⟩ := hfrees
      rcases List.mem_cons.mp hm with rfl | hm
      · exact redact_keeps hothers (hown text)
      · exact ih hothers ⟨own, hm, hown⟩ _

/-- The expressions for tokens. -/
def tokenBodies : List Regex := [githubToken, awsAccessKey, jwt, email]

/-- What stands in the marks of the rules. -/
def markTexts : List String :=
  ["REDACTED:GITHUB_TOKEN", "REDACTED:AWS_ACCESS_KEY", "REDACTED:JWT", "REDACTED",
    "REDACTED:EMAIL"]

/-- The text has none of the tokens that the rules look for. -/
def TokenFree (unicode : Unicode) (text : List Char) : Prop :=
  ∀ body ∈ tokenBodies, (bounded unicode.isWord body).search text = false

instance (unicode : Unicode) (text : List Char) : Decidable (TokenFree unicode text) :=
  inferInstanceAs (Decidable (∀ body ∈ tokenBodies, _ = false))

theorem token_plain : ∀ body ∈ tokenBodies, body.plain = true := by decide

theorem token_nonempty : ∀ body ∈ tokenBodies, body.nullable = false := by decide

theorem token_brackets : ∀ body ∈ tokenBodies,
    body.excludes '[' = true ∧ body.excludes ']' = true := by decide

theorem token_marks : ∀ body ∈ tokenBodies, ∀ inner ∈ markTexts,
    body.search inner.toList = false := by decide

/-- A rule that takes out tokens of one kind. -/
def TakesOut (unicode : Unicode) (own : Regex) (rule : RedactionRule) : Prop :=
  ∃ inner ∈ markTexts, rule.pattern = bounded unicode.isWord own
    ∧ rule.replacement = [.text ('[' :: (inner.toList ++ [']']))]

/-- A rule that takes out the value behind a name. -/
def TakesValue (unicode : Unicode) (rule : RedactionRule) : Prop :=
  (rule.pattern = authorization ∨ rule.pattern = secretAssignment unicode)
    ∧ rule.replacement = [.group 1, .text "[REDACTED]".toList]

theorem rule_cases {unicode : Unicode} : ∀ rule ∈ redactionRules unicode,
    (∃ own ∈ tokenBodies, TakesOut unicode own rule) ∨ TakesValue unicode rule := by
  intro rule hrule
  simp only [redactionRules, List.mem_cons, List.not_mem_nil, or_false] at hrule
  rcases hrule with rfl | rfl | rfl | rfl | rfl | rfl
  · exact Or.inl ⟨githubToken, by simp [tokenBodies], "REDACTED:GITHUB_TOKEN", by decide, rfl, rfl⟩
  · exact Or.inl
      ⟨awsAccessKey, by simp [tokenBodies], "REDACTED:AWS_ACCESS_KEY", by decide, rfl, rfl⟩
  · exact Or.inl ⟨jwt, by simp [tokenBodies], "REDACTED:JWT", by decide, rfl, rfl⟩
  · exact Or.inr ⟨Or.inl rfl, rfl⟩
  · exact Or.inr ⟨Or.inr rfl, rfl⟩
  · exact Or.inl ⟨email, by simp [tokenBodies], "REDACTED:EMAIL", by decide, rfl, rfl⟩

theorem taken_out {unicode : Unicode} : ∀ body ∈ tokenBodies,
    ∃ rule ∈ redactionRules unicode, TakesOut unicode body rule := by
  intro body hbody
  simp only [tokenBodies, List.mem_cons, List.not_mem_nil, or_false] at hbody
  rcases hbody with rfl | rfl | rfl | rfl
  · exact ⟨_, List.mem_cons_self, "REDACTED:GITHUB_TOKEN", by decide, rfl, rfl⟩
  · exact ⟨_, List.mem_cons_of_mem _ List.mem_cons_self, "REDACTED:AWS_ACCESS_KEY", by decide,
      rfl, rfl⟩
  · exact ⟨_, List.mem_of_getElem? (show (redactionRules unicode)[2]? = _ from rfl),
      "REDACTED:JWT", by decide, rfl, rfl⟩
  · exact ⟨_, List.mem_of_getElem? (show (redactionRules unicode)[5]? = _ from rfl),
      "REDACTED:EMAIL", by decide, rfl, rfl⟩

section Rules

variable {unicode : Unicode} (hstd : StandardTables unicode)
include hstd

theorem token_fits {body : Regex} (hbody : body ∈ tokenBodies) {inner : String}
    (hinner : inner ∈ markTexts) : Token.Fits body (redactionMark hstd inner) where
  plain := token_plain body hbody
  nonempty := token_nonempty body hbody
  opening := (token_brackets body hbody).1
  closing := (token_brackets body hbody).2
  inner := token_marks body hbody inner hinner

theorem takesOut_frees {own : Regex} (hown : own ∈ tokenBodies) {rule : RedactionRule}
    (h : TakesOut unicode own rule) : Frees unicode own rule := by
  obtain ⟨inner, hinner, hpattern, hreplacement⟩ := h
  intro text
  rw [hpattern, hreplacement]
  have hcut : Redacts (redactionMark hstd inner) _ [] text _ :=
    redacts_token (token_nonempty own hown) text
  exact hcut.search_own (token_fits hstd hown hinner)

theorem rules_keep {body : Regex} (hbody : body ∈ tokenBodies) :
    ∀ rule ∈ redactionRules unicode, Keeps unicode body rule := by
  intro rule hrule text h
  rcases rule_cases rule hrule with ⟨own, hown, inner, hinner, hpattern, hreplacement⟩ |
    ⟨hpattern, hreplacement⟩
  · rw [hpattern, hreplacement]
    have hcut : Redacts (redactionMark hstd inner) _ [] text _ :=
      redacts_token (token_nonempty own hown) text
    exact hcut.search_false (token_fits hstd hbody hinner) h
  · have hvalue : "REDACTED" ∈ markTexts := by decide
    rw [hreplacement]
    rcases hpattern with hpattern | hpattern
    · rw [hpattern]
      exact (redacts_authorization hstd text).search_false (token_fits hstd hbody hvalue) h
    · rw [hpattern]
      exact (redacts_secretAssignment hstd text).search_false (token_fits hstd hbody hvalue) h

theorem sanitizeLog_free (raw : List Char) : TokenFree unicode (sanitizeLog unicode raw).1 := by
  intro body hbody
  obtain ⟨rule, hrule, hout⟩ := taken_out body hbody
  exact redact_frees (rules_keep hstd hbody) ⟨rule, hrule, takesOut_frees hstd hbody hout⟩ _

end Rules

/-- **Sanitized text holds no token**, whatever the text was and whatever of it the other
rules have cut. -/
theorem sanitize_log_leaves_no_token {unicode : Unicode} (hstd : StandardTables unicode)
    (raw : List Char) : TokenFree unicode (sanitizeLog unicode raw).1 :=
  sanitizeLog_free hstd raw

theorem isAlphanum_range {c : Char} (h : c.isAlphanum = true) : 48 ≤ c.toNat ∧ c.toNat ≤ 122 := by
  have hle : ∀ a b : Char, a.val ≤ b.val → a.toNat ≤ b.toNat := fun a b hab => hab
  simp only [Char.isAlphanum] at h
  delta Char.isAlpha Char.isUpper Char.isLower at h
  simp only [Char.isDigit, Bool.or_eq_true, Bool.and_eq_true, decide_eq_true_eq] at h
  have h0 : '0'.toNat = 48 := rfl
  have h9 : '9'.toNat = 57 := rfl
  have hA : 'A'.toNat = 65 := rfl
  have hZ : 'Z'.toNat = 90 := rfl
  have ha : 'a'.toNat = 97 := rfl
  have hz : 'z'.toNat = 122 := rfl
  rcases h with (⟨hlow, hhigh⟩ | ⟨hlow, hhigh⟩) | ⟨hlow, hhigh⟩
  · have := hle _ _ hlow
    have := hle _ _ hhigh
    omega
  · have := hle _ _ hlow
    have := hle _ _ hhigh
    omega
  · have := hle _ _ hlow
    have := hle _ _ hhigh
    omega

theorem asciiTables_standard : StandardTables asciiTables where
  ascii _ _ := rfl
  space c hc := by
    rw [← Bool.not_eq_true]
    intro hword
    obtain ⟨hlow, hhigh⟩ := isAlphanum_range hword
    simp only [Text.isSpace, Bool.or_eq_true, Bool.and_eq_true, decide_eq_true_eq,
      beq_iff_eq] at hc
    omega

theorem sanitize_log_leaves_no_token_push :
    TokenFree asciiTables (sanitizeLog asciiTables
      "12:00 push by dev@example.com with ghp_0123456789abcdefghij".toList).1 :=
  sanitize_log_leaves_no_token asciiTables_standard _

end PipeLens.Proof
