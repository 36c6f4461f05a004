import PipeLens.CommentBody
import PipeLens.Lib.Guarded

/-!
# Comments that cannot forge

Everything that a body takes from outside goes through `_safe`, so that a `<` stands
there only where `_code_block` puts one, and an `@` only in front of a zero-width space.
Both hold character by character, and so they outlive the cut: a `<` at the place of the
cut is followed by a line break, and so is an `@`.

A marker begins with `<!--`. The one at the top of a comment is the only one then, and
it tells the run.
-/

namespace PipeLens.Proof

open JsonText

/-! ## Inert texts -/

/-- What may follow an `@`: no name of an account begins so. -/
def EndsMention (c : Char) : Prop := c = zeroWidthSpace ∨ c = '\n'

instance : DecidablePred EndsMention :=
  fun c => inferInstanceAs (Decidable (c = zeroWidthSpace ∨ c = '\n'))

/-- A text without tags and mentions. -/
structure Inert (text : List Char) : Prop where
  noTag : '<' ∉ text
  noMention : Guarded '@' EndsMention text

namespace Inert

theorem plain (text : List Char) (h : ∀ c ∈ text, c ≠ '<' ∧ c ≠ '@') : Inert text := by
  refine ⟨?_, Guarded.of_notMem ?_⟩
  · intro hmem
    exact (h '<' hmem).1 rfl
  · intro hmem
    exact (h '@' hmem).2 rfl

theorem plain_of_all {text : List Char} (h : text.all (fun c => c != '<' && c != '@') = true) :
    ∀ c ∈ text, c ≠ '<' ∧ c ≠ '@' := by
  intro c hc
  have hboth := Bool.and_eq_true_iff.mp (List.all_eq_true.mp h c hc)
  exact ⟨bne_iff_ne.mp hboth.1, bne_iff_ne.mp hboth.2⟩

/-- A fixed text, which is looked through. -/
theorem literal (text : List Char) (h : text.all (fun c => c != '<' && c != '@') = true) :
    Inert text :=
  plain text (plain_of_all h)

theorem append {text more : List Char} (h : Inert text) (h' : Inert more) :
    Inert (text ++ more) := by
  refine ⟨?_, h.noMention.append h'.noMention⟩
  intro hmem
  rcases List.mem_append.mp hmem with hmem | hmem
  · exact h.noTag hmem
  · exact h'.noTag hmem

theorem ne_tag {text : List Char} (h : Inert text) {c : Char} (hc : c ∈ text) : c ≠ '<' := by
  intro heq
  rw [heq] at hc
  exact h.noTag hc

theorem intercalate {separator : List Char} {pieces : List (List Char)} (hsep : Inert separator)
    (h : ∀ piece ∈ pieces, Inert piece) : Inert (separator.intercalate pieces) := by
  induction pieces with
  | nil => exact plain _ nofun
  | cons piece pieces ih =>
      have hpiece := h piece List.mem_cons_self
      have hrest := ih fun other hother => h other (List.mem_cons_of_mem piece hother)
      cases pieces with
      | nil =>
          rw [List.intercalate_singleton]
          exact hpiece
      | cons next pieces =>
          rw [List.intercalate_cons_cons]
          exact (hpiece.append hsep).append hrest

end Inert

theorem inert_flatMap {f : Char → List Char} {text : List Char} (h : ∀ c ∈ text, Inert (f c)) :
    Inert (text.flatMap f) := by
  induction text with
  | nil => exact Inert.plain _ nofun
  | cons c text ih =>
      rw [List.flatMap_cons]
      exact (h c List.mem_cons_self).append (ih fun d hd => h d (List.mem_cons_of_mem c hd))

/-- `_safe` leaves neither a tag nor a mention. -/
theorem inert_safe (value : String) : Inert (safe value) := by
  have hescaped : ∀ c ∈ value.toList.flatMap escapeHtml, c ≠ '<' := by
    intro c hc
    obtain ⟨d, _, hcd⟩ := List.mem_flatMap.mp hc
    unfold escapeHtml at hcd
    split at hcd
    · exact (Inert.literal "&amp;".toList rfl).ne_tag hcd
    · split at hcd
      · exact (Inert.literal "&lt;".toList rfl).ne_tag hcd
      · rename_i hne
        split at hcd
        · exact (Inert.literal "&gt;".toList rfl).ne_tag hcd
        · rw [List.mem_singleton.mp hcd]
          exact hne
  unfold safe
  refine inert_flatMap ?_
  intro c hc
  unfold breakMention
  split
  · exact ⟨by decide, by decide⟩
  · rename_i hmention
    refine Inert.plain _ ?_
    intro d hd
    rw [List.mem_singleton.mp hd]
    exact ⟨hescaped c hc, hmention⟩

theorem inert_encodeInt (n : Int) : Inert (encodeInt n) := by
  have hdigits : ∀ n : Nat, ∀ c ∈ Nat.toDigits 10 n, c ≠ '<' ∧ c ≠ '@' := by
    intro n c hc
    have hdigit := isDigit_toDigits n c hc
    constructor
    · intro heq
      rw [heq] at hdigit
      exact absurd hdigit (by decide)
    · intro heq
      rw [heq] at hdigit
      exact absurd hdigit (by decide)
  cases n with
  | ofNat n => exact Inert.plain _ (hdigits n)
  | negSucc n =>
      exact Inert.plain _ (List.forall_mem_cons.mpr ⟨by decide, hdigits (n + 1)⟩)

theorem inert_percent (negativeZero : Bool) (value : Rat) :
    Inert (percent negativeZero value) := by
  have hminus : ∀ minus : Bool, Inert (if minus then ['-'] else []) := by
    intro minus
    cases minus with
    | true => exact Inert.literal ['-'] (by rfl)
    | false => exact Inert.plain _ nofun
  exact ((hminus _).append (inert_encodeInt _)).append (Inert.literal _ (by rfl))

theorem inert_shortSha (sha : String) : Inert (shortSha sha) := inert_safe _

theorem inert_category (category : ErrorCategory) : Inert category.value.toList := by
  cases category <;> exact Inert.literal _ (by rfl)

/-! ## The sections -/

/-- A line without tags and mentions, or a code block. -/
def InertSection : BodySection → Prop
  | .line text => Inert text
  | .code _ => True

theorem inertSection_literal {text : String}
    (h : text.toList.all (fun c => c != '<' && c != '@') = true) : InertSection (.plain text) :=
  Inert.literal _ h

theorem inert_forkSections (trustLevel : TrustLevel) :
    ∀ s ∈ forkSections trustLevel, InertSection s := by
  unfold forkSections
  split
  · simp only [List.forall_mem_cons]
    exact ⟨inertSection_literal (by rfl), inertSection_literal (by rfl),
      inertSection_literal (by rfl), inertSection_literal (by rfl), nofun⟩
  · exact nofun

theorem inert_summarySections (negativeZero : Bool) (classification : Classification)
    (diagnosis : Diagnosis) :
    ∀ s ∈ summarySections negativeZero classification diagnosis, InertSection s := by
  unfold summarySections
  simp only [List.forall_mem_cons]
  refine ⟨inert_safe _, inertSection_literal (by rfl), ?_, ?_, ?_,
    inertSection_literal (by rfl), nofun⟩
  · exact ((Inert.literal _ (by rfl)).append (inert_category _)).append (Inert.literal _ (by rfl))
  · exact ((Inert.literal _ (by rfl)).append (inert_percent _ _)).append (Inert.literal _ (by rfl))
  · exact (Inert.literal _ (by rfl)).append (inert_safe _)

theorem inert_comparisonSections (baselineSha headSha : Option String) :
    ∀ s ∈ comparisonSections baselineSha headSha, InertSection s := by
  unfold comparisonSections
  split
  · rename_i baseline head _ _
    simp only [List.forall_mem_cons]
    refine ⟨?_, inertSection_literal (by rfl), nofun⟩
    have hbaseline := (Inert.literal "**변경 비교:** `".toList (by rfl)).append
      (inert_shortSha baseline)
    have hboth := (hbaseline.append (Inert.literal "..".toList (by rfl))).append
      (inert_shortSha head)
    exact hboth.append (Inert.literal _ (by rfl))
  · exact nofun

theorem inert_evidenceSections (evidence : Evidence) :
    ∀ s ∈ evidenceSections evidence, InertSection s := by
  unfold evidenceSections
  dsimp only
  simp only [List.forall_mem_cons]
  have hempty : InertSection (.plain "") := inertSection_literal (by rfl)
  refine ⟨?_, trivial, hempty, nofun⟩
  have hsource := (Inert.literal "**".toList (by rfl)).append (inert_safe evidence.source)
  refine (hsource.append ?_).append (Inert.literal "**".toList (by rfl))
  split
  · exact (Inert.literal _ (by rfl)).append (inert_safe _)
  · exact Inert.plain _ nofun

theorem inert_fileSection (negativeZero : Bool) (item : RelatedFile) :
    InertSection (fileSection negativeZero item) := by
  have hreasons : Inert (" · ".toList.intercalate (item.reasons.map safe)) := by
    refine Inert.intercalate (Inert.literal _ (by rfl)) ?_
    intro reason hreason
    obtain ⟨text, _, rfl⟩ := List.mem_map.mp hreason
    exact inert_safe text
  have hname := (Inert.literal "- `".toList (by rfl)).append (inert_safe item.filename)
  have hscore := (hname.append (Inert.literal "` (".toList (by rfl))).append
    (inert_percent negativeZero item.score)
  exact (hscore.append (Inert.literal _ (by rfl))).append hreasons

theorem inert_fileSections (negativeZeros : List (Option Nat))
    (relatedFiles : List RelatedFile) :
    ∀ s ∈ fileSections negativeZeros relatedFiles, InertSection s := by
  unfold fileSections
  split
  · intro s hs
    rw [List.mem_singleton.mp hs]
    exact inertSection_literal (by rfl)
  · intro s hs
    obtain ⟨item, _, rfl⟩ := List.mem_map.mp hs
    exact inert_fileSection _ item.1

theorem inert_suggestionSections (headSha : Option String) (index : Nat)
    (suggestion : Suggestion) :
    ∀ s ∈ suggestionSections headSha index suggestion, InertSection s := by
  unfold suggestionSections
  dsimp only
  refine List.forall_mem_cons.mpr ⟨?_, ?_⟩
  · have hdescription := ((inert_encodeInt index).append
      (Inert.literal ". ".toList (by rfl))).append (inert_safe suggestion.description)
    refine hdescription.append ?_
    split
    · exact ((Inert.literal _ (by rfl)).append (inert_safe _)).append (Inert.literal _ (by rfl))
    · exact Inert.plain _ nofun
  · split
    · split
      · simp only [List.forall_mem_cons]
        refine ⟨inertSection_literal (by rfl), ?_, trivial, inertSection_literal (by rfl), nofun⟩
        have horigin : Inert (if suggestion.source = some .rule then "규칙" else "LLM").toList := by
          split
          · exact Inert.literal _ (by rfl)
          · exact Inert.literal _ (by rfl)
        have hhead := ((Inert.literal "   검증된 수정 diff (".toList (by rfl)).append
          horigin).append (Inert.literal ") — head".toList (by rfl))
        refine (hhead.append ?_).append (Inert.literal _ (by rfl))
        split
        · exact ((Inert.literal _ (by rfl)).append (inert_shortSha _)).append
            (Inert.literal _ (by rfl))
        · exact Inert.plain _ nofun
      · exact nofun
    · exact nofun

theorem inert_allSuggestionSections (headSha : Option String) (suggestions : List Suggestion) :
    ∀ s ∈ allSuggestionSections headSha suggestions, InertSection s := by
  unfold allSuggestionSections
  split
  · intro s hs
    rw [List.mem_singleton.mp hs]
    exact inertSection_literal (by rfl)
  · intro s hs
    obtain ⟨item, _, hs⟩ := List.mem_flatMap.mp hs
    exact inert_suggestionSections headSha item.2 item.1 s hs

theorem inert_listSections {heading : String}
    (h : heading.toList.all (fun c => c != '<' && c != '@') = true) (items : List String) : ∀ s ∈ listSections heading items, InertSection s := by
  unfold listSections
  split
  · exact nofun
  · refine List.forall_mem_append.mpr ⟨?_, ?_⟩
    · simp only [List.forall_mem_cons]
      exact ⟨inertSection_literal (by rfl), inertSection_literal h,
        inertSection_literal (by rfl), nofun⟩
    · intro s hs
      obtain ⟨item, _, rfl⟩ := List.mem_map.mp hs
      exact (Inert.literal _ (by rfl)).append (inert_safe item)

variable (content : CommentContent)

theorem inert_sections : ∀ s ∈ content.sections, InertSection s := by
  unfold CommentContent.sections
  simp only [List.forall_mem_append, List.forall_mem_cons]
  have htitle : InertSection (.plain "## PipeLens 실패 진단") := inertSection_literal rfl
  have hempty : InertSection (.plain "") := inertSection_literal rfl
  have hcause : InertSection (.plain "### 추정 원인") := inertSection_literal rfl
  have hevidence : InertSection (.plain "### 검증된 근거") := inertSection_literal rfl
  have hfiles : InertSection (.plain "### 관련 변경 파일") := inertSection_literal rfl
  have hfix : InertSection (.plain "### 권장 해결 방법") := inertSection_literal rfl
  have hrule : InertSection (.plain "---") := inertSection_literal rfl
  have hquoted : ∀ s ∈ content.diagnosis.evidence.flatMap evidenceSections, InertSection s := by
    intro s hs
    obtain ⟨evidence, _, hs⟩ := List.mem_flatMap.mp hs
    exact inert_evidenceSections evidence s hs
  exact ⟨⟨⟨⟨⟨⟨⟨⟨⟨⟨⟨⟨⟨htitle, hempty, nofun⟩, inert_forkSections _⟩, inert_summarySections _ _ _⟩,
    inert_comparisonSections _ _⟩, hcause, hempty, inert_safe _, hempty, hevidence, hempty, nofun⟩,
    hquoted⟩, hfiles, hempty, nofun⟩, inert_fileSections _ _⟩, hempty, hfix, hempty, nofun⟩,
    inert_allSuggestionSections _ _⟩, inert_listSections (by rfl) _⟩,
    inert_listSections (by rfl) _⟩, hempty, hrule, nofun⟩

/-! ## The body -/

/-- A text without comments and mentions. -/
structure Tame (text : List Char) : Prop where
  noComment : Guarded '<' (· ≠ '!') text
  noMention : Guarded '@' EndsMention text

theorem Inert.tame {text : List Char} (h : Inert text) : Tame text :=
  ⟨Guarded.of_notMem h.noTag, h.noMention⟩

theorem Tame.append {text more : List Char} (h : Tame text) (h' : Tame more) :
    Tame (text ++ more) :=
  ⟨h.noComment.append h'.noComment, h.noMention.append h'.noMention⟩

theorem tame_codeBlock (value : String) : Tame (codeBlock value) := by
  have hopen : Tame openCode := ⟨by decide, by decide⟩
  have hclose : Tame closeCode := ⟨by decide, by decide⟩
  exact (hopen.append (inert_safe value).tame).append hclose

theorem tame_section {s : BodySection} (h : InertSection s) : Tame s.text := by
  cases s with
  | line text => exact h.tame
  | code value => exact tame_codeBlock value

theorem inert_safeUrl {value : String} (h : ∀ c ∈ value.toList, c ≠ '<' ∧ c ≠ '@') :
    Inert (safeUrl value) := by
  refine inert_flatMap ?_
  intro c hc
  unfold escapeUrl
  split
  · exact Inert.literal _ (by rfl)
  · split
    · exact Inert.literal _ (by rfl)
    · split
      · exact Inert.literal _ (by rfl)
      · refine Inert.plain _ ?_
        intro d hd
        rw [List.mem_singleton.mp hd]
        exact h c hc

theorem tame_fullText {content : CommentContent}
    (hurl : ∀ c ∈ content.detailsUrl.toList, c ≠ '<' ∧ c ≠ '@') : Tame content.fullText := by
  have hlink : Inert content.linkLine := by
    have hstart : Inert CommentContent.linkStart := Inert.literal _ (by rfl)
    have hnumber := (Inert.literal ") · Workflow run `".toList (by rfl)).append
      (inert_encodeInt content.runId)
    exact (hstart.append (inert_safeUrl hurl)).append
      (hnumber.append (Inert.literal "`".toList (by rfl)))
  have hall : ∀ text ∈ (content.sections ++ [BodySection.line content.linkLine]).map
      BodySection.text, Tame text := by
    intro text htext
    obtain ⟨s, hs, rfl⟩ := List.mem_map.mp htext
    rcases List.mem_append.mp hs with hs | hs
    · exact tame_section (inert_sections content s hs)
    · rw [List.mem_singleton.mp hs]
      exact hlink.tame
  unfold CommentContent.fullText
  refine ⟨?_, ?_⟩
  · exact Guarded.intercalate (by decide) fun text htext => (hall text htext).noComment
  · exact Guarded.intercalate (by decide) fun text htext => (hall text htext).noMention

theorem slicePrefix_prefix (text : List Char) (stop : Int) : slicePrefix text stop <+: text :=
  List.take_prefix _ _

/-- **The body is tame**, and stays so where it is cut. -/
theorem tame_render {content : CommentContent}
    (hurl : ∀ c ∈ content.detailsUrl.toList, c ≠ '<' ∧ c ≠ '@') :
    Tame (renderGithubDiagnosis content) := by
  have hfull := tame_fullText hurl
  unfold renderGithubDiagnosis
  dsimp only
  split
  · exact hfull
  · have hsuffix : Inert content.suffix := by
      have hlink := (Inert.literal "[전체 분석 보기](".toList (by rfl)).append (inert_safeUrl hurl)
      have hstart : Inert CommentContent.noteStart := Inert.literal _ (by rfl)
      exact hstart.append (hlink.append (Inert.literal ")".toList (by rfl)))
    have hcut := slicePrefix_prefix content.fullText content.cutPlace
    obtain ⟨rest, hrest⟩ : ∃ rest, content.suffix = '\n' :: rest := ⟨_, rfl⟩
    rw [hrest] at hsuffix ⊢
    refine ⟨?_, ?_⟩
    · exact hfull.noComment.cut_append hcut (by decide) hsuffix.tame.noComment
    · exact hfull.noMention.cut_append hcut (Or.inr rfl) hsuffix.tame.noMention

/-! ## Markers -/

theorem toList_toString (n : Int) : (toString n).toList = encodeInt n := by
  cases n with
  | ofNat n => exact Nat.toList_repr
  | negSucc n =>
      show ("-" ++ Nat.repr (n + 1)).toList = _
      rw [String.toList_append, Nat.toList_repr]
      rfl

/-- A marker, as it is followed in a comment. -/
theorem marker_append (runId : Int) (rest : List Char) : (marker runId).toList ++ rest
    = "<!-- pipelens:run:".toList ++ (encodeInt runId ++ (" -->".toList ++ rest)) := by
  unfold marker
  rw [String.toList_append, String.toList_append, toList_toString]
  simp only [List.append_assoc]

theorem marker_injective {q r : Int} {rest rest' : List Char}
    (h : (marker q).toList ++ rest = (marker r).toList ++ rest') : q = r := by
  rw [marker_append, marker_append] at h
  have hnumbers := List.append_cancel_left h
  have hdigit : ∀ rest : List Char, NoDigit (" -->".toList ++ rest) := by
    intro rest
    exact noDigit_append (by decide) rest
  have hq := decodeInt_encodeInt q (hdigit rest)
  have hr := decodeInt_encodeInt r (hdigit rest')
  rw [hnumbers, hr] at hq
  exact (congrArg Prod.fst (Option.some.inj hq)).symm

theorem toList_commentBody (runId : Int) (body : String) :
    (commentBody runId body).toList = (marker runId).toList ++ '\n' :: body.toList := by
  unfold commentBody
  rw [String.toList_append, String.toList_append, List.append_assoc]
  rfl

/-- The marker of the comment itself. -/
theorem isIn_own_marker (runId : Int) (text : String) :
    isIn (marker runId) (commentBody runId text) = true := by
  rw [isIn_iff_isInfixOf, toList_commentBody]
  exact (List.prefix_append _ _).isInfix

/-- Nothing that begins with `<!` is in a tame text. -/
theorem Tame.not_infix {text : List Char} (h : Tame text) (more : List Char) :
    ¬ '<' :: '!' :: more <:+: text := by
  intro hinfix
  have hchain := h.noComment.chain.infix hinfix
  exact (List.isChain_cons_cons.mp hchain).1 rfl rfl

section Comment

variable {runId : Int} {text : String}

/-- After its first character a comment is tame. -/
theorem commentBody_tame (h : Tame text.toList) :
    ∃ rest, (commentBody runId text).toList = '<' :: rest ∧ Tame rest := by
  refine ⟨"!-- pipelens:run:".toList ++ (encodeInt runId
    ++ (" -->".toList ++ '\n' :: text.toList)), ?_, ?_⟩
  · rw [toList_commentBody, marker_append]
    rfl
  · have hhead : Tame "!-- pipelens:run:".toList := (Inert.literal _ (by rfl)).tame
    have htail : Tame " -->\n".toList := (Inert.literal _ (by rfl)).tame
    exact hhead.append ((inert_encodeInt _).tame.append (htail.append h))

theorem count_comments (h : Tame text.toList) :
    ((commentBody runId text).toList.tails.countP fun rest => "<!--".toList.isPrefixOf rest)
      = 1 := by
  obtain ⟨rest, hbody, hrest⟩ := commentBody_tame h
  have hnone : List.countP (fun rest => "<!--".toList.isPrefixOf rest) rest.tails = 0 := by
    rw [List.countP_eq_zero]
    intro tail htail hprefix
    have hinfix : "<!--".toList <:+: rest := (List.isPrefixOf_iff_prefix.mp hprefix).isInfix.trans
      ((List.mem_tails _ _).mp htail).isInfix
    exact hrest.not_infix "--".toList hinfix
  have hfirst : "<!--".toList.isPrefixOf ('<' :: rest) = true := by
    rw [← hbody, List.isPrefixOf_iff_prefix, toList_commentBody, marker_append]
    have hsplit : "<!-- pipelens:run:".toList = "<!--".toList ++ " pipelens:run:".toList := rfl
    rw [hsplit, List.append_assoc]
    exact List.prefix_append _ _
  rw [hbody, List.tails_cons, List.countP_cons, hnone, if_pos hfirst]

/-- A comment has the marker of its own run only. -/
theorem isIn_marker_iff (h : Tame text.toList) (q : Int) :
    isIn (marker q) (commentBody runId text) = true ↔ q = runId := by
  constructor
  · intro hin
    obtain ⟨before, after, heq⟩ := isIn_iff_isInfixOf.mp hin
    cases before with
    | nil =>
        rw [List.nil_append, toList_commentBody] at heq
        exact marker_injective heq
    | cons c before =>
        -- a second marker would be in the tame rest
        obtain ⟨rest, hbody, hrest⟩ := commentBody_tame h
        rw [hbody, List.cons_append, List.cons_append] at heq
        have hinfix : (marker q).toList <:+: rest := ⟨before, after, (List.cons.inj heq).2⟩
        have hhead := marker_append q []
        rw [List.append_nil, List.append_nil] at hhead
        rw [hhead] at hinfix
        exact absurd hinfix (hrest.not_infix _)
  · intro heq
    rw [heq]
    exact isIn_own_marker runId text

theorem mention_ended (h : Tame text.toList) {before after : List Char}
    (heq : (commentBody runId text).toList = before ++ '@' :: after) :
    ∃ c rest, after = c :: rest ∧ EndsMention c := by
  obtain ⟨rest, hbody, hrest⟩ := commentBody_tame h
  have hfirst : Guarded '@' EndsMention ['<'] := by decide
  have hall : Guarded '@' EndsMention ('<' :: rest) := hfirst.append hrest.noMention
  rw [← hbody, heq] at hall
  exact hall.followed

end Comment

/-- **A comment cannot forge.** It has one `<!--`, that of its marker; so it has the marker of
no other run, and is not found as the comment of another run; and no `@` in it is in front
of a name. -/
theorem comment_cannot_forge (content : CommentContent)
    (hurl : ∀ c ∈ content.detailsUrl.toList, c ≠ '<' ∧ c ≠ '@') :
    let body := commentBody content.runId (String.ofList (renderGithubDiagnosis content))
    (body.toList.tails.countP fun rest => "<!--".toList.isPrefixOf rest) = 1
      ∧ (∀ q, isIn (marker q) body = true ↔ q = content.runId)
      ∧ (∀ (app : GitHubApp) (comment : Comment) (q : Int), comment.body = body →
          app.isRunComment q comment = true → q = content.runId)
      ∧ ∀ before after, body.toList = before ++ '@' :: after →
          ∃ c rest, after = c :: rest ∧ (c = '\u200b' ∨ c = '\n') := by
  have htame : Tame (String.ofList (renderGithubDiagnosis content)).toList := by
    rw [String.toList_ofList]
    exact tame_render hurl
  refine ⟨count_comments htame, isIn_marker_iff htame, ?_, fun _ _ => mention_ended htame⟩
  intro app comment q hsame hfound
  unfold GitHubApp.isRunComment at hfound
  rw [hsame] at hfound
  exact (isIn_marker_iff htame q).mp (Bool.and_eq_true_iff.mp hfound).1

theorem comment_cannot_forge_mention :
    let content : CommentContent := {
      runId := 12
      classification := { category := .test, confidence := 9 / 10, firstError := "failed" }
      diagnosis := {
        summary := "@team <!-- pipelens:run:123 -->"
        rootCause := "&"
        confidence := 1 / 2
        evidence := [{ source := "log", content := "<b>" }] }
      relatedFiles := []
      detailsUrl := "https://pipelens.example/?run_id=12" }
    let body := commentBody content.runId (String.ofList (renderGithubDiagnosis content))
    (body.toList.tails.countP fun rest => "<!--".toList.isPrefixOf rest) = 1
      ∧ (∀ q, isIn (marker q) body = true ↔ q = content.runId)
      ∧ (∀ (app : GitHubApp) (comment : Comment) (q : Int), comment.body = body →
          app.isRunComment q comment = true → q = content.runId)
      ∧ ∀ before after, body.toList = before ++ '@' :: after →
          ∃ c rest, after = c :: rest ∧ (c = '\u200b' ∨ c = '\n') :=
  comment_cannot_forge _ (Inert.plain_of_all rfl)

end PipeLens.Proof
