import PipeLens.Lib.Delimited
import PipeLens.Proof.CommentForgery

/-!
# Code blocks of a comment

A body that fits is well formed, but for what the URL brings along. One that is too long
is cut at some character, and nothing looks at what is cut through: where that is in a
code block, the block stays open, and the note with the link to the full analysis
becomes a part of it.

The place of the cut is known from the lengths of the sections. So whether a body is
well formed can be read off from where the code blocks begin and end, and from the URL.
-/

namespace PipeLens.Proof

open Delimited

/-- Every `<pre><code>` is closed. -/
abbrev AllClosed (text : List Char) : Prop := Balanced openCode closeCode text

/-! ## One code block -/

theorem length_codeBlock (value : String) :
    (codeBlock value).length = openCode.length + (safe value).length + closeCode.length := by
  unfold codeBlock
  rw [List.length_append, List.length_append]

theorem codeBlock_append (value : String) (rest : List Char) :
    codeBlock value ++ rest = openCode ++ (safe value ++ (closeCode ++ rest)) := by
  unfold codeBlock
  rw [List.append_assoc, List.append_assoc]

theorem not_infix_of_noTag {word text : List Char} (h : '<' ∉ text) : ¬ '<' :: word <:+: text := by
  intro hwithin
  exact h (hwithin.subset List.mem_cons_self)

/-- A block opens once. -/
theorem closed_codeBlock (value : String) : AllClosed (codeBlock value) := by
  intro before after heq
  have hvalue := inert_safe value
  cases before with
  | nil =>
      refine ⟨safe value, [], ?_, not_infix_of_noTag hvalue.noTag⟩
      rw [← List.append_nil (codeBlock value), codeBlock_append, List.nil_append] at heq
      rw [← List.append_cancel_left heq, List.append_assoc]
  | cons c before =>
      -- no other `<` of the block is followed by a `p`
      have htail : Guarded '<' (· ≠ 'p') ("pre><code>".toList ++ (safe value ++ closeCode)) := by
        have hopen : Guarded '<' (· ≠ 'p') "pre><code>".toList := by decide
        have hclose : Guarded '<' (· ≠ 'p') closeCode := by decide
        exact hopen.append ((Guarded.of_notMem hvalue.noTag).append hclose)
      have hrest : "pre><code>".toList ++ (safe value ++ closeCode)
          = before ++ openCode ++ after := by
        have hcons := codeBlock_append value []
        rw [List.append_nil, List.append_nil, heq] at hcons
        exact (List.cons.inj hcons).2.symm
      have hwithin : '<' :: 'p' :: "re><code>".toList
          <:+: "pre><code>".toList ++ (safe value ++ closeCode) := ⟨before, after, hrest.symm⟩
      have hchain := htail.chain.infix hwithin
      exact absurd rfl ((List.isChain_cons_cons.mp hchain).1 rfl)

/-- A block that is cut through, once it has been opened. -/
theorem not_closed_cut (value : String) {n : Nat}
    (h : n < (safe value).length + closeCode.length) :
    ¬ AllClosed (openCode ++ (safe value ++ closeCode).take n) := by
  intro hclosed
  obtain ⟨inner, rest, heq, _⟩ := hclosed [] _ rfl
  have hsplit := List.take_append_drop n (safe value ++ closeCode)
  rw [heq, List.append_assoc, List.append_assoc] at hsplit
  have hstart : inner ++ ('<' :: "/code></pre>".toList) ++ (rest ++ (safe value ++ closeCode).drop n)
      = safe value ++ closeCode := by
    rw [List.append_assoc]
    exact hsplit
  obtain ⟨more, hinner, _⟩ := in_right (inert_safe value).noTag hstart
  have hlength := congrArg List.length heq
  have hbound := congrArg List.length hinner
  rw [List.length_take, List.length_append] at hlength
  simp only [List.length_append] at hlength hbound
  omega

/-! ## The sections -/

/-- Sections, each with its line break. -/
def lined (sections : List BodySection) : List Char :=
  sections.flatMap fun s => s.text ++ ['\n']

/-- The place is in a code block: it has been opened, and it has not been closed. -/
def CutInCode (sections : List BodySection) (place : Nat) : Prop :=
  ∃ earlier value later, sections = earlier ++ .code value :: later
    ∧ (lined earlier).length + openCode.length ≤ place
    ∧ place < (lined earlier).length + (codeBlock value).length

theorem lined_cons (s : BodySection) (sections : List BodySection) :
    lined (s :: sections) = s.text ++ ['\n'] ++ lined sections := by
  unfold lined
  rw [List.flatMap_cons]

theorem cutInCode_cons {s : BodySection} {sections : List BodySection} {place : Nat} :
    CutInCode (s :: sections) place
      ↔ (∃ value, s = .code value ∧ openCode.length ≤ place ∧ place < (codeBlock value).length)
        ∨ (s.text.length + 1 ≤ place
          ∧ CutInCode sections (place - (s.text.length + 1))) := by
  constructor
  · intro h
    obtain ⟨earlier, value, later, heq, hopen, hclose⟩ := h
    cases earlier with
    | nil =>
        have hs : s = .code value := (List.cons.inj heq).1
        have hnone : (lined []).length = 0 := rfl
        exact Or.inl ⟨value, hs, by omega, by omega⟩
    | cons first earlier =>
        obtain ⟨rfl, hrest⟩ := List.cons.inj heq
        rw [lined_cons, List.length_append, List.length_append, List.length_singleton]
          at hopen hclose
        exact Or.inr ⟨by omega, earlier, value, later, hrest, by omega, by omega⟩
  · intro h
    rcases h with ⟨value, hs, hopen, hclose⟩ | ⟨hpast, earlier, value, later, heq, hopen, hclose⟩
    · refine ⟨[], value, sections, by rw [hs]; rfl, ?_, ?_⟩
      · show 0 + openCode.length ≤ place
        omega
      · show place < 0 + (codeBlock value).length
        omega
    · refine ⟨s :: earlier, value, later, by rw [heq]; rfl, ?_, ?_⟩
      · rw [lined_cons, List.length_append, List.length_append, List.length_singleton]
        omega
      · rw [lined_cons, List.length_append, List.length_append, List.length_singleton]
        omega

/-- A part without tags counts for nothing, also if it is cut. -/
theorem closed_take_append {left : List Char} (h : '<' ∉ left) (n : Nat) (right : List Char) :
    AllClosed ((left ++ right).take n) ↔ AllClosed (right.take (n - left.length)) := by
  rw [List.take_append]
  exact balanced_append_iff fun hmem => h (List.mem_of_mem_take hmem)

theorem closed_nil : AllClosed [] := balanced_of_absent (by decide)

/-- A part that is too short for a block. -/
theorem closed_of_length {text : List Char} (h : text.length < openCode.length) : AllClosed text := by
  refine balanced_of_absent ?_
  intro hwithin
  have hlength := hwithin.length_le
  omega

/-- A whole block counts for nothing. -/
theorem closed_codeBlock_append (value : String) (right : List Char) :
    AllClosed (codeBlock value ++ '\n' :: right) ↔ AllClosed right := by
  constructor
  · intro h
    have hbreak : AllClosed (['\n'] ++ right) := h.right
    exact hbreak.right
  · intro h
    exact (closed_codeBlock value).append (by decide) h

theorem not_cutInCode_zero (sections : List BodySection) : ¬ CutInCode sections 0 := by
  intro h
  obtain ⟨earlier, value, later, _, hopen, _⟩ := h
  have hpos : openCode.length = 11 := rfl
  omega

theorem cutInCode_line {text : List Char} {sections : List BodySection} {place : Nat} :
    CutInCode (.line text :: sections) place
      ↔ CutInCode sections (place - (text.length + 1)) := by
  rw [cutInCode_cons]
  constructor
  · intro h
    rcases h with ⟨value, heq, _⟩ | ⟨_, hlater⟩
    · exact nomatch heq
    · exact hlater
  · intro h
    refine Or.inr ⟨?_, h⟩
    show text.length + 1 ≤ place
    by_contra hlt
    have hzero : place - (text.length + 1) = 0 := by omega
    rw [hzero] at h
    exact not_cutInCode_zero sections h

theorem cutInCode_code {value : String} {sections : List BodySection} {place : Nat} :
    CutInCode (.code value :: sections) place
      ↔ (openCode.length ≤ place ∧ place < (codeBlock value).length)
        ∨ CutInCode sections (place - ((codeBlock value).length + 1)) := by
  rw [cutInCode_cons]
  constructor
  · intro h
    rcases h with ⟨other, heq, hin⟩ | ⟨_, hlater⟩
    · rw [BodySection.code.inj heq]
      exact Or.inl hin
    · exact Or.inr hlater
  · intro h
    rcases h with hin | hlater
    · exact Or.inl ⟨value, rfl, hin⟩
    · refine Or.inr ⟨?_, hlater⟩
      show (codeBlock value).length + 1 ≤ place
      by_contra hlt
      have hzero : place - ((codeBlock value).length + 1) = 0 := by omega
      rw [hzero] at hlater
      exact not_cutInCode_zero sections hlater

/-- A code block and what comes after it, cut anywhere. -/
theorem closed_take_codeBlock (value : String) (right : List Char) (n : Nat) :
    AllClosed ((codeBlock value ++ '\n' :: right).take n)
      ↔ ¬ (openCode.length ≤ n ∧ n < (codeBlock value).length)
        ∧ AllClosed (right.take (n - ((codeBlock value).length + 1))) := by
  have hblock := length_codeBlock value
  by_cases hbefore : n < openCode.length
  · -- the block has not been opened
    have hzero : n - ((codeBlock value).length + 1) = 0 := by omega
    have hshort : ((codeBlock value ++ '\n' :: right).take n).length < openCode.length := by
      rw [List.length_take]
      omega
    rw [hzero, List.take_zero]
    exact iff_of_true (closed_of_length hshort) ⟨fun h => by omega, closed_nil⟩
  · by_cases hwithin : n < (codeBlock value).length
    · have hcut : (codeBlock value ++ '\n' :: right).take n
          = openCode ++ (safe value ++ closeCode).take (n - openCode.length) := by
        have hwhole := codeBlock_append value []
        rw [List.append_nil, List.append_nil] at hwhole
        rw [List.take_append_of_le_length (Nat.le_of_lt hwithin), hwhole, List.take_append,
          List.take_of_length_le (Nat.le_of_not_lt hbefore)]
      rw [hcut]
      refine iff_of_false (not_closed_cut value (by omega)) ?_
      intro h
      exact h.1 ⟨Nat.le_of_not_lt hbefore, hwithin⟩
    · have hpast : ¬ (openCode.length ≤ n ∧ n < (codeBlock value).length) := by omega
      rw [and_iff_right hpast, List.take_append,
        List.take_of_length_le (Nat.le_of_not_lt hwithin)]
      cases hn : n - (codeBlock value).length with
      | zero =>
          have hzero : n - ((codeBlock value).length + 1) = 0 := by omega
          rw [hzero, List.take_zero, List.take_zero, List.append_nil]
          exact iff_of_true (closed_codeBlock value) closed_nil
      | succ m =>
          have hm : n - ((codeBlock value).length + 1) = m := by omega
          rw [hm, List.take_succ_cons]
          exact closed_codeBlock_append value (right.take m)

/-- **Where a text of sections can be cut.** -/
theorem closed_take_lined {sections : List BodySection} (hinert : ∀ s ∈ sections, InertSection s)
    (more : List Char) (n : Nat) :
    AllClosed ((lined sections ++ more).take n)
      ↔ ¬ CutInCode sections n ∧ AllClosed (more.take (n - (lined sections).length)) := by
  induction sections generalizing n with
  | nil =>
      have hnever : ¬ CutInCode [] n := by
        intro h
        obtain ⟨earlier, value, later, heq, _⟩ := h
        exact absurd heq.symm (by simp)
      rw [and_iff_right hnever]
      exact Iff.rfl
  | cons s sections ih =>
      have hs := hinert s List.mem_cons_self
      have hrest := ih (fun other hother => hinert other (List.mem_cons_of_mem s hother))
        (n - (s.text.length + 1))
      have hlength : (lined (s :: sections)).length = s.text.length + 1 + (lined sections).length := by
        rw [lined_cons, List.length_append, List.length_append, List.length_singleton]
      rw [hlength, ← Nat.sub_sub, lined_cons, List.append_assoc, List.append_assoc]
      cases s with
      | line text =>
          have hnoTag : '<' ∉ text ++ ['\n'] := by
            intro hmem
            rcases List.mem_append.mp hmem with hmem | hmem
            · exact hs.noTag hmem
            · exact absurd (List.mem_singleton.mp hmem) (by decide)
          have hline := closed_take_append hnoTag n (lined sections ++ more)
          rw [List.append_assoc, List.length_append, List.length_singleton] at hline
          rw [cutInCode_line]
          exact hline.trans hrest
      | code value =>
          have hcode := closed_take_codeBlock value (lined sections ++ more) n
          rw [cutInCode_code, not_or, and_assoc]
          exact hcode.trans (and_congr_right fun _ => hrest)

/-! ## The body -/

variable (content : CommentContent)

theorem intercalate_concat (pieces : List (List Char)) (last : List Char) :
    ['\n'].intercalate (pieces ++ [last])
      = pieces.flatMap (fun piece => piece ++ ['\n']) ++ last := by
  induction pieces with
  | nil => exact List.intercalate_singleton
  | cons piece pieces ih =>
      have hne : pieces ++ [last] ≠ [] := by
        intro hnil
        exact List.cons_ne_nil _ _ (List.append_eq_nil_iff.mp hnil).2
      rw [List.cons_append, List.intercalate_cons_of_ne_nil hne, ih, List.flatMap_cons]
      simp only [List.append_assoc]

theorem fullText_eq : content.fullText = lined content.sections ++ content.linkLine := by
  unfold CommentContent.fullText
  rw [List.map_append, List.map_singleton, intercalate_concat, List.flatMap_map]
  rfl

/-- What the body ends with, from the link on. -/
def closing : List Char :=
  if content.fullText.length ≤ maxGithubBodyChars then content.linkLine else content.noteLink

/-- A body that is within the limit, whose blocks are closed, and whose link is outside. -/
structure WellFormedBody (body : List Char) : Prop where
  bounded : body.length ≤ maxGithubBodyChars
  closed : AllClosed body
  link : ∃ before, body = before ++ closing content ∧ AllClosed before

/-- Where the URL begins in the full text. -/
def urlPlace : Nat := (lined content.sections).length + CommentContent.linkStart.length

/-- The URL closes what it opens, and the cut is not in a code block. -/
def CutsNoCode : Prop :=
  AllClosed (safeUrl content.detailsUrl)
    ∧ (maxGithubBodyChars < content.fullText.length →
        ¬ CutInCode content.sections content.cutPlace.toNat
          ∧ AllClosed ((safeUrl content.detailsUrl).take (content.cutPlace.toNat - urlPlace content)))

theorem noTag_linkEnd : '<' ∉ content.linkEnd := by
  have hnumber := (Inert.literal ") · Workflow run `".toList (by rfl)).append
    (inert_encodeInt content.runId)
  exact (hnumber.append (Inert.literal "`".toList (by rfl))).noTag

/-- The URL and what comes after it on its line. -/
theorem closed_take_url (n : Nat) :
    AllClosed ((safeUrl content.detailsUrl ++ content.linkEnd).take n)
      ↔ AllClosed ((safeUrl content.detailsUrl).take n) := by
  rw [List.take_append]
  cases hrest : content.linkEnd.take (n - (safeUrl content.detailsUrl).length) with
  | nil => rw [List.append_nil]
  | cons d rest =>
      -- the rest of the line begins with a bracket
      have hbegins : d :: rest <+: content.linkEnd := hrest ▸ List.take_prefix _ _
      have hd : d = ')' := by
        obtain ⟨more, heq⟩ := hbegins
        exact (List.cons.inj heq).1
      have hnoTag : '<' ∉ rest := by
        intro hmem
        exact noTag_linkEnd content (hbegins.subset (List.mem_cons_of_mem d hmem))
      subst hd
      exact balanced_end_iff (by decide) (by decide) hnoTag

theorem closed_take_fullText (n : Nat) :
    AllClosed (content.fullText.take n)
      ↔ ¬ CutInCode content.sections n
        ∧ AllClosed ((safeUrl content.detailsUrl).take (n - urlPlace content)) := by
  have hstart : '<' ∉ CommentContent.linkStart := by decide
  unfold urlPlace
  rw [fullText_eq, closed_take_lined (inert_sections content), ← Nat.sub_sub]
  refine and_congr_right fun _ => ?_
  unfold CommentContent.linkLine
  rw [List.append_assoc, closed_take_append hstart, closed_take_url]

theorem length_lined (earlier : List BodySection) (value : String) (later : List BodySection) :
    (lined (earlier ++ .code value :: later)).length
      = (lined earlier).length + ((codeBlock value).length + 1 + (lined later).length) := by
  unfold lined
  rw [List.flatMap_append, List.length_append, List.flatMap_cons, List.length_append,
    List.length_append]
  rfl

/-- Up to the URL of the link nothing is open. -/
theorem closed_before_link : AllClosed (lined content.sections) := by
  have hlined := closed_take_lined (inert_sections content) [] (lined content.sections).length
  rw [List.append_nil, List.take_length, List.take_nil, and_iff_left closed_nil] at hlined
  refine hlined.mpr ?_
  intro h
  obtain ⟨earlier, value, later, heq, _, hclose⟩ := h
  have hlength := length_lined earlier value later
  rw [← heq] at hlength
  omega

theorem closed_linkLine_iff :
    AllClosed content.linkLine ↔ AllClosed (safeUrl content.detailsUrl) := by
  have hstart : '<' ∉ CommentContent.linkStart := by decide
  have hlength : (safeUrl content.detailsUrl).length
      ≤ (safeUrl content.detailsUrl ++ content.linkEnd).length := by
    rw [List.length_append]
    omega
  have hurl := closed_take_url content (safeUrl content.detailsUrl ++ content.linkEnd).length
  rw [List.take_length, List.take_of_length_le hlength] at hurl
  unfold CommentContent.linkLine
  rw [List.append_assoc]
  exact (balanced_append_iff hstart).trans hurl

theorem closed_noteLink_iff :
    AllClosed content.noteLink ↔ AllClosed (safeUrl content.detailsUrl) := by
  unfold CommentContent.noteLink
  rw [List.append_assoc]
  exact (balanced_append_iff (by decide)).trans (balanced_end_iff (by decide) (by decide)
    (by decide))

/-- The note counts for nothing, after a text that has been cut. -/
theorem closed_note_iff (cut : List Char) :
    AllClosed (cut ++ CommentContent.noteStart) ↔ AllClosed cut :=
  balanced_end_iff (by decide) (by decide) (by decide)

theorem noteStart_eq : CommentContent.noteStart
    = '\n' :: "\n---\n내용이 길어 일부를 생략했습니다. ".toList := by decide

/-- Neither does the link, with a URL without tags. -/
theorem closed_suffix_iff (hlink : '<' ∉ content.noteLink) (cut : List Char) :
    AllClosed (cut ++ (CommentContent.noteStart ++ content.noteLink)) ↔ AllClosed cut := by
  rw [noteStart_eq, List.cons_append]
  refine balanced_end_iff (by decide) (by decide) ?_
  intro hmem
  rcases List.mem_append.mp hmem with hmem | hmem
  · exact absurd hmem (by decide)
  · exact hlink hmem

theorem closed_append_link {before link : List Char} (hbefore : AllClosed before)
    (hlink : AllClosed ('[' :: link)) : AllClosed (before ++ '[' :: link) := by
  have hright : AllClosed (['['] ++ link) := hlink
  exact hbefore.append (by decide) hright.right

theorem length_safeUrl_le (value : String) : (safeUrl value).length ≤ 3 * value.length := by
  have hall : ∀ text : List Char, (text.flatMap escapeUrl).length ≤ 3 * text.length := by
    intro text
    induction text with
    | nil => exact Nat.le_refl 0
    | cons c text ih =>
        have hone : (escapeUrl c).length ≤ 3 := by
          unfold escapeUrl
          split
          · decide
          · split
            · decide
            · split
              · decide
              · exact Nat.le_of_ble_eq_true rfl
        rw [List.flatMap_cons, List.length_append, List.length_cons]
        omega
  rw [← String.length_toList]
  exact hall value.toList

/-- The note is far shorter than the limit. -/
theorem length_suffix_le (hurl : content.detailsUrl.length < 1000) :
    content.suffix.length ≤ maxGithubBodyChars := by
  have hsafe := length_safeUrl_le content.detailsUrl
  have hlength : content.suffix.length = CommentContent.noteStart.length
      + ("[전체 분석 보기](".toList.length + (safeUrl content.detailsUrl).length + 1) := by
    unfold CommentContent.suffix CommentContent.noteLink
    rw [List.length_append, List.length_append, List.length_append]
    rfl
  have hstart : CommentContent.noteStart.length ≤ 100 := by decide
  have hlabel : "[전체 분석 보기](".toList.length ≤ 100 := by decide
  have hmax : maxGithubBodyChars = 60000 := rfl
  omega

theorem render_of_fits (hfits : content.fullText.length ≤ maxGithubBodyChars) :
    renderGithubDiagnosis content = content.fullText ∧ closing content = content.linkLine := by
  unfold renderGithubDiagnosis closing
  dsimp only
  rw [if_pos hfits, if_pos hfits]
  exact ⟨rfl, rfl⟩

/-- A text that is too long is cut so that the note fits. -/
theorem render_of_long (hurl : content.detailsUrl.length < 1000)
    (hlong : ¬ content.fullText.length ≤ maxGithubBodyChars) :
    renderGithubDiagnosis content
        = content.fullText.take content.cutPlace.toNat ++ CommentContent.noteStart
          ++ content.noteLink
      ∧ closing content = content.noteLink := by
  have hle := length_suffix_le content hurl
  have hpos : ¬ content.cutPlace < 0 := by
    unfold CommentContent.cutPlace
    omega
  unfold renderGithubDiagnosis closing slicePrefix
  dsimp only
  rw [if_neg hlong, if_neg hlong, if_neg hpos, List.append_assoc]
  exact ⟨rfl, rfl⟩

theorem length_render_le (hurl : content.detailsUrl.length < 1000) :
    (renderGithubDiagnosis content).length ≤ maxGithubBodyChars := by
  by_cases hfits : content.fullText.length ≤ maxGithubBodyChars
  · rw [(render_of_fits content hfits).1]
    exact hfits
  · have hsuffix := length_suffix_le content hurl
    have hlength : content.suffix.length = CommentContent.noteStart.length
        + content.noteLink.length := List.length_append
    rw [(render_of_long content hurl hfits).1, List.length_append, List.length_append,
      List.length_take]
    unfold CommentContent.cutPlace
    omega

theorem wellFormed_of_fits_iff (hfits : content.fullText.length ≤ maxGithubBodyChars) :
    WellFormedBody content (renderGithubDiagnosis content)
      ↔ AllClosed (safeUrl content.detailsUrl) := by
  obtain ⟨hbody, hclosing⟩ := render_of_fits content hfits
  rw [hbody]
  constructor
  · intro h
    have hclosed := h.closed
    rw [fullText_eq] at hclosed
    exact (closed_linkLine_iff content).mp hclosed.right
  · intro h
    have hline : AllClosed content.linkLine := (closed_linkLine_iff content).mpr h
    refine ⟨hfits, ?_, lined content.sections, ?_, closed_before_link content⟩
    · rw [fullText_eq]
      exact closed_append_link (closed_before_link content) hline
    · rw [hclosing, fullText_eq]

theorem wellFormed_of_long_iff (hurl : content.detailsUrl.length < 1000)
    (hlong : ¬ content.fullText.length ≤ maxGithubBodyChars) :
    WellFormedBody content (renderGithubDiagnosis content)
      ↔ AllClosed (safeUrl content.detailsUrl)
        ∧ ¬ CutInCode content.sections content.cutPlace.toNat
        ∧ AllClosed ((safeUrl content.detailsUrl).take
            (content.cutPlace.toNat - urlPlace content)) := by
  have hbound := length_render_le content hurl
  have hcut := closed_take_fullText content content.cutPlace.toNat
  obtain ⟨hbody, hclosing⟩ := render_of_long content hurl hlong
  rw [hbody] at hbound ⊢
  constructor
  · intro h
    obtain ⟨before, hbefore, hopen⟩ := h.link
    rw [hclosing] at hbefore
    have hsame := List.append_cancel_right hbefore
    rw [← hsame, closed_note_iff, hcut] at hopen
    have hlink : AllClosed content.noteLink := h.closed.right
    exact ⟨(closed_noteLink_iff content).mp hlink, hopen⟩
  · intro h
    have hstart : AllClosed (content.fullText.take content.cutPlace.toNat
        ++ CommentContent.noteStart) := (closed_note_iff _).mpr (hcut.mpr h.2)
    have hlink : AllClosed content.noteLink := (closed_noteLink_iff content).mpr h.1
    exact ⟨hbound, closed_append_link hstart hlink, _, by rw [hclosing], hstart⟩

/-- **When the body is well formed**: exactly if the URL closes the blocks that it opens, and
the place of the cut, where there is one, is in no code block. The limit is kept anyway. -/
theorem body_well_formed_iff (content : CommentContent)
    (hurl : content.detailsUrl.length < 1000) :
    (renderGithubDiagnosis content).length ≤ maxGithubBodyChars
      ∧ (WellFormedBody content (renderGithubDiagnosis content) ↔ CutsNoCode content) := by
  refine ⟨length_render_le content hurl, ?_⟩
  unfold CutsNoCode
  by_cases hfits : content.fullText.length ≤ maxGithubBodyChars
  · rw [wellFormed_of_fits_iff content hfits]
    refine (and_iff_left ?_).symm
    intro hlong
    exact absurd hfits (Nat.not_le.mpr hlong)
  · rw [wellFormed_of_long_iff content hurl hfits]
    refine and_congr_right fun _ => ?_
    exact (imp_iff_right (Nat.not_le.mp hfits)).symm

/-! ## A cut in the evidence -/

/-- A diagnosis with some evidence, and nothing else of interest. -/
def quoting (evidence : String) : CommentContent where
  runId := 123
  classification := { category := .unknown, confidence := 1 / 5, firstError := "unknown" }
  diagnosis := {
    summary := "unknown"
    rootCause := "x"
    confidence := 1 / 5
    evidence := [{ source := "log", content := evidence }] }
  relatedFiles := []
  detailsUrl := "https://pipelens.example/?run_id=123"

theorem body_well_formed_unknown :
    (renderGithubDiagnosis (quoting "unknown")).length ≤ maxGithubBodyChars
      ∧ (WellFormedBody (quoting "unknown") (renderGithubDiagnosis (quoting "unknown"))
        ↔ CutsNoCode (quoting "unknown")) :=
  body_well_formed_iff (quoting "unknown") (by decide)

theorem safe_replicate (n : Nat) :
    safe (String.ofList (List.replicate n 'x')) = List.replicate n 'x' := by
  have hone : ∀ f : Char → List Char, f 'x' = ['x'] →
      (List.replicate n 'x').flatMap f = List.replicate n 'x' := by
    intro f hf
    induction n with
    | zero => rfl
    | succ n ih => rw [List.replicate_succ, List.flatMap_cons, hf, ih]; rfl
  unfold safe
  rw [String.toList_ofList, hone _ rfl, hone _ rfl]

/-- The sections in front of the evidence. -/
theorem quoting_sections (evidence : String) : ∃ earlier later,
    (quoting evidence).sections = earlier ++ .code evidence :: later
      ∧ (lined earlier).length ≤ 200 := by
  refine ⟨(quoting "").sections.take 15, (quoting "").sections.drop 16, rfl, by decide +kernel⟩

/-- Evidence of 70000 characters is cut through, and the link with it. -/
theorem evidence_cut_through :
    let content := quoting (String.ofList (List.replicate 70000 'x'))
    content.detailsUrl.length < 1000
      ∧ ¬ AllClosed (renderGithubDiagnosis content)
      ∧ ¬ WellFormedBody content (renderGithubDiagnosis content) := by
  generalize hvalue : String.ofList (List.replicate 70000 'x') = value
  intro content
  have hurl : content.detailsUrl.length < 1000 := by
    show "https://pipelens.example/?run_id=123".length < 1000
    decide
  have hsuffix : content.suffix.length ≤ 200 := by
    show (CommentContent.noteStart ++ ("[전체 분석 보기](".toList
      ++ safeUrl "https://pipelens.example/?run_id=123" ++ ")".toList)).length ≤ 200
    decide
  have hblock : (codeBlock value).length = 70024 := by
    rw [length_codeBlock, ← hvalue, safe_replicate, List.length_replicate]
    rfl
  obtain ⟨earlier, later, hsections, hearlier⟩ := quoting_sections value
  have hlength := length_lined earlier value later
  rw [← hsections] at hlength
  have hlong : ¬ content.fullText.length ≤ maxGithubBodyChars := by
    rw [fullText_eq, List.length_append, hlength, hblock]
    unfold maxGithubBodyChars
    omega
  have hplace : content.cutPlace.toNat = 60000 - content.suffix.length := by
    unfold CommentContent.cutPlace maxGithubBodyChars
    omega
  have hcut : CutInCode content.sections content.cutPlace.toNat := by
    have hopen : openCode.length = 11 := rfl
    exact ⟨earlier, value, later, hsections, by omega, by omega⟩
  have hopen : ¬ AllClosed (renderGithubDiagnosis content) := by
    have hlink : '<' ∉ content.noteLink := by
      show '<' ∉ "[전체 분석 보기](".toList ++ safeUrl "https://pipelens.example/?run_id=123"
        ++ ")".toList
      decide
    rw [(render_of_long content hurl hlong).1, List.append_assoc, closed_suffix_iff content hlink,
      closed_take_fullText]
    intro hclosed
    exact hclosed.1 hcut
  exact ⟨hurl, hopen, fun h => hopen h.closed⟩

end PipeLens.Proof
