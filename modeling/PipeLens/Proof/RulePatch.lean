import PipeLens.Proof.GluedLines
import PipeLens.Proof.Verification
import PipeLens.Proposal

/-!
# What a verified rule patch does

`propose_version_patches` rewrites each pin with one text, the package as the bump spells it
and the target. The pattern ignores case, so a pin may be spelled in another way, and then
the rewriting changes more than the version. Verification compares the changed lines
with everything blurred that follows a `==`; it notices another spelling of the package
unless the package itself stands behind a `==`.
-/

namespace PipeLens.Proof

open Text Substitution

variable {env : PatchEnvironment} {sameLetter : Char → Char → Bool} {difflib : Difflib}

/-! ## Pins -/

/-- A pin with the version exchanged. -/
def retarget (bump : VersionBump) (pin : List Char) : List Char :=
  pin.take (bump.package.toList.length + 2) ++ bump.target.toList

/-- The content with the version exchanged in every pin, and nothing else. -/
def retargeted (sameLetter : Char → Char → Bool) (bump : VersionBump) (content : List Char) :
    List Char :=
  Substitution.replaceAll (retarget bump) (pieces (bump.findPin sameLetter) content)

/-- A sequence of characters takes as many characters, each with its property. -/
theorem mem_run_chars {ps : List (Char → Bool)} {pos pos' : Regex.Pos}
    (h : pos' ∈ (Regex.all (ps.map .char)).run pos) :
    ∃ text, pos.after = text ++ pos'.after ∧ List.Forall₂ (fun p c => p c = true) ps text := by
  induction ps generalizing pos with
  | nil =>
      rw [List.mem_singleton.mp h]
      exact ⟨[], rfl, .nil⟩
  | cons p ps ih =>
      obtain ⟨mid, hmid, hrest⟩ := List.mem_flatMap.mp h
      rw [Regex.run] at hmid
      split at hmid
      · cases hmid
      · rename_i c after hafter
        split at hmid
        · rename_i hc
          rw [List.mem_singleton.mp hmid] at hrest
          obtain ⟨text, htext, hall⟩ := ih hrest
          refine ⟨c :: text, ?_, .cons hc hall⟩
          rw [hafter, List.cons_append]
          exact congrArg (c :: ·) htext
        · cases hmid

/-- A pin that is found has as many characters as the one that is looked for, one for each. -/
theorem findPin_cases {bump : VersionBump} {before after : List Char} {k : Nat}
    (h : bump.findPin sameLetter before after = some k) :
    List.Forall₂ (fun x c => sameLetter x c = true) bump.pin (after.take k) := by
  unfold VersionBump.findPin at h
  split at h
  · cases h
  · obtain ⟨pos, hpos, hk⟩ := Option.map_eq_some_iff.mp h
    have hmem := List.mem_of_find?_eq_some hpos
    rw [← Function.comp_def Regex.char sameLetter, ← List.map_map] at hmem
    obtain ⟨text, htext, hall⟩ := mem_run_chars hmem
    rw [List.forall₂_map_left_iff] at hall
    have hafter : after = text ++ pos.after := htext
    have hlength : k = text.length := by
      rw [← hk, hafter, List.length_append]
      omega
    rw [hlength, hafter, List.take_left]
    exact hall

theorem found_pin {bump : VersionBump} {content found : List Char}
    (h : found ∈ founds (pieces (bump.findPin sameLetter) content)) :
    List.Forall₂ (fun x c => sameLetter x c = true) bump.pin found := by
  obtain ⟨before, after, k, hfind, rfl⟩ := mem_founds h
  exact findPin_cases hfind

theorem length_pin (bump : VersionBump) : bump.pin.length
    = bump.package.toList.length + 2 + bump.current.toList.length := by
  unfold VersionBump.pin
  rw [List.length_append, List.length_append]
  rfl

/-! ## Replacements -/

/-- How long a replacement is for a match of some length. -/
theorem length_expandTemplate (parts : List TemplatePart) (found : List Char) :
    (expandTemplate parts found).length
      = (parts.map fun
          | .literal _ => 1
          | .wholeMatch => found.length).sum := by
  unfold expandTemplate
  rw [List.length_flatMap]
  congr 1
  refine List.map_congr_left fun part _ => ?_
  cases part with
  | literal c => rfl
  | wholeMatch => rfl

/-- **The file becomes the retargeted one** exactly if every single pin does. -/
theorem updated_eq_iff {bump : VersionBump} {content : List Char} {parts : List TemplatePart} :
    Substitution.replaceAll (expandTemplate parts) (pieces (bump.findPin sameLetter) content)
        = retargeted sameLetter bump content
      ↔ ∀ found ∈ founds (pieces (bump.findPin sameLetter) content),
        expandTemplate parts found = retarget bump found := by
  refine replaceAll_eq_iff (a := (parts.map fun
    | .literal _ => 1
    | .wholeMatch => bump.pin.length).sum)
    (b := bump.package.toList.length + 2 + bump.target.toList.length) ?_ ?_
  · intro found hfound
    rw [length_expandTemplate, (found_pin hfound).length_eq]
  · intro found hfound
    have hlength := (found_pin hfound).length_eq
    rw [length_pin] at hlength
    unfold retarget
    rw [List.length_append, List.length_take]
    omega

/-- Without a backslash, a template is what it says. -/
theorem parseTemplate_plain {n : Nat} {text : List Char} (h : '\\' ∉ text)
    (hn : text.length < n) : parseTemplate n text = some (text.map .literal) := by
  induction n generalizing text with
  | zero => exact absurd hn (Nat.not_lt_zero _)
  | succ n ih =>
      cases text with
      | nil => rfl
      | cons c text =>
          obtain ⟨hc, htext⟩ := not_or.mp fun hor => h (List.mem_cons.mpr hor)
          have hrest := ih htext (Nat.lt_of_succ_lt_succ hn)
          rw [parseTemplate.eq_7 _ _ _ fun heq => hc heq.symm, hrest]
          rfl

theorem expandTemplate_plain (text found : List Char) :
    expandTemplate (text.map .literal) found = text := by
  unfold expandTemplate
  rw [List.flatMap_map]
  exact List.flatMap_singleton' text

/-- The file that the suggestion for a bump is about to give. -/
def rewritten (sameLetter : Char → Char → Bool) (bump : VersionBump) (parts : List TemplatePart)
    (content : List Char) : List Char :=
  Substitution.replaceAll (expandTemplate parts) (pieces (bump.findPin sameLetter) content)

/-- Every pin spells the package as the bump does. -/
def AllSpelled (sameLetter : Char → Char → Bool) (bump : VersionBump) (content : List Char) :
    Prop :=
  ∀ found ∈ founds (pieces (bump.findPin sameLetter) content),
    found.take (bump.package.toList.length + 2) = bump.package.toList ++ ['=', '=']

theorem allSpelled_iff {bump : VersionBump} {content : List Char} :
    (∀ found ∈ founds (pieces (bump.findPin sameLetter) content),
        expandTemplate (bump.template.map .literal) found = retarget bump found)
      ↔ AllSpelled sameLetter bump content := by
  refine forall₂_congr fun found _ => ?_
  rw [expandTemplate_plain, VersionBump.template, retarget, List.append_left_inj]
  exact eq_comm

/-- Pins weigh the same, however they are spelled. -/
theorem weight_retargeted (hletters : ∀ x c, sameLetter x c = true → isNewline c = isNewline x)
    {bump : VersionBump} {content : List Char} :
    weight (retargeted sameLetter bump content)
      = weight (rewritten sameLetter bump (bump.template.map .literal) content) := by
  have hweight : ∀ {xs cs : List Char}, List.Forall₂ (fun x c => sameLetter x c = true) xs cs →
      weight cs = weight xs := by
    intro xs cs h
    induction h with
    | nil => rfl
    | @cons x c xs cs hxc _ ih =>
        unfold weight at ih ⊢
        rw [List.countP_cons, List.countP_cons, ih, hletters x c hxc]
  unfold retargeted rewritten
  generalize hps : pieces (bump.findPin sameLetter) content = ps
  have hfound : ∀ found ∈ founds ps,
      weight (retarget bump found) = weight (expandTemplate (bump.template.map .literal) found) := by
    intro found hmem
    rw [← hps] at hmem
    have hpin := found_pin hmem
    have hstart := hweight (List.forall₂_take (bump.package.toList.length + 2) hpin)
    have htake : bump.pin.take (bump.package.toList.length + 2)
        = bump.package.toList ++ ['=', '='] := by
      unfold VersionBump.pin
      have hlength : (bump.package.toList ++ ['=', '=']).length
          = bump.package.toList.length + 2 := List.length_append
      rw [← hlength, List.take_left]
    rw [htake] at hstart
    rw [expandTemplate_plain, retarget, VersionBump.template, weight_append, weight_append, hstart]
  clear hps
  induction ps with
  | nil => rfl
  | cons p ps ih =>
      cases p with
      | kept c =>
          show weight ([c] ++ Substitution.replaceAll _ ps) = weight ([c] ++ _)
          rw [weight_append, weight_append, ih hfound]
          rfl
      | found text =>
          have hhere := hfound text List.mem_cons_self
          show weight (retarget bump text ++ Substitution.replaceAll _ ps) = weight (_ ++ _)
          rw [weight_append, weight_append, hhere,
            ih fun t ht => hfound t (List.mem_cons_of_mem text ht)]
          rfl

/-! ## Where a suggestion comes from -/

/-- The suggestion for a bump and a file. -/
structure Proposed (sameLetter : Char → Char → Bool) (difflib : Difflib) (bump : VersionBump)
    (file : String × String) (parts : List TemplatePart) (s : Suggestion) : Prop where
  template : parseTemplate (bump.template.length + 1) bump.template = some parts
  pinned : founds (pieces (bump.findPin sameLetter) file.2.toList) ≠ []
  unlocked : isHashLocked (bump.findPin sameLetter) (splitlines file.2.toList) = false
  suggestion : s = versionSuggestion difflib bump file.1 file.2.toList
    (rewritten sameLetter bump parts file.2.toList)

theorem proposeFile_cases {bump : VersionBump} {file : String × String} {p p' : Proposals}
    (h : proposeFile env sameLetter difflib bump p file = some p') :
    p'.suggestions = p.suggestions
      ∨ ∃ parts s, Proposed sameLetter difflib bump file parts s
        ∧ p'.suggestions = p.suggestions ++ [s] := by
  unfold proposeFile at h
  dsimp only at h
  split at h
  · exact Or.inl (congrArg Proposals.suggestions (Option.some.inj h)).symm
  rename_i hpinned
  split at h
  · exact Or.inl (congrArg Proposals.suggestions (Option.some.inj h)).symm
  rename_i hlocked
  obtain ⟨parts, hparts, hp'⟩ := Option.map_eq_some_iff.mp h
  refine Or.inr ⟨parts, _, ⟨hparts, ?_, by simpa using hlocked, rfl⟩, ?_⟩
  · intro hnone
    rw [hnone] at hpinned
    exact hpinned rfl
  · exact (congrArg Proposals.suggestions hp').symm

theorem mem_proposeFiles {bump : VersionBump} {files : List (String × String)} {p p' : Proposals}
    (h : files.foldlM (proposeFile env sameLetter difflib bump) p = some p') {s : Suggestion}
    (hs : s ∈ p'.suggestions) :
    s ∈ p.suggestions ∨ ∃ file ∈ files, ∃ parts, Proposed sameLetter difflib bump file parts s := by
  induction files generalizing p with
  | nil =>
      rw [← Option.some.inj h] at hs
      exact Or.inl hs
  | cons file files ih =>
      rw [List.foldlM_cons] at h
      obtain ⟨middle, hstep, hrest⟩ := Option.bind_eq_some_iff.mp h
      rcases ih hrest with hmem | ⟨file', hfile', hproposed⟩
      · rcases proposeFile_cases hstep with hsame | ⟨parts, s', hproposed, hnew⟩
        · rw [hsame] at hmem
          exact Or.inl hmem
        · rw [hnew] at hmem
          rcases List.mem_append.mp hmem with hmem | hmem
          · exact Or.inl hmem
          · rw [List.mem_singleton.mp hmem]
            exact Or.inr ⟨file, List.mem_cons_self, parts, hproposed⟩
      · exact Or.inr ⟨file', List.mem_cons_of_mem file hfile', hproposed⟩

/-- **Every suggestion has a bump and a file** that it is proposed for. -/
theorem mem_proposeVersionPatches {bumps : List VersionBump} {files : List (String × String)}
    {p : Proposals} (h : proposeVersionPatches env sameLetter difflib bumps files = some p)
    {s : Suggestion} (hs : s ∈ p.suggestions) :
    ∃ bump ∈ bumps, ∃ file ∈ files, ∃ parts, Proposed sameLetter difflib bump file parts s := by
  have hrun : ∀ (bumps : List VersionBump) (q : Proposals),
      bumps.foldlM (fun p bump =>
        (sortedItems files).foldlM (proposeFile env sameLetter difflib bump) p) q = some p →
      s ∈ q.suggestions ∨ ∃ bump ∈ bumps, ∃ file ∈ files, ∃ parts,
        Proposed sameLetter difflib bump file parts s := by
    intro bumps
    induction bumps with
    | nil =>
        intro q h
        rw [← Option.some.inj h] at hs
        exact Or.inl hs
    | cons bump bumps ih =>
        intro q h
        rw [List.foldlM_cons] at h
        obtain ⟨middle, hstep, hrest⟩ := Option.bind_eq_some_iff.mp h
        rcases ih middle hrest with hmem | ⟨bump', hbump', hproposed⟩
        · rcases mem_proposeFiles hstep hmem with hmem | ⟨file, hfile, hproposed⟩
          · exact Or.inl hmem
          · refine Or.inr ⟨bump, List.mem_cons_self, file, ?_, hproposed⟩
            exact (List.mem_insertionSort _).mp hfile
        · exact Or.inr ⟨bump', List.mem_cons_of_mem bump hbump', hproposed⟩
  rcases hrun bumps ⟨[], []⟩ h with hnone | hproposed
  · cases hnone
  · exact hproposed

/-- What `propose_and_verify_patches` returns is a verification of what was proposed. -/
theorem proposeAndVerify_cases {diagnosis result : Diagnosis} {bumps : List VersionBump}
    {files : List (String × String)} {outcomes : List ((String × String) × Nat)}
    (h : proposeAndVerifyPatches env sameLetter difflib diagnosis bumps files
      = .ok (result, outcomes)) :
    ∃ p, proposeVersionPatches env sameLetter difflib bumps files = some p
      ∧ verifyPatchSuggestions env
          { diagnosis with
            suggestions := p.suggestions ++ diagnosis.suggestions
            notes := diagnosis.notes ++ p.notes } files = .ok (result, outcomes) := by
  unfold proposeAndVerifyPatches at h
  split at h
  · cases h
  · rename_i p hp
    refine ⟨p, hp, ?_⟩
    dsimp only at h
    split at h
    · cases h
    · rename_i hresult
      rw [hresult]
      exact congrArg Except.ok (Except.ok.inj h)

/-- A suggestion that is marked was accepted, or came marked and without a patch. -/
theorem marked_cases {files : List (String × String)} {diagnosis result : Diagnosis}
    {outcomes : List ((String × String) × Nat)}
    (h : verifyPatchSuggestions env diagnosis files = .ok (result, outcomes)) {s : Suggestion}
    (hs : s ∈ result.suggestions) (hverified : s.patchVerified = true) :
    ∃ s₀ ∈ diagnosis.suggestions,
      (s = s₀ ∧ hasPatch s₀ = false)
        ∨ (s = { s₀ with patchVerified := true } ∧ judge env files s₀ = .ok .verified) := by
  obtain ⟨verdicts, hjudged, v, hv, rfl, _⟩ := verifyPatchSuggestions_iff.mp h
  have hmem : s ∈ (diagnosis.suggestions.zip verdicts).map fun p => p.2.mark p.1 := by
    rw [hv] at hs
    dsimp only at hs
    rwa [suggestions_foldl, List.nil_append] at hs
  obtain ⟨⟨s₀, verdict⟩, hpair, rfl⟩ := List.mem_map.mp hmem
  have hjudge : judge env files s₀ = .ok verdict := by
    have hall := List.forall₂_iff_zip.mp hjudged
    exact hall.2 hpair
  refine ⟨s₀, (List.of_mem_zip hpair).1, ?_⟩
  cases verdict with
  | untouched =>
      refine Or.inl ⟨rfl, ?_⟩
      unfold judge at hjudge
      by_cases hpatch : hasPatch s₀ = true
      · rw [if_pos hpatch] at hjudge
        cases hrejection : patchRejection env s₀ files with
        | error message =>
            rw [hrejection] at hjudge
            cases hjudge
        | ok rejection =>
            rw [hrejection] at hjudge
            cases rejection with
            | none => cases hjudge
            | some reason => cases hjudge
      · simpa using hpatch
  | verified => exact Or.inr ⟨rfl, hjudge⟩
  | rejected reason => cases hverified

theorem accepted_of_judge {files : List (String × String)} {s : Suggestion}
    (h : judge env files s = .ok .verified) :
    hasPatch s = true ∧ Accepted env files (s.file.getD "") (s.patch.getD "").toList := by
  unfold judge at h
  by_cases hpatch : hasPatch s = true
  · rw [if_pos hpatch] at h
    refine ⟨hpatch, accepted_of_patchRejection ?_⟩
    cases hrejection : patchRejection env s files with
    | error message =>
        rw [hrejection] at h
        cases h
    | ok rejection =>
        rw [hrejection] at h
        cases rejection with
        | none => rfl
        | some reason => cases h
  · rw [if_neg hpatch] at h
    cases h

/-! ## The path -/

/-- The first line of a text that goes on behind a break. -/
theorem splitlines_head {line : List Char} (hline : ∀ c ∈ line, isBreak c = false) {c : Char}
    (hc : isBreak c = true) (rest : List Char) : line ∈ splitlines (line ++ c :: rest) := by
  by_cases hcrlf : c = '\r' ∧ ∃ rest', rest = '\n' :: rest'
  · obtain ⟨rfl, rest', rfl⟩ := hcrlf
    rw [splitlines_crlf hline]
    exact List.mem_cons_self
  · rw [splitlines_break hline hc rest fun rest' h => hcrlf ⟨h.1, rest', h.2⟩]
    exact List.mem_cons_self

/-- A text with a break goes up to its first one. -/
theorem exists_first_break {text : List Char} (h : text.any isBreak = true) :
    ∃ start c rest, text = start ++ c :: rest ∧ isBreak c = true
      ∧ ∀ d ∈ start, isBreak d = false := by
  induction text with
  | nil => cases h
  | cons c text ih =>
      cases hc : isBreak c with
      | true => exact ⟨[], c, text, rfl, hc, fun d hd => absurd hd List.not_mem_nil⟩
      | false =>
          rw [List.any_cons, hc, Bool.false_or] at h
          obtain ⟨start, d, rest, rfl, hd, hstart⟩ := ih h
          exact ⟨c :: start, d, rest, rfl, hd, List.forall_mem_cons.mpr ⟨hc, hstart⟩⟩

/-- The name in a header has no break, so that a path with one is not accepted. -/
theorem path_of_accepted {files : List (String × String)} {path : String}
    {original updated : List Char}
    (hne : renderUnifiedDiff difflib path original updated ≠ [])
    (h : Accepted env files path (renderUnifiedDiff difflib path original updated)) :
    path.toList.any isBreak = false := by
  refine Bool.eq_false_iff.mpr fun hpath => ?_
  obtain ⟨start, c, rest, hsplit, hc, hstart⟩ := exists_first_break hpath
  -- the first line of the diff ends with the first break of the path
  obtain ⟨others, hpatch⟩ : ∃ others, renderUnifiedDiff difflib path original updated
      = ("--- a/".toList ++ start) ++ c :: others := by
    unfold renderUnifiedDiff unifiedDiff at hne ⊢
    split
    · rename_i hnone
      rw [hnone] at hne
      exact absurd rfl hne
    · simp only [String.toList_append, hsplit, List.flatten_cons, List.append_assoc,
        List.cons_append]
      exact ⟨_, rfl⟩
  have hline : ∀ d ∈ "--- a/".toList ++ start, isBreak d = false :=
    List.forall_mem_append.mpr ⟨noBreak_of_any (by decide), hstart⟩
  have hmem : "--- a/".toList ++ start
      ∈ (splitlines (renderUnifiedDiff difflib path original updated)).filter isFileHeader := by
    rw [hpatch]
    exact List.mem_filter.mpr ⟨splitlines_head hline hc others, rfl⟩
  have hallowed : headerName ("--- a/".toList ++ start) ∈ allowedHeaders path := by
    simpa using h.headers _ hmem
  -- each of these names has the path in it
  have hbreak : ∀ name ∈ allowedHeaders path, c ∈ name.toList := by
    have hmem : c ∈ path.toList := by rw [hsplit]; simp
    intro name hname
    simp only [allowedHeaders, List.mem_cons, List.not_mem_nil, or_false] at hname
    rcases hname with rfl | rfl | rfl
    · rw [String.toList_append]
      exact List.mem_append_right _ hmem
    · rw [String.toList_append]
      exact List.mem_append_right _ hmem
    · exact hmem
  have hin := hbreak _ hallowed
  rw [headerName, String.toList_ofList, strip] at hin
  have hname := (List.dropWhile_sublist _).subset ((List.rdropWhile_prefix _ _).subset hin)
  have hnot := hline c (List.mem_of_mem_drop hname)
  rw [hc] at hnot
  cases hnot

/-! ## The result -/

/-- The edit script behind the diff for a bump and a file. -/
def proposalScript (sameLetter : Char → Char → Bool) (difflib : Difflib) (bump : VersionBump)
    (parts : List TemplatePart) (content : List Char) : List (Marker × List Char) :=
  difflib.script (rawLines content) (rawLines (rewritten sameLetter bump parts content))

/-- The patch exchanges the version in every pin of the file, and does nothing else. -/
def ExchangesVersions (env : PatchEnvironment) (sameLetter : Char → Char → Bool)
    (bump : VersionBump) (content : List Char) (s : Suggestion) : Prop :=
  applyUnifiedDiff env.unicode content (s.patch.getD "").toList
    = .ok (retargeted sameLetter bump content)

/-- What a suggestion that passed the checks says about its diff. -/
theorem render_of_judge {files : List (String × String)} {bump : VersionBump}
    {file : String × String} {parts : List TemplatePart} {s : Suggestion}
    (hproposed : Proposed sameLetter difflib bump file parts s)
    (hjudge : judge env files s = .ok .verified) :
    (s.patch.getD "").toList = renderUnifiedDiff difflib file.1 file.2.toList
        (rewritten sameLetter bump parts file.2.toList)
      ∧ renderUnifiedDiff difflib file.1 file.2.toList
        (rewritten sameLetter bump parts file.2.toList) ≠ []
      ∧ file.1.toList.any isBreak = false := by
  obtain ⟨hpatch, haccepted⟩ := accepted_of_judge hjudge
  have hs := hproposed.suggestion
  have htext : (s.patch.getD "").toList = renderUnifiedDiff difflib file.1 file.2.toList
      (rewritten sameLetter bump parts file.2.toList) := by
    rw [hs]
    exact String.toList_ofList
  have hfile : s.file.getD "" = file.1 := by
    rw [hs]
    rfl
  have hne : renderUnifiedDiff difflib file.1 file.2.toList
      (rewritten sameLetter bump parts file.2.toList) ≠ [] := by
    rw [← htext]
    simpa [hasPatch] using hpatch
  rw [hfile, htext] at haccepted
  exact ⟨htext, hne, path_of_accepted hne haccepted⟩

/-- If no line runs into the next, the patch gives the rewritten file. -/
theorem exchanges_of_unglued (hdigits : AsciiDigits env.unicode) {files : List (String × String)}
    {bump : VersionBump} {file : String × String} {parts : List TemplatePart} {s : Suggestion}
    (hsize : file.2.toList.length ≤ maxsize)
    (hproposed : Proposed sameLetter difflib bump file parts s)
    (hjudge : judge env files s = .ok .verified)
    (hunglued : Unglued (proposalScript sameLetter difflib bump parts file.2.toList)) :
    ExchangesVersions env sameLetter bump file.2.toList s
      ↔ ∀ found ∈ founds (pieces (bump.findPin sameLetter) file.2.toList),
        expandTemplate parts found = retarget bump found := by
  obtain ⟨htext, hne, hpath⟩ := render_of_judge hproposed hjudge
  have happly := render_applies difflib env.unicode file.1 file.2.toList
    (rewritten sameLetter bump parts file.2.toList) hdigits hpath hsize hne hunglued
  unfold ExchangesVersions
  rw [htext, happly, ← updated_eq_iff]
  exact ⟨fun h => Except.ok.inj h, fun h => congrArg Except.ok h⟩

/-- With a plain template, and whether or not a line runs into the next. -/
theorem exchanges_iff_of_plain (hdigits : AsciiDigits env.unicode)
    (hletters : ∀ x c, sameLetter x c = true → isNewline c = isNewline x)
    {files : List (String × String)} {bump : VersionBump} {file : String × String}
    {parts : List TemplatePart} {s : Suggestion} (hsize : file.2.toList.length ≤ maxsize)
    (hproposed : Proposed sameLetter difflib bump file parts s)
    (hjudge : judge env files s = .ok .verified) (hplain : '\\' ∉ bump.template) :
    ExchangesVersions env sameLetter bump file.2.toList s
      ↔ AllSpelled sameLetter bump file.2.toList
        ∧ Unglued (proposalScript sameLetter difflib bump parts file.2.toList) := by
  have hparts : parts = bump.template.map .literal := by
    have htemplate := hproposed.template
    rw [parseTemplate_plain hplain (Nat.lt_succ_self _)] at htemplate
    exact (Option.some.inj htemplate).symm
  by_cases hunglued : Unglued (proposalScript sameLetter difflib bump parts file.2.toList)
  · rw [exchanges_of_unglued hdigits hsize hproposed hjudge hunglued, hparts, allSpelled_iff,
      ← hparts]
    exact ⟨fun h => ⟨h, hunglued⟩, fun h => h.1⟩
  · refine ⟨fun hexchanges => ?_, fun h => absurd h.2 hunglued⟩
    obtain ⟨htext, _, hpath⟩ := render_of_judge hproposed hjudge
    unfold ExchangesVersions at hexchanges
    rw [htext] at hexchanges
    refine absurd ?_ (apply_glued difflib hdigits hpath hunglued hexchanges)
    rw [weight_retargeted hletters, hparts]

/-- **A verified rule patch exchanges versions** exactly if every pin spells the package as the
bump does and no line of the diff runs into the next. -/
theorem verified_rule_patch_iff (env : PatchEnvironment) (sameLetter : Char → Char → Bool)
    (difflib : Difflib) (diagnosis result : Diagnosis) (bumps : List VersionBump)
    (files : List (String × String)) (outcomes : List ((String × String) × Nat))
    (hdigits : AsciiDigits env.unicode)
    (hletters : ∀ x c, sameLetter x c = true → isNewline c = isNewline x)
    (hsizes : ∀ file ∈ files, file.2.toList.length ≤ maxsize)
    (hrule : ∀ s ∈ diagnosis.suggestions, s.source ≠ some .rule)
    (h : proposeAndVerifyPatches env sameLetter difflib diagnosis bumps files
      = .ok (result, outcomes)) (s : Suggestion) (hs : s ∈ result.suggestions)
    (hsource : s.source = some .rule) (hverified : s.patchVerified = true) :
    (∃ bump ∈ bumps, ∃ file ∈ files, ∃ parts,
        Proposed sameLetter difflib bump file parts { s with patchVerified := false })
      ∧ ∀ bump ∈ bumps, ∀ file ∈ files, ∀ parts,
        Proposed sameLetter difflib bump file parts { s with patchVerified := false } →
        ('\\' ∉ bump.template →
          (ExchangesVersions env sameLetter bump file.2.toList s
            ↔ AllSpelled sameLetter bump file.2.toList
              ∧ Unglued (proposalScript sameLetter difflib bump parts file.2.toList)))
        ∧ (Unglued (proposalScript sameLetter difflib bump parts file.2.toList) →
          (ExchangesVersions env sameLetter bump file.2.toList s
            ↔ ∀ found ∈ founds (pieces (bump.findPin sameLetter) file.2.toList),
              expandTemplate parts found = retarget bump found)) := by
  obtain ⟨p, hp, hverify⟩ := proposeAndVerify_cases h
  obtain ⟨s₀, hs₀, hcases⟩ := marked_cases hverify hs hverified
  have hfrom : s₀.source = some .rule := by
    rcases hcases with ⟨rfl, _⟩ | ⟨rfl, _⟩
    · exact hsource
    · exact hsource
  have hmem : s₀ ∈ p.suggestions := by
    rcases List.mem_append.mp hs₀ with hmem | hmem
    · exact hmem
    · exact absurd hfrom (hrule s₀ hmem)
  obtain ⟨bump, hbump, file, hfile, parts, hproposed⟩ := mem_proposeVersionPatches hp hmem
  have hfresh : s₀.patchVerified = false := by
    rw [hproposed.suggestion]
    rfl
  rcases hcases with ⟨rfl, _⟩ | ⟨rfl, hjudge⟩
  · rw [hverified] at hfresh
    cases hfresh
  · have hback : { { s₀ with patchVerified := true } with patchVerified := false } = s₀ := by
      rw [← hfresh]
    rw [hback]
    refine ⟨⟨bump, hbump, file, hfile, parts, hproposed⟩, ?_⟩
    intro bump' _ file' hfile' parts' hproposed'
    have hplain := exchanges_iff_of_plain hdigits hletters (hsizes file' hfile') hproposed' hjudge
    have hunglued := exchanges_of_unglued hdigits (hsizes file' hfile') hproposed' hjudge
    exact ⟨hplain, hunglued⟩

/-- `re.I` for ASCII letters. -/
def foldLetter (x c : Char) : Bool := Regex.fold x == Regex.fold c

/-- Folding keeps newlines apart from everything else. -/
theorem isNewline_fold (c : Char) : isNewline (Regex.fold c) = isNewline c := by
  have hascii : ∀ n < 128, isNewline (Regex.fold (Char.ofNat n)) = isNewline (Char.ofNat n) := by
    decide
  by_cases hsmall : c.toNat < 128
  · have hc := hascii c.toNat hsmall
    rwa [Char.ofNat_toNat] at hc
  · have hlarge : isNewline c = false := by
      refine Bool.eq_false_iff.mpr fun hnewline => ?_
      simp only [isNewline, Bool.or_eq_true, beq_iff_eq] at hnewline
      rcases hnewline with rfl | rfl
      · exact hsmall (by decide)
      · exact hsmall (by decide)
    have hupper : ¬ c.isUpper = true := by
      intro hupper
      delta Char.isUpper at hupper
      simp only [decide_eq_true_eq] at hupper
      have hle : c.toNat ≤ 90 := UInt32.le_iff_toNat_le.mp hupper.2
      omega
    unfold Regex.fold
    rw [if_neg hupper, hlarge]
    split
    · decide
    · split
      · decide
      · split
        · decide
        · exact hlarge

theorem foldLetter_newline (x c : Char) (h : foldLetter x c = true) :
    isNewline c = isNewline x := by
  have hfold : Regex.fold x = Regex.fold c := beq_iff_eq.mp h
  rw [← isNewline_fold c, ← hfold, isNewline_fold]

def fooBump : VersionBump := { package := "foo", current := "1", target := "2", reason := "r" }

/-- A diagnosis without suggestions. -/
def bareDiagnosis : Diagnosis :=
  { summary := "s", rootCause := "r", confidence := 9 / 10
    evidence := [{ source := "log", content := "e" }] }

/-- The suggestion for `fooBump` with this patch, verified. -/
def fooSuggestion (patch : String) : Suggestion where
  description := "foo를 1에서 2로 변경하세요 (r)."
  file := some "r.txt"
  patch := some patch
  source := some .rule
  patchVerified := true

def fooPatch : String :=
  "--- a/r.txt\n+++ b/r.txt\n@@ -1,2 +1,2 @@\n-a\n-foo==1\n+a\n+foo==2\n"

theorem verified_rule_patch_foo :
    ExchangesVersions asciiEnvironment foldLetter fooBump "a\nfoo==1\n".toList
      (fooSuggestion fooPatch) := by
  have hverify : proposeAndVerifyPatches asciiEnvironment foldLetter replaceAll bareDiagnosis
      [fooBump] [("r.txt", "a\nfoo==1\n")]
      = .ok ({ bareDiagnosis with suggestions := [fooSuggestion fooPatch] },
        [(("rule", "verified"), 1)]) := by
    decide +kernel
  obtain ⟨_, hall⟩ := verified_rule_patch_iff asciiEnvironment foldLetter replaceAll bareDiagnosis
    _ [fooBump] [("r.txt", "a\nfoo==1\n")] _ asciiDigits_ascii foldLetter_newline (by decide)
    (fun s hs => absurd hs List.not_mem_nil) hverify (fooSuggestion fooPatch) List.mem_cons_self
    rfl rfl
  have hproposed : Proposed foldLetter replaceAll fooBump ("r.txt", "a\nfoo==1\n")
      (fooBump.template.map .literal) { fooSuggestion fooPatch with patchVerified := false } :=
    ⟨by decide +kernel, by decide +kernel, by decide +kernel, by decide +kernel⟩
  have hboth := (hall fooBump List.mem_cons_self _ List.mem_cons_self _ hproposed).1
    (by decide +kernel)
  refine hboth.mpr ⟨?_, ?_⟩
  · unfold AllSpelled
    decide +kernel
  · unfold Unglued
    decide +kernel

def renamingPatch : String :=
  "--- a/r.txt\n+++ b/r.txt\n@@ -1 +1 @@\n-x==Foo==1\n+x==foo==2\n"

/-- **A verified rule patch that renames the package**: the line has another `==` before it. -/
theorem package_respelled :
    ∃ result outcomes,
      proposeAndVerifyPatches asciiEnvironment foldLetter replaceAll bareDiagnosis [fooBump]
        [("r.txt", "x==Foo==1\n")] = .ok (result, outcomes)
      ∧ fooSuggestion renamingPatch ∈ result.suggestions
      ∧ retargeted foldLetter fooBump "x==Foo==1\n".toList = "x==Foo==2\n".toList
      ∧ applyUnifiedDiff asciiEnvironment.unicode "x==Foo==1\n".toList renamingPatch.toList
        = .ok "x==foo==2\n".toList
      ∧ ¬ ExchangesVersions asciiEnvironment foldLetter fooBump "x==Foo==1\n".toList
        (fooSuggestion renamingPatch) := by
  have happly : applyUnifiedDiff asciiEnvironment.unicode "x==Foo==1\n".toList renamingPatch.toList
      = .ok "x==foo==2\n".toList := by decide +kernel
  have hmeant : retargeted foldLetter fooBump "x==Foo==1\n".toList = "x==Foo==2\n".toList := by
    decide +kernel
  refine ⟨{ bareDiagnosis with suggestions := [fooSuggestion renamingPatch] },
    [(("rule", "verified"), 1)], by decide +kernel, List.mem_cons_self, hmeant, happly, ?_⟩
  intro hexchanges
  have hsame := Except.ok.inj (happly.symm.trans hexchanges)
  rw [hmeant] at hsame
  exact absurd hsame (by decide)

end PipeLens.Proof
