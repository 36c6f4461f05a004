import PipeLens.Proof.RoundTrip
import PipeLens.Proof.Verification

/-!
# What verification raises

`verify_patch_suggestions` catches `PatchError` around the application of a diff, and the
errors that the parsers have of their own. Two things get past this. `int` refuses to
convert a number of more than 4300 digits, and a header may have one. And a parser may
raise an error that is not its own, as the constructors behind `yaml.safe_load_all` do.
-/

namespace PipeLens.Proof

open Text

variable {unicode : Unicode} {env : PatchEnvironment} {files : List (String × String)}

/-! ## Numbers in headers -/

/-- A header with a number that `int` refuses, behind lines that can be read. -/
def HasLongNumber (unicode : Unicode) (patch : List Char) : Prop :=
  ∃ before raw after, rawLines patch = before ++ raw :: after
    ∧ (∃ hunks, before.foldlM (parseLine unicode) [] = .ok hunks)
    ∧ ∃ digits, matchHunkHeader unicode (stripNewline raw) = some digits ∧ 4300 < digits.length

theorem pyInt_valueError {digits : List Char} :
    (∃ message, pyInt unicode digits = .error (.valueError message)) ↔ 4300 < digits.length := by
  unfold pyInt
  by_cases hlong : digits.length > 4300
  · rw [if_pos hlong]
    exact ⟨fun _ => hlong, fun _ => ⟨_, rfl⟩⟩
  · rw [if_neg hlong]
    constructor
    · rintro ⟨message, h⟩
      cases h
    · exact fun h => absurd h hlong

theorem parseLine_valueError {hunks : List Hunk} {raw : List Char} :
    (∃ message, parseLine unicode hunks raw = .error (.valueError message))
      ↔ ∃ digits, matchHunkHeader unicode (stripNewline raw) = some digits
        ∧ 4300 < digits.length := by
  unfold parseLine
  dsimp only
  cases hmatch : matchHunkHeader unicode (stripNewline raw) with
  | some digits =>
      constructor
      · rintro ⟨message, h⟩
        have hint : pyInt unicode digits = .error (.valueError message) := by
          rcases Program.bind_eq_error h with h | ⟨n, h⟩
          · exact h
          · cases h
        exact ⟨digits, rfl, pyInt_valueError.mp ⟨message, hint⟩⟩
      · rintro ⟨digits', hdigits, hlong⟩
        obtain rfl := Option.some.inj hdigits
        obtain ⟨message, h⟩ := (@pyInt_valueError unicode _).mpr hlong
        refine ⟨message, ?_⟩
        show (pyInt unicode digits >>= _) = _
        rw [h]
        rfl
  | none =>
      -- what else is wrong with a line is a `PatchError`
      constructor
      · rintro ⟨message, h⟩
        dsimp only at h
        split at h
        · split at h
          · cases h
          · split at h
            · cases h
            · cases h
        · split at h
          all_goals cases h
      · rintro ⟨digits, h, _⟩
        cases h

theorem foldlM_valueError {raws : List (List Char)} {hunks : List Hunk} :
    (∃ message, raws.foldlM (parseLine unicode) hunks = .error (.valueError message))
      ↔ ∃ before raw after, raws = before ++ raw :: after
        ∧ (∃ hunks', before.foldlM (parseLine unicode) hunks = .ok hunks')
        ∧ ∃ digits, matchHunkHeader unicode (stripNewline raw) = some digits
          ∧ 4300 < digits.length := by
  induction raws generalizing hunks with
  | nil =>
      constructor
      · rintro ⟨message, h⟩
        cases h
      · rintro ⟨before, raw, after, h, _⟩
        simp at h
  | cons first raws ih =>
      rw [List.foldlM_cons]
      constructor
      · rintro ⟨message, h⟩
        cases hfirst : parseLine unicode hunks first with
        | error e =>
            rw [hfirst] at h
            obtain rfl : e = .valueError message := Except.error.inj h
            exact ⟨[], first, raws, rfl, ⟨hunks, rfl⟩, parseLine_valueError.mp ⟨message, hfirst⟩⟩
        | ok hunks' =>
            rw [hfirst] at h
            obtain ⟨before, raw, after, rfl, ⟨hunks'', hbefore⟩, hraw⟩ := ih.mp ⟨message, h⟩
            refine ⟨first :: before, raw, after, rfl, ⟨hunks'', ?_⟩, hraw⟩
            rw [List.foldlM_cons, hfirst]
            exact hbefore
      · rintro ⟨before, raw, after, hsplit, ⟨hunks', hbefore⟩, hraw⟩
        cases before with
        | nil =>
            obtain ⟨rfl, rfl⟩ := List.cons.inj hsplit
            obtain ⟨message, h⟩ := (@parseLine_valueError _ hunks _).mpr hraw
            refine ⟨message, ?_⟩
            rw [h]
            rfl
        | cons first' before =>
            obtain ⟨rfl, rfl⟩ := List.cons.inj hsplit
            rw [List.foldlM_cons] at hbefore
            obtain ⟨middle, hfirst, hbefore⟩ := Program.bind_eq_ok hbefore
            rw [hfirst]
            exact ih.mpr ⟨before, raw, after, rfl, ⟨hunks', hbefore⟩, hraw⟩

theorem locateHunk_ne_valueError {lines : List (List Char)} {hunk : Hunk} {cursor : Nat}
    {message : String} : locateHunk lines hunk cursor ≠ .error (.valueError message) := by
  unfold locateHunk
  dsimp only
  intro h
  split at h
  · cases h
  · split at h
    all_goals cases h

theorem applyHunks_ne_valueError {lines : List (List Char)} {hunks : List Hunk} {cursor : Nat}
    {message : String} : applyHunks lines cursor hunks ≠ .error (.valueError message) := by
  induction hunks generalizing cursor with
  | nil =>
      intro h
      cases h
  | cons hunk hunks ih =>
      intro h
      rcases Program.bind_eq_error h with h | ⟨start, h⟩
      · exact locateHunk_ne_valueError h
      · rcases Program.bind_eq_error h with h | ⟨rest, h⟩
        · exact ih h
        · cases h

/-- **An application raises something else than `PatchError`** only for a long number. -/
theorem applyUnifiedDiff_valueError {original patch : List Char} :
    (∃ message, applyUnifiedDiff unicode original patch = .error (.valueError message))
      ↔ HasLongNumber unicode patch := by
  refine Iff.trans ?_ foldlM_valueError
  constructor
  · rintro ⟨message, h⟩
    refine ⟨message, ?_⟩
    rcases Program.bind_eq_error h with h | ⟨hunks, h⟩
    · rcases Program.bind_eq_error h with h | ⟨parsed, h⟩
      · exact h
      · split at h
        · cases h
        · cases h
    · rcases Program.bind_eq_error h with h | ⟨result, h⟩
      · exact absurd h applyHunks_ne_valueError
      · cases h
  · rintro ⟨message, h⟩
    refine ⟨message, ?_⟩
    unfold applyUnifiedDiff parseHunks
    rw [h]
    rfl

/-! ## Suggestions that abort the verification -/

/-- The patch gets as far as being applied to this content. -/
structure Tried (env : PatchEnvironment) (files : List (String × String)) (s : Suggestion)
    (content : String) : Prop where
  patch : hasPatch s = true
  named : s.file.getD "" ≠ ""
  file : files.lookup (s.file.getD "") = some content
  size : (s.patch.getD "").toList.length ≤ maxPatchChars
  changed : scannedChanged (s.patch.getD "").toList ≠ []
    ∧ (scannedChanged (s.patch.getD "").toList).length ≤ maxChangedLines
  headers : ∀ line ∈ (splitlines (s.patch.getD "").toList).filter isFileHeader,
    (allowedHeaders (s.file.getD "")).contains (headerName line) = true
  clean : env.redacts (s.patch.getD "") = false
  policy : policyViolation env.unicode s (s.patch.getD "").toList = none

/-- The checks of `_patch_rejection` up to there. -/
theorem patchRejection_cases (s : Suggestion) (hpatch : hasPatch s = true) :
    (∃ content, Tried env files s content ∧ patchRejection env s files =
      match applyUnifiedDiff env.unicode content.toList (s.patch.getD "").toList with
      | .error (.patchError message) => .ok (some message)
      | .error (.valueError message) => .error message
      | .ok updated => syntaxError env (s.file.getD "") (String.ofList updated))
    ∨ ((∀ content, ¬ Tried env files s content)
      ∧ ∃ reason, patchRejection env s files = .ok (some reason)) := by
  unfold patchRejection
  dsimp only
  cases hlookup : (if s.file.getD "" = "" then none else files.lookup (s.file.getD "")) with
  | none =>
      refine Or.inr ⟨fun content htried => ?_, _, rfl⟩
      rw [if_neg htried.named, htried.file] at hlookup
      cases hlookup
  | some content =>
      have hfile : s.file.getD "" ≠ "" ∧ files.lookup (s.file.getD "") = some content := by
        by_cases hnamed : s.file.getD "" = ""
        · rw [if_pos hnamed] at hlookup
          cases hlookup
        · rw [if_neg hnamed] at hlookup
          exact ⟨hnamed, hlookup⟩
      dsimp only
      by_cases hsize : (s.patch.getD "").toList.length > maxPatchChars
      · rw [if_pos hsize]
        exact Or.inr ⟨fun c htried => absurd htried.size (by omega), _, rfl⟩
      rw [if_neg hsize]
      by_cases hchanged : (scannedChanged (s.patch.getD "").toList).isEmpty
          ∨ (scannedChanged (s.patch.getD "").toList).length > maxChangedLines
      · rw [if_pos hchanged]
        refine Or.inr ⟨fun c htried => ?_, _, rfl⟩
        rcases hchanged with hnone | hmany
        · exact htried.changed.1 (List.isEmpty_iff.mp hnone)
        · exact absurd htried.changed.2 (by omega)
      rw [if_neg hchanged]
      cases hheaders : (((splitlines (s.patch.getD "").toList).filter isFileHeader).map
          headerName).any fun header => !(allowedHeaders (s.file.getD "")).contains header with
      | true =>
          rw [if_pos rfl]
          refine Or.inr ⟨fun c htried => ?_, _, rfl⟩
          obtain ⟨header, hheader, hnot⟩ := List.any_eq_true.mp hheaders
          obtain ⟨line, hline, rfl⟩ := List.mem_map.mp hheader
          rw [htried.headers line hline] at hnot
          cases hnot
      | false =>
          rw [if_neg (by decide)]
          cases hclean : env.redacts (s.patch.getD "") with
          | true =>
              rw [if_pos rfl]
              refine Or.inr ⟨fun c htried => ?_, _, rfl⟩
              rw [htried.clean] at hclean
              cases hclean
          | false =>
              rw [if_neg (by decide)]
              cases hpolicy : policyViolation env.unicode s (s.patch.getD "").toList with
              | some violation =>
                  refine Or.inr ⟨fun c htried => ?_, _, rfl⟩
                  rw [htried.policy] at hpolicy
                  cases hpolicy
              | none =>
                  refine Or.inl ⟨content, ?_, rfl⟩
                  push Not at hchanged
                  refine ⟨hpatch, hfile.1, hfile.2, by omega, ⟨?_, by omega⟩, ?_, hclean, hpolicy⟩
                  · intro hnone
                    rw [hnone] at hchanged
                    exact hchanged.1 rfl
                  · intro line hline
                    have hall := List.any_eq_false.mp hheaders _ (List.mem_map_of_mem hline)
                    simpa using hall

/-- A suggestion that makes the verification raise. -/
inductive Aborts (env : PatchEnvironment) (files : List (String × String)) (s : Suggestion) : Prop
  | number {content : String} (htried : Tried env files s content)
      (hlong : HasLongNumber env.unicode (s.patch.getD "").toList)
  | parser {content message : String} {updated : List Char} {format : DocumentFormat}
      (htried : Tried env files s content)
      (happly : applyUnifiedDiff env.unicode content.toList (s.patch.getD "").toList = .ok updated)
      (hformat : structuredFormat (s.file.getD "") = some format)
      (hraised : env.parse format (String.ofList updated) = .raised message)

theorem syntaxError_error {path content : String} :
    (∃ message, syntaxError env path content = .error message)
      ↔ ∃ format message, structuredFormat path = some format
        ∧ env.parse format content = .raised message := by
  unfold syntaxError
  cases hformat : structuredFormat path with
  | none =>
      constructor
      · rintro ⟨message, h⟩
        cases h
      · rintro ⟨format, message, h, _⟩
        cases h
  | some format =>
      dsimp only
      constructor
      · rintro ⟨message, h⟩
        split at h
        · cases h
        · cases h
        · rename_i raised hraised
          exact ⟨format, raised, rfl, hraised⟩
      · rintro ⟨format', message, hsame, hraised⟩
        obtain rfl := Option.some.inj hsame
        exact ⟨message, by rw [hraised]⟩

/-- **One suggestion**: the check raises exactly if the suggestion aborts. -/
theorem judge_error {s : Suggestion} :
    (∃ message, judge env files s = .error message) ↔ Aborts env files s := by
  unfold judge
  by_cases hpatch : hasPatch s = true
  · rw [if_pos hpatch]
    have hmap : ∀ verdict : Option String → Judgement,
        (∃ message, (patchRejection env s files).map verdict = .error message)
          ↔ ∃ message, patchRejection env s files = .error message := by
      intro verdict
      cases patchRejection env s files with
      | error message => exact ⟨fun _ => ⟨message, rfl⟩, fun _ => ⟨message, rfl⟩⟩
      | ok rejection =>
          constructor
          · rintro ⟨message, h⟩
            cases h
          · rintro ⟨message, h⟩
            cases h
    refine (hmap _).trans ?_
    rcases @patchRejection_cases env files s hpatch with
      ⟨content, htried, heq⟩ | ⟨hnot, reason, heq⟩
    · rw [heq]
      constructor
      · rintro ⟨message, h⟩
        split at h
        · cases h
        · rename_i raised happly
          exact .number htried (applyUnifiedDiff_valueError.mp ⟨raised, happly⟩)
        · rename_i updated happly
          obtain ⟨format, raised, hformat, hraised⟩ := syntaxError_error.mp ⟨message, h⟩
          exact .parser htried happly hformat hraised
      · intro habort
        cases habort with
        | number _ hlong =>
            obtain ⟨message, happly⟩ :=
              (@applyUnifiedDiff_valueError _ content.toList _).mpr hlong
            exact ⟨message, by rw [happly]⟩
        | parser htried' happly hformat hraised =>
            obtain rfl := Option.some.inj (htried.file.symm.trans htried'.file)
            rw [happly]
            exact syntaxError_error.mpr ⟨_, _, hformat, hraised⟩
    · rw [heq]
      constructor
      · rintro ⟨message, h⟩
        cases h
      · intro habort
        cases habort with
        | number htried _ => exact absurd htried (hnot _)
        | parser htried _ _ _ => exact absurd htried (hnot _)
  · rw [if_neg hpatch]
    constructor
    · rintro ⟨message, h⟩
      cases h
    · intro habort
      cases habort with
      | number htried _ => exact absurd htried.patch hpatch
      | parser htried _ _ _ => exact absurd htried.patch hpatch

theorem judged_iff {suggestions : List Suggestion} :
    (∃ verdicts, Judged env files suggestions verdicts)
      ↔ ∀ s ∈ suggestions, ¬ Aborts env files s := by
  induction suggestions with
  | nil => exact ⟨fun _ _ h => absurd h List.not_mem_nil, fun _ => ⟨[], .nil⟩⟩
  | cons s suggestions ih =>
      rw [List.forall_mem_cons, ← ih, ← judge_error]
      constructor
      · rintro ⟨verdicts, hjudged⟩
        cases hjudged with
        | @cons _ verdict _ verdicts hjudge hjudged =>
            refine ⟨?_, verdicts, hjudged⟩
            rintro ⟨message, herror⟩
            rw [hjudge] at herror
            cases herror
      · rintro ⟨hnot, verdicts, hjudged⟩
        cases hjudge : judge env files s with
        | error message => exact absurd ⟨message, hjudge⟩ hnot
        | ok verdict => exact ⟨verdict :: verdicts, .cons hjudge hjudged⟩

/-- **Verification returns, with its account, exactly if no suggestion aborts it.** -/
theorem verify_returns_iff (env : PatchEnvironment) (files : List (String × String))
    (diagnosis : Diagnosis) :
    (∃ result outcomes, verifyPatchSuggestions env diagnosis files = .ok (result, outcomes)
        ∧ Accounted diagnosis result outcomes)
      ↔ ∀ s ∈ diagnosis.suggestions, ¬ Aborts env files s := by
  rw [← judged_iff]
  constructor
  · rintro ⟨result, outcomes, h, _⟩
    obtain ⟨verdicts, hjudged, _⟩ := verifyPatchSuggestions_iff.mp h
    exact ⟨verdicts, hjudged⟩
  · rintro ⟨verdicts, hjudged⟩
    have hok := verifyPatchSuggestions_iff.mpr ⟨verdicts, hjudged, _, rfl, rfl, rfl⟩
    exact ⟨_, _, hok, accounted_of_judged hjudged rfl⟩

/-! ## A number with too many digits -/

/-- A hunk header for a line far behind the end of every file. -/
def farHeader (start : Nat) : List Char :=
  "@@ -".toList ++ formatRangeUnified start 1 ++ " +".toList ++ formatRangeUnified 0 1
    ++ " @@".toList

/-- A diff that adds a line there. -/
def farPatch (start : Nat) : String := String.ofList (farHeader start ++ '\n' :: "+x\n".toList)

theorem rawLines_farPatch (start : Nat) :
    rawLines (farPatch start).toList = [farHeader start ++ ['\n'], "+x\n".toList] := by
  have hheader : ∀ c ∈ farHeader start, isBreak c = false := by
    have hopen := @noBreak_of_any "@@ -".toList (by decide)
    have hplus := @noBreak_of_any " +".toList (by decide)
    have hclose := @noBreak_of_any " @@".toList (by decide)
    unfold farHeader
    simp only [List.forall_mem_append]
    exact ⟨⟨⟨⟨hopen, formatRangeUnified_noBreak start 1⟩, hplus⟩,
      formatRangeUnified_noBreak 0 1⟩, hclose⟩
  have hlast : rawLines "+x\n".toList = ["+x\n".toList] := by decide
  rw [farPatch, String.toList_ofList, rawLines_break hheader (by decide) _ fun rest h =>
    absurd h.1 (by decide), hlast]

theorem farHeader_cons (start : Nat) : ∃ rest, farHeader start = '@' :: rest := ⟨_, rfl⟩

/-- It passes all checks, and is applied. -/
theorem tried_farPatch {start : Nat} (hshort : (Nat.toDigits 10 (start + 1)).length ≤ 5000)
    {s : Suggestion} (hs : s ∈ (suggesting "a.txt" (farPatch start)).suggestions) :
    Tried asciiEnvironment [("a.txt", "b\n")] s "b\n" := by
  obtain rfl := List.mem_singleton.mp hs
  obtain ⟨rest, hrest⟩ := farHeader_cons start
  have hlines : splitlines (farPatch start).toList
      = [content (farHeader start ++ ['\n']), "+x".toList] := by
    rw [splitlines, rawLines_farPatch]
    rfl
  have hat : content (farHeader start ++ ['\n']) = '@' :: content (rest ++ ['\n']) := by
    rw [hrest, List.cons_append, content_cons (by decide)]
  rw [hat] at hlines
  have hscanned : scannedLines (farPatch start).toList
      = ['@' :: content (rest ++ ['\n']), "+x".toList] := by
    rw [scannedLines, hlines]
    rfl
  have hchanged : scannedChanged (farPatch start).toList = ["+x".toList] := by
    rw [scannedChanged, hscanned]
    rfl
  have hadded : scannedAdded (farPatch start).toList = ["x".toList] := by
    rw [scannedAdded, hscanned]
    rfl
  refine ⟨?_, by simp, ?_, ?_, ⟨?_, ?_⟩, ?_, rfl, ?_⟩
  · have hne : farPatch start ≠ "" := by
      intro hempty
      have htext := congrArg String.toList hempty
      rw [farPatch, String.toList_ofList, hrest] at htext
      cases htext
    simpa [hasPatch] using hne
  · show List.lookup "a.txt" [("a.txt", "b\n")] = some "b\n"
    decide
  · have hdigits : (formatRangeUnified start 1).length ≤ 5000 := by
      have htext : formatRangeUnified start 1 = Nat.toDigits 10 (start + 1) := Nat.toList_repr
      rw [htext]
      exact hshort
    show (farPatch start).toList.length ≤ 20000
    have hone : (formatRangeUnified 0 1).length = 1 := by decide
    rw [farPatch, String.toList_ofList, List.length_append, farHeader]
    simp only [List.length_append, hone]
    have hrest : ('\n' :: "+x\n".toList).length = 4 := by decide
    have hopen : ("@@ -".toList).length = 4 := by decide
    have hplus : (" +".toList).length = 2 := by decide
    have hclose : (" @@".toList).length = 3 := by decide
    omega
  · show scannedChanged (farPatch start).toList ≠ []
    rw [hchanged]
    exact List.cons_ne_nil _ _
  · show (scannedChanged (farPatch start).toList).length ≤ maxChangedLines
    rw [hchanged]
    decide
  · show ∀ line ∈ (splitlines (farPatch start).toList).filter isFileHeader, _
    rw [hlines]
    exact fun line hline => absurd hline List.not_mem_nil
  · show policyViolation asciiEnvironment.unicode _ (farPatch start).toList = none
    unfold policyViolation
    have hnone : firstMatch (forbiddenAdditions asciiEnvironment.unicode) ["x".toList] = none := by
      decide +kernel
    rw [if_neg (by rintro ⟨h, _⟩; cases h), hadded, hnone]
    show (if startsWith workflowPrefix "a.txt".toList = true then _ else none) = none
    exact if_neg (by decide)

theorem long_farPatch {start : Nat} (hlong : 4300 < (Nat.toDigits 10 (start + 1)).length) :
    HasLongNumber asciiEnvironment.unicode (farPatch start).toList := by
  have hstay : stripNewline (farHeader start ++ ['\n']) = farHeader start := by
    have hback : farHeader start = "@@ -".toList ++ formatRangeUnified start 1 ++ " +".toList
        ++ formatRangeUnified 0 1 ++ " @".toList ++ ['@'] := by
      simp [farHeader]
    unfold stripNewline
    rw [List.rdropWhile_concat_pos _ _ _ (by decide), hback]
    exact List.rdropWhile_concat_neg _ _ _ (by decide)
  refine ⟨[], farHeader start ++ ['\n'], ["+x\n".toList], rawLines_farPatch start, ⟨[], rfl⟩,
    Nat.toDigits 10 (start + 1), ?_, hlong⟩
  rw [hstay]
  exact matchHunkHeader_render asciiDigits_ascii start 1 0 1

theorem length_toDigits_pow {n a b : Nat} (hn : n = (10 ^ a) ^ b) (hpos : 0 < a * b) :
    (Nat.toDigits 10 (n + 1)).length = a * b + 1 := by
  rw [hn, ← Nat.pow_mul]
  generalize a * b = k at hpos
  have hbig : 10 ^ 1 ≤ 10 ^ k := Nat.pow_le_pow_right (by decide) hpos
  refine Nat.le_antisymm ?_ (Nat.lt_of_not_le fun hle => ?_)
  · refine (Nat.length_toDigits_le_iff (by decide) (Nat.succ_pos k)).mpr ?_
    rw [Nat.pow_succ]
    omega
  · have hlt := (Nat.length_toDigits_le_iff (b := 10) (by decide) hpos).mp hle
    omega

theorem farPatch_raises {start : Nat} (hlength : (Nat.toDigits 10 (start + 1)).length = 4301) :
    ∃ message, verifyPatchSuggestions asciiEnvironment (suggesting "a.txt" (farPatch start))
      [("a.txt", "b\n")] = .error message := by
  cases hverify : verifyPatchSuggestions asciiEnvironment (suggesting "a.txt" (farPatch start))
      [("a.txt", "b\n")] with
  | error message => exact ⟨message, rfl⟩
  | ok result =>
      obtain ⟨verdicts, hjudged, _⟩ := verifyPatchSuggestions_iff.mp hverify
      have hs : { description := "d", file := some "a.txt", patch := some (farPatch start)
                  source := some .llm }
          ∈ (suggesting "a.txt" (farPatch start)).suggestions := List.mem_singleton.mpr rfl
      have htried := tried_farPatch (by omega) hs
      have hlong := @long_farPatch start (by omega)
      exact absurd (.number htried hlong) (judged_iff.mp ⟨verdicts, hjudged⟩ _ hs)

/-- A number with 4301 digits. -/
def farLine : Nat := (10 ^ 100) ^ 43

/-- **A patch of the model raises**: the verification ends with the `ValueError` of `int`. -/
theorem long_number_raises :
    ∃ message, verifyPatchSuggestions asciiEnvironment (suggesting "a.txt" (farPatch farLine))
      [("a.txt", "b\n")] = .error message :=
  farPatch_raises (length_toDigits_pow farLine.eq_1 (by decide))

end PipeLens.Proof
