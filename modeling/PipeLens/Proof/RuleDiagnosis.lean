import PipeLens.Classifier
import PipeLens.Lib.Lines
import PipeLens.Proof.ErrorContext

/-!
# Diagnoses by rules

The diagnosis that is built from a classification quotes one line of the log. That line
is there verbatim, whichever way it was chosen: it is a line without the white space
around it, and lines come from the log as they are. So `validate_diagnosis` has nothing
to object to.

Lines are looked through from the first one on, so that what follows the first line
that matches a rule does not count.
-/

namespace PipeLens.Proof

open Text

variable {unicode : Unicode}

/-! ## Lines of the log -/

theorem strip_within (line : List Char) : strip line <:+: line := by
  unfold strip
  exact (List.rdropWhile_prefix _ _).isInfix.trans (List.dropWhile_suffix _).isInfix

theorem splitlines_within {text line : List Char} (h : line ∈ splitlines text) : line <:+: text := by
  obtain ⟨start, rest, heq, _, _⟩ := line_in_text h
  exact ⟨start, rest, heq.symm⟩

theorem strippedLines_infix {log line : List Char} (h : line ∈ strippedLines log) :
    line <:+: log := by
  obtain ⟨hmem, _⟩ := List.mem_filter.mp h
  obtain ⟨whole, hwhole, rfl⟩ := List.mem_map.mp hmem
  exact (strip_within whole).trans (splitlines_within hwhole)

theorem strippedLines_append {log : List Char} (h : log.getLast? = some '\n') (more : List Char) :
    strippedLines (log ++ more) = strippedLines log ++ strippedLines more := by
  unfold strippedLines splitlines
  rw [rawLines_append_of_newline h, List.map_append, List.map_append, List.filter_append]

/-! ## The line of a classification -/

theorem firstRuleMatch_mem {lines : List (List Char)} {line : List Char} {rule : DetectionRule}
    (h : firstRuleMatch unicode lines = some (line, rule)) : line ∈ lines := by
  induction lines with
  | nil => exact nomatch h
  | cons first lines ih =>
      rw [firstRuleMatch] at h
      split at h
      · exact List.mem_cons_of_mem first (ih h)
      · obtain ⟨rfl, _⟩ := Prod.mk.inj (Option.some.inj h)
        exact List.mem_cons_self

/-- What comes after the first match does not count. -/
theorem firstRuleMatch_append {lines : List (List Char)}
    (h : ∃ line ∈ lines, ∃ rule ∈ rules unicode, rule.matches line = true)
    (more : List (List Char)) :
    ∃ found, firstRuleMatch unicode lines = some found
      ∧ firstRuleMatch unicode (lines ++ more) = some found := by
  induction lines with
  | nil =>
      obtain ⟨line, hline, _⟩ := h
      exact absurd hline List.not_mem_nil
  | cons first lines ih =>
      rw [List.cons_append, firstRuleMatch, firstRuleMatch]
      cases hmatching : (rules unicode).filter fun rule => rule.matches first with
      | cons rule others => exact ⟨_, rfl, rfl⟩
      | nil =>
          refine ih ?_
          obtain ⟨line, hline, rule, hrule, hmatch⟩ := h
          rcases List.mem_cons.mp hline with rfl | hline
          · have hkept : rule ∈ (rules unicode).filter fun rule => rule.matches line :=
              List.mem_filter.mpr ⟨hrule, hmatch⟩
            rw [hmatching] at hkept
            exact absurd hkept List.not_mem_nil
          · exact ⟨line, hline, rule, hrule, hmatch⟩

/-- The reported line is one of the log, on each of the three ways to it. -/
theorem firstError_mem {log : String} (hsome : strippedLines log.toList ≠ [])
    (relatedStep : Option String) :
    (classifyLog unicode log relatedStep).firstError.toList ∈ strippedLines log.toList := by
  unfold classifyLog
  dsimp only
  cases hmatch : firstRuleMatch unicode (strippedLines log.toList) with
  | some found =>
      obtain ⟨line, rule⟩ := found
      show (String.ofList line).toList ∈ _
      rw [String.toList_ofList]
      exact firstRuleMatch_mem hmatch
  | none =>
      dsimp only
      cases herror : (strippedLines log.toList).find? fun line => errorLine.search line with
      | some line =>
          dsimp only
          rw [String.toList_ofList]
          exact List.mem_of_find?_eq_some herror
      | none =>
          cases hlines : strippedLines log.toList with
          | nil => exact absurd hlines hsome
          | cons line lines =>
              dsimp only
              rw [String.toList_ofList]
              exact List.mem_cons_self

/-! ## The diagnosis -/

/-- A diagnosis whose evidence is all found stays as it is, but for its suggestions. -/
theorem validateDiagnosis_eq {diagnosis : Diagnosis} {log : String}
    (hsome : diagnosis.evidence ≠ [])
    (hfound : ∀ evidence ∈ diagnosis.evidence, isIn evidence.content log = true)
    (repositoryFiles : Option (List String)) :
    validateDiagnosis diagnosis log repositoryFiles
      = { diagnosis with
          suggestions := diagnosis.suggestions.filter fun s =>
            match s.file with
            | none => true
            | some file => file == "" || repositoryFiles.any fun files => files.contains file } := by
  have hall : (diagnosis.evidence.filter fun e => e.source != "log" || isIn e.content log)
      = diagnosis.evidence := by
    refine List.filter_eq_self.mpr ?_
    intro evidence hevidence
    rw [hfound evidence hevidence, Bool.or_true]
  have hkept : diagnosis.evidence.isEmpty = false := by
    rw [Bool.eq_false_iff]
    intro hempty
    exact hsome (List.isEmpty_iff.mp hempty)
  unfold validateDiagnosis
  rw [hall]
  dsimp only
  rw [hkept]
  rfl

/-- **The diagnosis by rules is grounded.** Validation keeps its evidence, its cause and its
confidence, and it finds no conflict, for every log that is not blank; and once a line of
the log matches a rule, the classification does not depend on what follows. -/
theorem rule_diagnosis_grounded (unicode : Unicode) :
    (∀ (context : String) (relatedStep : Option String)
        (repositoryFiles : Option (List String)),
      (∃ line ∈ splitlines context.toList, strip line ≠ []) →
        let diagnosis := buildRuleBasedDiagnosis (classifyLog unicode context relatedStep)
        let checked := validateDiagnosis diagnosis context repositoryFiles
        diagnosis.evidence.length = 1 ∧ checked.evidence = diagnosis.evidence
          ∧ checked.rootCause = diagnosis.rootCause ∧ checked.confidence = diagnosis.confidence
          ∧ checked.conflicts = diagnosis.conflicts)
    ∧ ∀ (context more : String) (relatedStep : Option String),
        context.toList.getLast? = some '\n' →
        (∃ line ∈ strippedLines context.toList, ∃ rule ∈ rules unicode,
          rule.matches line = true) →
        classifyLog unicode (context ++ more) relatedStep
          = classifyLog unicode context relatedStep := by
  refine ⟨?_, ?_⟩
  · intro context relatedStep repositoryFiles hsome
    have hlines : strippedLines context.toList ≠ [] := by
      obtain ⟨line, hline, hne⟩ := hsome
      have hmem : strip line ∈ strippedLines context.toList :=
        List.mem_filter.mpr ⟨List.mem_map_of_mem hline, decide_eq_true hne⟩
      exact List.ne_nil_of_mem hmem
    have hquoted : isIn (classifyLog unicode context relatedStep).firstError context = true := by
      rw [isIn_iff_isInfixOf]
      exact strippedLines_infix (firstError_mem hlines relatedStep)
    dsimp only
    rw [validateDiagnosis_eq (List.cons_ne_nil _ _)]
    · exact ⟨rfl, rfl, rfl, rfl, rfl⟩
    · intro evidence hevidence
      rw [List.mem_singleton.mp hevidence]
      exact hquoted
  · intro context more relatedStep hnewline hmatch
    obtain ⟨found, hfound, hmore⟩ :=
      firstRuleMatch_append hmatch (strippedLines more.toList)
    rw [← strippedLines_append hnewline] at hmore
    unfold classifyLog
    dsimp only
    rw [String.toList_append, hfound, hmore]

theorem rule_diagnosis_grounded_install :
    (let context := "  npm ERR! code 1\n"
      let diagnosis := buildRuleBasedDiagnosis (classifyLog asciiTables context (some "install"))
      let checked := validateDiagnosis diagnosis context none
      diagnosis.evidence.length = 1 ∧ checked.evidence = diagnosis.evidence
        ∧ checked.rootCause = diagnosis.rootCause ∧ checked.confidence = diagnosis.confidence
        ∧ checked.conflicts = diagnosis.conflicts)
    ∧ classifyLog asciiTables ("  npm ERR! code 1\n" ++ "exit code 137") (some "install")
        = classifyLog asciiTables "  npm ERR! code 1\n" (some "install") := by
  refine ⟨?_, ?_⟩
  · exact (rule_diagnosis_grounded asciiTables).1 _ _ _ ⟨"  npm ERR! code 1".toList, by decide,
      by decide⟩
  · refine (rule_diagnosis_grounded asciiTables).2 _ _ _ (by decide)
      ⟨"npm ERR! code 1".toList, by decide, ?_⟩
    exact ⟨(rules asciiTables)[8], List.getElem_mem _, by decide⟩

end PipeLens.Proof
