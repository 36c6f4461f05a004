import PipeLens.Proof.RulePatch
import PipeLens.Proof.Untrusted

/-!
# What is accepted from the language model

`validate_llm_analysis` drops evidence that it cannot find and suggestions for other files, and
raises if no evidence is left. A quotation from a diff is looked for in the excerpts of all
related files put together, so that it may begin in one and end in another.

The category is compared with that of the rules. A difference is noted, and the lower of the two
confidences is taken. The diagnosis that `DIAGNOSING` hands on is still the model's.
-/

namespace PipeLens

/-- The artifacts that a source stands for. -/
def EvidenceSource.artifacts (context : LLMContext) : EvidenceSource → List String
  | .log => [context.log]
  | .workflow => context.workflowContent.toList
  | .diff => context.relatedFiles.filterMap RelatedFile.patchExcerpt

/-- Runs what the proposals raise into the text of the exception. -/
def proposals (env : PatchEnvironment) (sameLetter : Char → Char → Bool) (difflib : Difflib)
    (text : ProposalError → String) (diagnosis : Diagnosis) (bumps : List VersionBump)
    (files : List (String × String)) : Except String Diagnosis :=
  match proposeAndVerifyPatches env sameLetter difflib diagnosis bumps files with
  | .error exc => .error (text exc)
  | .ok (result, _) => .ok result

namespace Proof

open Program AnalysisPipeline

/-! ## Quotations -/

/-- The text is quoted from a single artifact. -/
def Quoted (context : LLMContext) (source : EvidenceSource) (content : String) : Prop :=
  content ≠ "" ∧ ∃ text ∈ source.artifacts context, isIn content text = true

/-- What a diagnosis of the model has to be. -/
structure Grounded (context : LLMContext) (diagnosis : Diagnosis) : Prop where
  nonempty : diagnosis.evidence ≠ []
  quoted : ∀ e ∈ diagnosis.evidence, ∃ source : EvidenceSource,
    e.source = source.value ∧ Quoted context source e.content
  files : ∀ s ∈ diagnosis.suggestions, ∀ file, s.file = some file →
    file ∈ context.relatedFiles.map RelatedFile.filename ∨ context.workflowPath = some file

/-- The check of one item of evidence. -/
def isFound (context : LLMContext) (item : LLMEvidence) : Bool :=
  item.content != "" && isIn item.content (evidenceSourceText item.source context)

/-- A quotation from a diff that is found in all excerpts together, but in none of them. -/
def Straddles (context : LLMContext) (item : LLMEvidence) : Prop :=
  item.source = .diff ∧ isFound context item = true
    ∧ ∀ excerpt ∈ EvidenceSource.artifacts context .diff, isIn item.content excerpt = false

/-- What is in an empty text is empty. -/
theorem isIn_empty {content : String} (h : isIn content "" = true) : content = "" := by
  unfold isIn at h
  have hprefix : content.toList <+: [] := by
    simpa using h
  have hnil : content.toList = [] := List.prefix_nil.mp hprefix
  exact String.toList_eq_nil_iff.mp hnil

/-- Found evidence that does not straddle is quoted. -/
theorem quoted_of_found {context : LLMContext} {item : LLMEvidence} (h : isFound context item = true)
    (hwhole : ¬ Straddles context item) : Quoted context item.source item.content := by
  obtain ⟨hcontent, hin⟩ := Bool.and_eq_true_iff.mp h
  have hne : item.content ≠ "" := bne_iff_ne.mp hcontent
  refine ⟨hne, ?_⟩
  cases hsource : item.source with
  | log =>
      rw [hsource] at hin
      exact ⟨context.log, List.mem_singleton.mpr rfl, hin⟩
  | workflow =>
      rw [hsource] at hin
      cases hworkflow : context.workflowContent with
      | none =>
          rw [evidenceSourceText, hworkflow] at hin
          exact absurd (isIn_empty hin) hne
      | some text =>
          rw [evidenceSourceText, hworkflow] at hin
          refine ⟨text, ?_, hin⟩
          rw [EvidenceSource.artifacts, hworkflow]
          exact List.mem_singleton.mpr rfl
  | diff =>
      by_contra hnone
      refine hwhole ⟨hsource, h, fun excerpt hexcerpt => ?_⟩
      refine Bool.eq_false_iff.mpr fun hquoted => hnone ⟨excerpt, hexcerpt, hquoted⟩

theorem EvidenceSource.value_injective {s t : EvidenceSource} (h : s.value = t.value) : s = t := by
  cases s <;> cases t <;> first | rfl | exact absurd h (by decide)

/-- What `validate_llm_analysis` returns. -/
theorem validate_eq_ok_iff {analysis : LLMAnalysis} {context : LLMContext} :
    (∃ diagnosis, validateLlmAnalysis analysis context = .ok diagnosis)
      ↔ analysis.evidence.filter (isFound context) ≠ [] := by
  unfold validateLlmAnalysis
  dsimp only
  split
  · rename_i hempty
    refine iff_of_false ?_ fun hne => hne (List.isEmpty_iff.mp hempty)
    rintro ⟨diagnosis, h⟩
    cases h
  · rename_i hempty
    refine iff_of_true ⟨_, rfl⟩ fun hnil => hempty (List.isEmpty_iff.mpr hnil)

/-- The parts of an accepted diagnosis. -/
structure Accepts (analysis : LLMAnalysis) (context : LLMContext) (diagnosis : Diagnosis) :
    Prop where
  evidence : diagnosis.evidence = (analysis.evidence.filter (isFound context)).map fun item =>
    { source := item.source.value, content := item.content, location := item.location }
  found : analysis.evidence.filter (isFound context) ≠ []
  files : ∀ s ∈ diagnosis.suggestions, ∀ file, s.file = some file →
    file ∈ context.relatedFiles.map RelatedFile.filename ∨ context.workflowPath = some file
  conflicts : diagnosis.conflicts =
    if analysis.category != context.classification.category then
      ["규칙 기반 분류 (" ++ context.classification.category.value ++ ")와 LLM 분류 (" ++
        analysis.category.value ++ ")가 다릅니다."]
    else []

theorem accepts_of_ok {analysis : LLMAnalysis} {context : LLMContext} {diagnosis : Diagnosis}
    (h : validateLlmAnalysis analysis context = .ok diagnosis) :
    Accepts analysis context diagnosis := by
  have hfound := validate_eq_ok_iff.mp ⟨diagnosis, h⟩
  unfold validateLlmAnalysis at h
  dsimp only at h
  split at h
  · cases h
  have hdiagnosis := (Except.ok.inj h).symm
  refine ⟨?_, hfound, ?_, ?_⟩
  · rw [hdiagnosis]
    rfl
  · rw [hdiagnosis]
    intro s hs file hfile
    obtain ⟨item, hitem, rfl⟩ := List.mem_map.mp hs
    have hallowed := (List.mem_filter.mp hitem).2
    rw [show item.file = some file from hfile, Option.all_some, List.contains_iff_mem,
      List.mem_append] at hallowed
    rcases hallowed with hrelated | hworkflow
    · exact Or.inl hrelated
    · exact Or.inr (Option.mem_toList.mp (List.mem_filter.mp hworkflow).1)
  · rw [hdiagnosis]

/-- **What is accepted is grounded** exactly if no quotation straddles two excerpts. -/
theorem grounded_iff_no_straddle {analysis : LLMAnalysis} {context : LLMContext} :
    (∀ diagnosis, validateLlmAnalysis analysis context = .ok diagnosis →
        Grounded context diagnosis)
      ↔ ∀ item ∈ analysis.evidence, ¬ Straddles context item := by
  constructor
  · intro hall item hitem hstraddles
    obtain ⟨hsource, hfound, hnone⟩ := hstraddles
    have hkept : item ∈ analysis.evidence.filter (isFound context) :=
      List.mem_filter.mpr ⟨hitem, hfound⟩
    obtain ⟨diagnosis, hok⟩ := validate_eq_ok_iff.mpr (List.ne_nil_of_mem hkept)
    obtain ⟨source, hvalue, _, excerpt, hexcerpt, hin⟩ := (hall diagnosis hok).quoted
      { source := item.source.value, content := item.content, location := item.location } (by
        rw [(accepts_of_ok hok).evidence]
        exact List.mem_map_of_mem hkept)
    have hdiff : source = .diff := by
      rw [← EvidenceSource.value_injective hvalue, hsource]
    rw [hdiff] at hexcerpt
    rw [hnone excerpt hexcerpt] at hin
    cases hin
  · intro hwhole diagnosis hok
    have haccepts := accepts_of_ok hok
    refine ⟨?_, ?_, haccepts.files⟩
    · rw [haccepts.evidence]
      exact fun hnil => haccepts.found (List.map_eq_nil_iff.mp hnil)
    · rw [haccepts.evidence]
      intro e he
      obtain ⟨item, hitem, rfl⟩ := List.mem_map.mp he
      obtain ⟨hmem, hfound⟩ := List.mem_filter.mp hitem
      exact ⟨item.source, rfl, quoted_of_found hfound (hwhole item hmem)⟩

/-! ## What is stored -/

/-- The same but for suggestions and notes. -/
structure SameCore (diagnosis result : Diagnosis) : Prop where
  summary : result.summary = diagnosis.summary
  rootCause : result.rootCause = diagnosis.rootCause
  confidence : result.confidence = diagnosis.confidence
  evidence : result.evidence = diagnosis.evidence
  conflicts : result.conflicts = diagnosis.conflicts

theorem SameCore.refl (diagnosis : Diagnosis) : SameCore diagnosis diagnosis :=
  ⟨rfl, rfl, rfl, rfl, rfl⟩

/-- The diagnosis of the rules, with whatever suggestions and notes. -/
def RuleBased (classification : Classification) (log : String) (files : List String)
    (diagnosis : Diagnosis) : Prop :=
  SameCore (validateDiagnosis (buildRuleBasedDiagnosis classification) log (some files)) diagnosis

/-- Proposals are about suggestions and notes only. -/
theorem proposals_core {env : PatchEnvironment} {sameLetter : Char → Char → Bool}
    {difflib : Difflib} {text : ProposalError → String} {diagnosis result : Diagnosis}
    {bumps : List VersionBump} {files : List (String × String)}
    (h : proposals env sameLetter difflib text diagnosis bumps files = .ok result) :
    SameCore diagnosis result := by
  unfold proposals at h
  split at h
  · cases h
  · rename_i result' outcomes hresult
    cases h
    obtain ⟨p, _, hverify⟩ := proposeAndVerify_cases hresult
    obtain ⟨_, _, v, _, rfl, _⟩ := verifyPatchSuggestions_iff.mp hverify
    exact ⟨rfl, rfl, rfl, rfl, rfl⟩

section Diagnosing

variable {pipeline : AnalysisPipeline} {request : AnalysisRequest}

theorem makes_attach
    (hcore : ∀ diagnosis bumps files result,
      pipeline.functions.proposeAndVerifyPatches diagnosis bumps files = .ok result →
        SameCore diagnosis result)
    (accessToken : String) (diagnosis : Diagnosis) (log : String) (relatedFiles : List RelatedFile)
    (context : RepositoryContext) :
    Makes (fun _ => True)
      (pipeline.attachVerifiedPatches request accessToken diagnosis log relatedFiles context)
      (SameCore diagnosis) := by
  unfold attachVerifiedPatches
  refine Makes.bind (makes_yielding _ _) fun bumps _ => ?_
  dsimp only
  split
  · exact Makes.pure (SameCore.refl diagnosis)
  · refine Makes.bind (makes_yielding _ _) fun manifests _ => ?_
    refine Makes.bind (Q := fun _ => True) ?_ fun fetched _ => ?_
    · unfold fetchTargets
      split
      · exact Makes.pure trivial
      · exact (makes_rescued trivial _ _ []).mono fun _ _ => trivial
    · exact (makes_yielding _ _).mono fun result hresult => hcore _ _ _ _ hresult

/-- The diagnosis of the model, or the fallback with a note. -/
def adopted (analysis : LLMAnalysis) (context : LLMContext) (fallback : Diagnosis) : Diagnosis :=
  match validateLlmAnalysis analysis context with
  | .ok diagnosis => diagnosis
  | .error _ => addNote fallback "LLM 분석에 실패하여 규칙 기반 진단 결과를 제공했습니다."

theorem makes_llmDiagnosis {provider : LLMProvider} {analysis : LLMAnalysis} {context : LLMContext}
    (hanswer : provider.analyze context = .ok analysis) (fallback : Diagnosis) :
    Makes (fun _ => True) (llmDiagnosis provider context fallback) fun diagnosis =>
      diagnosis = adopted analysis context fallback := by
  intro base s hs
  unfold llmDiagnosis adopted
  have hbody : exec (do
      let analysis ← calling .llmProvider (.llmAnalyze context) (.ok analysis)
      yielding .llmValidation (validateLlmAnalysis analysis context)) s
      = exec (yielding .llmValidation (validateLlmAnalysis analysis context))
        { s with calls := s.calls ++ [.llmAnalyze context] } := rfl
  rw [exec_tryCatch, hanswer, hbody]
  cases validateLlmAnalysis analysis context with
  | ok diagnosis => exact ⟨hs.snoc trivial _ _, rfl⟩
  | error message => exact ⟨hs.snoc trivial _ _, rfl⟩

theorem SameCore.relatedNote {diagnosis result : Diagnosis} (h : SameCore diagnosis result)
    (relatedFiles : List RelatedFile) :
    SameCore diagnosis (relatedNote relatedFiles result) := by
  unfold AnalysisPipeline.relatedNote
  split
  · exact ⟨h.summary, h.rootCause, h.confidence, h.evidence, h.conflicts⟩
  · exact h

/-- The context that the model is asked with, and its answer. -/
structure Asked (pipeline : AnalysisPipeline) (context : LLMContext) (analysis : LLMAnalysis) :
    Prop where
  provider : ∃ provider, pipeline.llmProvider = some provider
    ∧ provider.analyze context = .ok analysis

/-- **What a trusted run goes on with**: the model's diagnosis if it was accepted. -/
theorem core_of_diagnose
    (hcore : ∀ diagnosis bumps files result,
      pipeline.functions.proposeAndVerifyPatches diagnosis bumps files = .ok result →
        SameCore diagnosis result)
    {collected : Collected} {sanitized : Sanitized} {classification : Classification}
    {relatedFiles : List RelatedFile} {analysis : LLMAnalysis}
    (htrusted : collected.repositoryContext.trustLevel = .trusted)
    (hasked : Asked pipeline (llmContext collected sanitized classification relatedFiles) analysis)
    {s s' : AnalysisState} {diagnosed : Diagnosed}
    (hrun : exec (pipeline.diagnose request collected sanitized classification relatedFiles) s
      = (.ok diagnosed, s')) :
    SameCore (adopted analysis (llmContext collected sanitized classification relatedFiles)
      (validateDiagnosis (buildRuleBasedDiagnosis classification) sanitized.context
        (some (repositoryFiles collected.repositoryContext)))) diagnosed.diagnosis := by
  obtain ⟨provider, hprovider, hanswer⟩ := hasked.provider
  have hmakes : Makes (fun _ => True)
      (pipeline.diagnose request collected sanitized classification relatedFiles)
      fun diagnosed => SameCore (adopted analysis
        (llmContext collected sanitized classification relatedFiles)
        (validateDiagnosis (buildRuleBasedDiagnosis classification) sanitized.context
          (some (repositoryFiles collected.repositoryContext)))) diagnosed.diagnosis := by
    unfold diagnose
    dsimp only
    rw [if_pos htrusted, htrusted]
    unfold modelDiagnosis
    rw [hprovider]
    refine Makes.bind (Q := fun diagnosed => diagnosed.diagnosis = adopted analysis
      (llmContext collected sanitized classification relatedFiles)
      (validateDiagnosis (buildRuleBasedDiagnosis classification) sanitized.context
        (some (repositoryFiles collected.repositoryContext)))) ?_ fun diagnosed hdiagnosed => ?_
    · exact Makes.bind (makes_llmDiagnosis hanswer _) fun diagnosis hdiagnosis =>
        Makes.pure hdiagnosis
    · rw [← hdiagnosed]
      exact Makes.bind (makes_attach hcore _ _ _ _ _) fun result hresult =>
        Makes.pure (hresult.relatedNote relatedFiles)
  have hreturns := hmakes.returns s trivial
  rw [hrun] at hreturns
  exact hreturns

end Diagnosing

/-- The rules do not report a conflict with themselves. -/
theorem conflict_not_ruleBased {analysis : LLMAnalysis} {context : LLMContext}
    {diagnosis result : Diagnosis} {log : String} {files : List String}
    (haccepts : Accepts analysis context diagnosis)
    (hconflict : analysis.category ≠ context.classification.category)
    (hcore : SameCore diagnosis result) : ¬ RuleBased context.classification log files result := by
  intro hrules
  have hmodel : result.conflicts = ["규칙 기반 분류 (" ++ context.classification.category.value
      ++ ")와 LLM 분류 (" ++ analysis.category.value ++ ")가 다릅니다."] := by
    rw [hcore.conflicts, haccepts.conflicts, if_pos (bne_iff_ne.mpr hconflict)]
  have hnone : result.conflicts = []
      ∨ result.conflicts = ["분석 결과가 입력 로그에서 확인할 수 없는 근거를 인용했습니다."] := by
    rw [hrules.conflicts]
    unfold validateDiagnosis
    dsimp only
    split
    · exact Or.inr rfl
    · exact Or.inl rfl
  rcases hnone with hnone | hnone
  · rw [hmodel] at hnone
    cases hnone
  · rw [hmodel] at hnone
    have htext := congrArg String.toList (List.cons.inj hnone).1
    simp only [String.toList_append, List.append_assoc] at htext
    exact absurd (List.cons.inj htext).1 (by decide)

/-- **A diagnosis of the model is grounded, and defers to the rules**, exactly under these
conditions: no quotation straddles two excerpts; and either the categories agree, or nothing
that the model quotes is found. -/
theorem llm_diagnosis_accepted_iff (env : PatchEnvironment) (sameLetter : Char → Char → Bool)
    (difflib : Difflib) (text : ProposalError → String) :
    (∀ (analysis : LLMAnalysis) (context : LLMContext),
      (∀ diagnosis, validateLlmAnalysis analysis context = .ok diagnosis →
          Grounded context diagnosis)
        ↔ ∀ item ∈ analysis.evidence, ¬ Straddles context item)
    ∧ ∀ (pipeline : AnalysisPipeline) (request : AnalysisRequest) (collected : Collected)
        (sanitized : Sanitized) (classification : Classification)
        (relatedFiles : List RelatedFile) (analysis : LLMAnalysis) (s s' : AnalysisState)
        (diagnosed : Diagnosed),
      pipeline.functions.proposeAndVerifyPatches = proposals env sameLetter difflib text →
      collected.repositoryContext.trustLevel = .trusted →
      Asked pipeline (llmContext collected sanitized classification relatedFiles) analysis →
      exec (pipeline.diagnose request collected sanitized classification relatedFiles) s
        = (.ok diagnosed, s') →
      ((analysis.category ≠ classification.category →
          RuleBased classification sanitized.context (repositoryFiles collected.repositoryContext)
            diagnosed.diagnosis)
        ↔ analysis.category = classification.category
          ∨ ∀ item ∈ analysis.evidence,
            isFound (llmContext collected sanitized classification relatedFiles) item = false) := by
  refine ⟨fun analysis context => grounded_iff_no_straddle, ?_⟩
  intro pipeline request collected sanitized classification relatedFiles analysis s s' diagnosed
    hfunctions htrusted hasked hrun
  have hcore := core_of_diagnose (fun diagnosis bumps files result hresult =>
    proposals_core (by rw [← hfunctions]; exact hresult)) htrusted hasked hrun
  unfold adopted at hcore
  cases hvalidate : validateLlmAnalysis analysis
      (llmContext collected sanitized classification relatedFiles) with
  | ok diagnosis =>
      rw [hvalidate] at hcore
      have haccepts := accepts_of_ok hvalidate
      constructor
      · intro hrules
        refine Or.inl ?_
        by_contra hconflict
        exact conflict_not_ruleBased haccepts hconflict hcore (hrules hconflict)
      · rintro (hsame | hnone)
        · exact fun hconflict => absurd hsame hconflict
        · refine absurd (List.filter_eq_nil_iff.mpr fun item hitem => ?_) haccepts.found
          exact Bool.eq_false_iff.mp (hnone item hitem)
  | error message =>
      rw [hvalidate] at hcore
      refine iff_of_true (fun _ => ?_) (Or.inr fun item hitem => ?_)
      · exact ⟨hcore.summary, hcore.rootCause, hcore.confidence, hcore.evidence, hcore.conflicts⟩
      · refine Bool.eq_false_iff.mpr fun hfound => ?_
        obtain ⟨diagnosis, hok⟩ := validate_eq_ok_iff.mpr
          (List.ne_nil_of_mem (List.mem_filter.mpr ⟨hitem, hfound⟩))
        rw [hvalidate] at hok
        cases hok

/-- An answer that calls a failed test a failed build. -/
def buildAnalysis : LLMAnalysis where
  category := .build
  summary := "s"
  rootCause := "r"
  confidence := 1 / 2
  evidence := [{ source := .log, content := "assert", location := none }]
  suggestions := []

/-- A pipeline whose model gives that answer. -/
def answeredPipeline : AnalysisPipeline :=
  { troubledPipeline with
    llmProvider := some { modelName := "model", analyze := fun _ => .ok buildAnalysis }
    functions :=
      { troubledPipeline.functions with
        proposeAndVerifyPatches := proposals asciiEnvironment foldLetter replaceAll fun _ => "" } }

def testCollected : Collected := ⟨"token", [], [], { trustLevel := .trusted }⟩

def testSanitized : Sanitized := ⟨{}, "E assert 1 == 2", [], ""⟩

def testClassification : Classification :=
  { category := .test, confidence := 9 / 10, firstError := "E assert 1 == 2" }

/-- The diagnosis of that run. -/
def builtDiagnosis : Diagnosis where
  summary := "s"
  rootCause := "r"
  confidence := 1 / 2
  evidence := [{ source := "log", content := "assert" }]
  conflicts := ["규칙 기반 분류 (test_failure)와 LLM 분류 (build_failure)가 다릅니다."]
  notes := ["로그와 직접 연결되는 변경 파일을 찾지 못했습니다."]

theorem diagnose_answered :
    exec (answeredPipeline.diagnose waitingRequest testCollected testSanitized testClassification [])
      waitingState
      = (.ok ⟨builtDiagnosis, some "model", some PipeLens.promptVersion⟩,
        { waitingState with calls :=
          [.llmAnalyze (llmContext testCollected testSanitized testClassification [])] }) := by
  have hbuilt : builtDiagnosis = relatedNote [] (adopted buildAnalysis
      (llmContext testCollected testSanitized testClassification []) builtDiagnosis) := by
    decide +kernel
  rw [hbuilt]
  rfl

theorem llm_diagnosis_accepted_build :
    ¬ (ErrorCategory.build ≠ .test → RuleBased testClassification "E assert 1 == 2" []
      builtDiagnosis) := by
  have hiff := (llm_diagnosis_accepted_iff asciiEnvironment foldLetter replaceAll fun _ => "").2
    answeredPipeline waitingRequest testCollected testSanitized testClassification [] buildAnalysis
    waitingState _ _ rfl rfl ⟨_, rfl, rfl⟩ diagnose_answered
  refine fun hrules => absurd (hiff.mp hrules) ?_
  decide +kernel

/-- Two files, and a quotation that begins in one and ends in the other. -/
def twoFiles : LLMContext where
  classification := testClassification
  log := ""
  relatedFiles :=
    [{ filename := "a.py", score := 1, reasons := [], patchExcerpt := some "+x = 1" },
      { filename := "b.py", score := 1, reasons := [], patchExcerpt := some "-y = 2" }]

def straddlingAnalysis : LLMAnalysis :=
  { buildAnalysis with
    category := .test
    evidence := [{ source := .diff, content := "x = 1\n-y", location := none }] }

/-- **What gets through**: the quotation across two files is accepted, and the run above hands on
a diagnosis whose category the rules contradict. -/
theorem straddling_and_conflicting :
    (¬ ∀ diagnosis, validateLlmAnalysis straddlingAnalysis twoFiles = .ok diagnosis →
        Grounded twoFiles diagnosis)
      ∧ (∃ s', exec (answeredPipeline.diagnose waitingRequest testCollected testSanitized
          testClassification []) waitingState
            = (.ok ⟨builtDiagnosis, some "model", some PipeLens.promptVersion⟩, s'))
      ∧ buildAnalysis.category ≠ testClassification.category
      ∧ ¬ RuleBased testClassification "E assert 1 == 2" [] builtDiagnosis := by
  refine ⟨fun hall => ?_, ⟨_, diagnose_answered⟩, by decide, fun hrules => ?_⟩
  · refine grounded_iff_no_straddle.mp hall _ List.mem_cons_self ⟨rfl, by decide +kernel, ?_⟩
    decide +kernel
  · exact absurd hrules.summary (by decide)

end Proof

end PipeLens
