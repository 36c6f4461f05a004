import PipeLens.LogFunctions
import PipeLens.Proof.TokenFlow
import PipeLens.Proof.Untrusted

/-!
# No token reaches the language model

Whatever GitHub returns, the texts that the provider is asked with hold none of the
tokens that `sanitize_log` looks for: the log, the workflow, the excerpts of patches, and
the names of jobs, steps and runners. The names of files and the path of the workflow are
handed on as they are, and the remaining texts are the program's own.

The proof follows the stages. What each of them hands on is made of sanitized texts, in
the ways that `TokenFlow` allows.
-/

namespace PipeLens.Proof

open Program AnalysisPipeline

/-- A text without tokens. -/
def CleanText (unicode : Unicode) (text : String) : Prop := TokenFree unicode text.toList

/-- A text without tokens, or none. -/
def CleanOption (unicode : Unicode) (text : Option String) : Prop :=
  ∀ value, text = some value → CleanText unicode value

structure CleanJob (unicode : Unicode) (job : FailedJobContext) : Prop where
  name : CleanText unicode job.name
  failedSteps : ∀ step ∈ job.failedSteps, CleanText unicode step
  runnerLabels : ∀ label ∈ job.runnerLabels, CleanText unicode label

structure CleanExecution (unicode : Unicode) (execution : ExecutionContext) : Prop where
  workflowName : CleanOption unicode execution.workflowName
  headBranch : CleanOption unicode execution.headBranch
  failedJobs : ∀ job ∈ execution.failedJobs, CleanJob unicode job

structure CleanClassification (unicode : Unicode) (classification : Classification) : Prop where
  firstError : CleanText unicode classification.firstError
  relatedStep : CleanOption unicode classification.relatedStep

/-- What the provider may be asked with. -/
structure CleanContext (unicode : Unicode) (context : LLMContext) : Prop where
  log : CleanText unicode context.log
  classification : CleanClassification unicode context.classification
  relatedFiles : ∀ file ∈ context.relatedFiles, CleanOption unicode file.patchExcerpt
  executionContext : ∀ execution, context.executionContext = some execution →
    CleanExecution unicode execution
  workflowContent : CleanOption unicode context.workflowContent

/-- A call that hands no token to the provider. -/
def TokenSafe (unicode : Unicode) (call : Call) : Prop :=
  ∀ context, call = .llmAnalyze context → CleanContext unicode context

/-- What the second stage hands on. -/
structure CleanSanitized (unicode : Unicode) (sanitized : Sanitized) : Prop where
  executionContext : CleanExecution unicode sanitized.executionContext
  context : CleanText unicode sanitized.context
  workflowContent : CleanText unicode sanitized.workflowContent

/-! ## Texts -/

section Texts

variable {unicode : Unicode} (hstd : StandardTables unicode)
include hstd

theorem CleanText.intercalate {texts : List String} (h : ∀ text ∈ texts, CleanText unicode text) :
    CleanText unicode (", ".intercalate texts) := by
  unfold CleanText
  rw [String.toList_intercalate]
  refine TokenFree.intercalate (separates_comma hstd) fun text hm => ?_
  obtain ⟨piece, hpiece, rfl⟩ := List.mem_map.mp hm
  exact h piece hpiece

theorem CleanText.location {job step : String} (hjob : CleanText unicode job)
    (hstep : CleanText unicode step) : CleanText unicode (job ++ " / " ++ step) := by
  unfold CleanText
  rw [String.toList_append, String.toList_append, List.append_assoc]
  exact separates_slash hstd _ _ hjob hstep

omit hstd in
theorem CleanText.orDefault {value default : String} (hvalue : CleanText unicode value)
    (hdefault : CleanText unicode default) :
    CleanText unicode (AnalysisPipeline.orDefault value default) := by
  unfold AnalysisPipeline.orDefault
  split
  · exact hdefault
  · exact hvalue

omit hstd in
theorem CleanText.orNone {value : String} (h : CleanText unicode value) :
    CleanOption unicode (AnalysisPipeline.orNone value) := by
  unfold AnalysisPipeline.orNone
  intro text htext
  split at htext
  · exact absurd htext (by simp)
  · rw [← Option.some.inj htext]
    exact h

/-- Where the failure is. -/
theorem failedLocations_clean {execution : ExecutionContext}
    (h : CleanExecution unicode execution) :
    CleanOption unicode (failedLocations execution) := by
  unfold failedLocations
  refine CleanText.orNone (CleanText.intercalate hstd fun text hm => ?_)
  split at hm
  · obtain ⟨job, hjob, rfl⟩ := List.mem_map.mp hm
    exact (h.failedJobs job hjob).name
  · obtain ⟨job, hjob, hlocation⟩ := List.mem_flatMap.mp hm
    obtain ⟨step, hstep, rfl⟩ := List.mem_map.mp hlocation
    have hclean := h.failedJobs job hjob
    exact CleanText.location hstd hclean.name (hclean.failedSteps step hstep)

end Texts

/-! ## The stages -/

/-- What `analyze` calls beyond its stages. -/
theorem makes_analyze {pipeline : AnalysisPipeline} {C : Call → Prop} {request : AnalysisRequest}
    {attempt : Token} (hbegin : C (.beginAnalysis request.runId attempt))
    (hfinish : ∀ startedAt status, C (.finishAnalysis request.runId startedAt status attempt))
    (hstages : Makes C (pipeline.analyzeStages request attempt) fun _ => True) :
    Makes C (pipeline.analyze request attempt) fun _ => True := by
  have hfinish : ∀ startedAt status, Makes C
      (Program.outcome (pipeline.finish request startedAt status attempt)) fun _ => True :=
    fun startedAt status =>
      (makes_storing (hfinish startedAt status)).outcome.mono fun _ _ => trivial
  refine Makes.bind (makes_storing hbegin).outcome fun start _ => ?_
  split
  · exact Makes.pure trivial
  · exact Makes.throw
  · refine Makes.bind hstages.outcome fun result _ => ?_
    split
    · exact Makes.pure trivial
    · refine Makes.bind (hfinish _ _) fun finished _ => ?_
      split
      · exact Makes.pure trivial
      · exact Makes.throw
      · exact Makes.throw
    · refine Makes.bind (hfinish _ _) fun finished _ => ?_
      split
      · exact Makes.pure trivial
      · exact Makes.throw
      · exact Makes.pure trivial

section Stages

variable {unicode : Unicode} {pipeline : AnalysisPipeline}

/-- What the functions of the pipeline have to be. -/
structure Sanitizes (unicode : Unicode) (pipeline : AnalysisPipeline) : Prop where
  sanitizeLog : ∀ raw text, pipeline.functions.sanitizeLog raw = .ok text →
    CleanText unicode text
  preprocessLogs : ∀ logs text, pipeline.functions.preprocessLogs logs
      pipeline.settings.logChunkChars pipeline.settings.errorContextLines
      pipeline.settings.maxErrorChunks = .ok text → CleanText unicode text
  classifyLog : ∀ log relatedStep classification, CleanText unicode log →
    CleanOption unicode relatedStep →
    pipeline.functions.classifyLog log relatedStep = .ok classification →
    CleanClassification unicode classification
  correlateChangedFiles : ∀ log changedFiles category relatedFiles,
    pipeline.functions.correlateChangedFiles log changedFiles category = .ok relatedFiles →
    ∀ file ∈ relatedFiles, CleanOption unicode file.patchExcerpt

variable (hclean : Sanitizes unicode pipeline)
include hclean

theorem firstClean_clean {values : List (Option String)} {value : Option String}
    (h : pipeline.firstClean values = .ok value) : CleanOption unicode value := by
  unfold firstClean at h
  split at h
  · obtain rfl := Except.ok.inj h
    exact fun text htext => absurd htext (by simp)
  · rename_i raw _
    cases hraw : pipeline.functions.sanitizeLog raw with
    | error message =>
        rw [hraw] at h
        exact nomatch h
    | ok text =>
        rw [hraw] at h
        obtain rfl := Except.ok.inj h
        rintro _ ⟨⟩
        exact hclean.sanitizeLog raw text hraw

theorem sanitizeExecutionContext_clean {failedJobs : List FailedJob} {execution : ExecutionContext}
    (h : pipeline.sanitizeExecutionContext failedJobs = .ok execution) :
    CleanExecution unicode execution := by
  have hunknown : ∀ text ∈ ["unknown job", "unknown step", "unknown"], CleanText unicode text := by
    intro text hm
    refine TokenFree.of_body ?_
    revert text
    decide
  have htexts : ∀ texts cleaned : List String,
      texts.mapM pipeline.functions.sanitizeLog = .ok cleaned →
      ∀ text ∈ cleaned, CleanText unicode text := fun texts cleaned hm =>
    mapM_eq_ok hclean.sanitizeLog hm
  unfold sanitizeExecutionContext at h
  obtain ⟨workflowName, hworkflow, h⟩ := bind_eq_ok h
  obtain ⟨headBranch, hbranch, h⟩ := bind_eq_ok h
  obtain ⟨jobs, hjobs, h⟩ := bind_eq_ok h
  obtain rfl := Except.ok.inj h
  refine ⟨firstClean_clean hclean hworkflow, firstClean_clean hclean hbranch, ?_⟩
  refine mapM_eq_ok (fun job cleaned hjob => ?_) hjobs
  obtain ⟨name, hname, hjob⟩ := bind_eq_ok hjob
  obtain ⟨failedSteps, hsteps, hjob⟩ := bind_eq_ok hjob
  obtain ⟨runnerLabels, hlabels, hjob⟩ := bind_eq_ok hjob
  obtain rfl := Except.ok.inj hjob
  refine ⟨(hclean.sanitizeLog _ _ hname).orDefault (hunknown _ (by simp)), ?_, ?_⟩
  · intro step hm
    obtain ⟨raw, hraw, rfl⟩ := List.mem_map.mp hm
    exact (htexts _ _ hsteps raw hraw).orDefault (hunknown _ (by simp))
  · intro label hm
    obtain ⟨raw, hraw, rfl⟩ := List.mem_map.mp hm
    exact (htexts _ _ hlabels raw hraw).orDefault (hunknown _ (by simp))

theorem tokenSafe_sanitize (collected : Collected) :
    Makes (TokenSafe unicode) (pipeline.sanitize collected) (CleanSanitized unicode) := by
  refine Makes.bind (makes_yielding _ _) fun execution hexecution => ?_
  refine Makes.bind (makes_yielding _ _) fun context hcontext => ?_
  refine Makes.bind (makes_yielding _ _) fun changedFiles _ => ?_
  refine Makes.bind (makes_yielding _ _) fun workflowContent hworkflow => ?_
  exact Makes.pure ⟨sanitizeExecutionContext_clean hclean hexecution,
    hclean.preprocessLogs _ _ hcontext, hclean.sanitizeLog _ _ hworkflow⟩

omit hclean in
theorem tokenSafe_modelDiagnosis {context : LLMContext} (hcontext : CleanContext unicode context)
    (fallback : Diagnosis) :
    Makes (TokenSafe unicode) (pipeline.modelDiagnosis context fallback) fun _ => True := by
  have hcall : TokenSafe unicode (.llmAnalyze context) := by
    rintro _ ⟨⟩
    exact hcontext
  unfold modelDiagnosis
  split
  · exact Makes.pure trivial
  · rename_i provider _
    have hasks : Makes (TokenSafe unicode) (llmDiagnosis provider context fallback)
        fun _ => True := by
      unfold llmDiagnosis
      refine Makes.tryCatch ?_ fun exc => Makes.pure trivial
      refine Makes.bind (makes_calling hcall _ _) fun analysis _ => ?_
      exact (makes_yielding _ _).mono fun _ _ => trivial
    exact Makes.bind hasks fun _ _ => Makes.pure trivial

omit hclean in
theorem tokenSafe_attach (request : AnalysisRequest) (accessToken : String) (diagnosis : Diagnosis)
    (log : String) (relatedFiles : List RelatedFile) (context : RepositoryContext) :
    Makes (TokenSafe unicode)
      (pipeline.attachVerifiedPatches request accessToken diagnosis log relatedFiles context)
      fun _ => True := by
  have hfetch : ∀ targets, Makes (TokenSafe unicode)
      (pipeline.fetchTargets request accessToken targets) fun _ => True := by
    intro targets
    unfold fetchTargets
    split
    · exact Makes.pure trivial
    · refine Makes.tryCatch ?_ fun exc => Makes.pure trivial
      exact (makes_calling (fun _ h => nomatch h) _ _).mono fun _ _ => trivial
  unfold attachVerifiedPatches
  refine Makes.bind (makes_yielding _ _) fun bumps _ => ?_
  dsimp only
  split
  · exact Makes.pure trivial
  · refine Makes.bind (makes_yielding _ _) fun manifestPaths _ => ?_
    refine Makes.bind (hfetch _) fun fetched _ => ?_
    exact (makes_yielding _ _).mono fun _ _ => trivial

omit hclean in
theorem tokenSafe_diagnose (request : AnalysisRequest) (collected : Collected)
    {sanitized : Sanitized} (hsanitized : CleanSanitized unicode sanitized)
    {classification : Classification} (hclass : CleanClassification unicode classification)
    {relatedFiles : List RelatedFile}
    (hfiles : ∀ file ∈ relatedFiles, CleanOption unicode file.patchExcerpt) :
    Makes (TokenSafe unicode)
      (pipeline.diagnose request collected sanitized classification relatedFiles)
      fun _ => True := by
  have hcontext : CleanContext unicode
      (llmContext collected sanitized classification relatedFiles) := by
    refine ⟨hsanitized.context, hclass, hfiles, ?_, hsanitized.workflowContent.orNone⟩
    rintro _ ⟨⟩
    exact hsanitized.executionContext
  unfold diagnose
  dsimp only
  split
  · refine Makes.bind (tokenSafe_modelDiagnosis hcontext _) fun diagnosed _ => ?_
    refine Makes.bind (tokenSafe_attach request _ _ _ _ _) fun diagnosis _ => ?_
    exact Makes.pure trivial
  · exact Makes.pure trivial

omit hclean in
theorem tokenSafe_collect (request : AnalysisRequest) (attempt : Token) :
    Makes (TokenSafe unicode) (pipeline.collect request attempt) fun _ => True := by
  refine Makes.bind (makes_calling (fun _ h => nomatch h) _ _) fun accessToken _ => ?_
  refine Makes.bind (Q := fun _ => True) ?_ fun collected _ => ?_
  · refine Makes.bind (makes_calling (fun _ h => nomatch h) _ _).outcome fun jobs _ => ?_
    refine Makes.bind (makes_calling (fun _ h => nomatch h) _ _).outcome fun logs _ => ?_
    refine Makes.bind (makes_rescued (fun _ h => nomatch h) _ _ _) fun context _ => ?_
    cases jobs with
    | ok jobs =>
        cases logs with
        | ok logs => exact Makes.pure trivial
        | error exc => exact Makes.throw
    | error exc =>
        cases logs with
        | ok logs => exact Makes.throw
        | error exc' => exact Makes.throw
  · refine Makes.bind (makes_storing fun _ h => nomatch h) fun _ _ => ?_
    exact Makes.pure trivial

omit hclean in
theorem tokenSafe_publish (request : AnalysisRequest) (collected : Collected)
    (classification : Classification) (relatedFiles : List RelatedFile) (diagnosis : Diagnosis) :
    Makes (TokenSafe unicode)
      (pipeline.publish request collected classification relatedFiles diagnosis)
      fun _ => True := by
  unfold publish
  dsimp only
  split
  · refine Makes.bind (makes_calling (fun _ h => nomatch h) _ _) fun body _ => ?_
    split
    · exact (makes_calling (fun _ h => nomatch h) _ _).mono fun _ _ => trivial
    · exact (makes_calling (fun _ h => nomatch h) _ _).mono fun _ _ => trivial
    · exact (makes_calling (fun _ h => nomatch h) _ _).mono fun _ _ => trivial
    · exact Makes.pure trivial
  · exact Makes.pure trivial

/-- **The six stages** hand no token to the provider. -/
theorem tokenSafe_analyzeStages (hstd : StandardTables unicode) (request : AnalysisRequest)
    (attempt : Token) :
    Makes (TokenSafe unicode) (pipeline.analyzeStages request attempt) fun _ => True := by
  have hstage : ∀ runId stage status error, TokenSafe unicode
      (.recordStage runId stage status error attempt) := fun _ _ _ _ _ h => nomatch h
  refine Makes.bind (makes_stage (hstage _ _) (tokenSafe_collect request attempt))
    fun collected _ => ?_
  refine Makes.bind (makes_stage (hstage _ _) (tokenSafe_sanitize hclean collected))
    fun sanitized hsanitized => ?_
  have hlocations := failedLocations_clean hstd hsanitized.executionContext
  refine Makes.bind (makes_stage (hstage _ _) (makes_yielding _ _))
    fun classification hclassify => ?_
  have hclass := hclean.classifyLog _ _ classification hsanitized.context hlocations hclassify
  refine Makes.bind (makes_stage (hstage _ _) (makes_yielding _ _))
    fun relatedFiles hcorrelate => ?_
  have hfiles := hclean.correlateChangedFiles _ _ _ relatedFiles hcorrelate
  refine Makes.bind (makes_stage (hstage _ _)
    (tokenSafe_diagnose request collected hsanitized hclass hfiles)) fun diagnosed _ => ?_
  refine Makes.bind (makes_storing fun _ h => nomatch h) fun _ _ => ?_
  exact makes_stage (hstage _ _)
    (tokenSafe_publish request collected classification relatedFiles diagnosed.diagnosis)

end Stages

/-! ## The result -/

theorem withLogFunctions_sanitizes {unicode : Unicode} (hstd : StandardTables unicode)
    {lower : List Char → List Char} {functions : Functions} {pipeline : AnalysisPipeline}
    (hfunctions : pipeline.functions = functions.withLogFunctions unicode lower)
    (hlines : 0 ≤ pipeline.settings.errorContextLines) : Sanitizes unicode pipeline := by
  refine ⟨?_, ?_, ?_, ?_⟩
  · intro raw text h
    rw [hfunctions] at h
    rw [← Except.ok.inj h]
    unfold CleanText
    rw [String.toList_ofList]
    exact sanitizeLog_free hstd _
  · intro logs text h
    rw [hfunctions] at h
    obtain ⟨contextLines, hcontext⟩ := Int.eq_ofNat_of_zero_le hlines
    rw [hcontext] at h
    rw [← Except.ok.inj h]
    unfold CleanText
    rw [String.toList_ofList]
    exact preprocessLogs_free hstd _ _ _ _
  · intro log relatedStep classification hlog hstep h
    rw [hfunctions] at h
    obtain rfl := Except.ok.inj h
    refine ⟨classifyLog_free hstd hlog relatedStep, ?_⟩
    have hsame : (PipeLens.classifyLog unicode log relatedStep).relatedStep = relatedStep := by
      unfold PipeLens.classifyLog
      dsimp only
      split
      · rfl
      · rfl
    rw [hsame]
    exact hstep
  · intro log changedFiles category relatedFiles h file hfile excerpt hexcerpt
    rw [hfunctions] at h
    rw [← Except.ok.inj h] at hfile
    exact correlateChangedFiles_free hstd hfile hexcerpt

/-- **No token reaches the language model**, in any run, whatever GitHub returns, whatever else
is called and whichever calls fail. -/
theorem model_input_holds_no_token {unicode : Unicode} (hstd : StandardTables unicode)
    (lower : List Char → List Char) (functions : Functions) (pipeline : AnalysisPipeline)
    (hfunctions : pipeline.functions = functions.withLogFunctions unicode lower)
    (hlines : 0 ≤ pipeline.settings.errorContextLines) (request : AnalysisRequest)
    (attempt : Token) (s : AnalysisState) :
    ∃ new, (exec (pipeline.analyze request attempt) s).2.calls = s.calls ++ new
      ∧ ∀ context, .llmAnalyze context ∈ new → CleanContext unicode context := by
  have hclean := withLogFunctions_sanitizes hstd hfunctions hlines
  have hrun : Makes (TokenSafe unicode) (pipeline.analyze request attempt) fun _ => True :=
    makes_analyze (fun _ h => nomatch h) (fun _ _ _ h => nomatch h)
      (tokenSafe_analyzeStages hclean hstd request attempt)
  obtain ⟨new, hnew, hall⟩ := hrun.calls s
  exact ⟨new, hnew, fun context hm => hall _ hm context rfl⟩

/-- A run whose log has a token in it, with a language model that can be asked. -/
def leakyPipeline : AnalysisPipeline :=
  { troubledPipeline with
    github := { troubledPipeline.github with
      downloadLogs := fun _ _ _ =>
        .ok [{ jobName := "test", text := "error: push with ghp_0123456789abcdefghij failed" }] }
    functions := troubledPipeline.functions.withLogFunctions asciiTables (List.map Char.toLower) }

def asksModel : Call → Bool
  | .llmAnalyze _ => true
  | _ => false

theorem model_input_holds_no_token_leaky :
    ∃ new, (exec (leakyPipeline.analyze waitingRequest 4) waitingState).2.calls
        = waitingState.calls ++ new
      ∧ (∃ context, .llmAnalyze context ∈ new)
      ∧ ∀ context, .llmAnalyze context ∈ new → CleanContext asciiTables context := by
  obtain ⟨new, hcalls, hclean⟩ := model_input_holds_no_token asciiTables_standard
    (List.map Char.toLower) troubledPipeline.functions leakyPipeline rfl (by decide)
    waitingRequest 4 waitingState
  have hasked : (exec (leakyPipeline.analyze waitingRequest 4) waitingState).2.calls.any asksModel
      = true := by
    decide +kernel
  rw [hcalls, show waitingState.calls = [] from rfl, List.nil_append] at hasked
  obtain ⟨call, hcall, hasks⟩ := List.any_eq_true.mp hasked
  refine ⟨new, hcalls, ?_, hclean⟩
  cases call with
  | llmAnalyze context => exact ⟨context, hcall⟩
  | _ => cases hasks

end PipeLens.Proof
