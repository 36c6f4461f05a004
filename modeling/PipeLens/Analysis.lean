import PipeLens.Diagnosis
import PipeLens.Patching
import PipeLens.Pipeline
import PipeLens.Lib.Program

/-!
# The analysis of a run

`AnalysisPipeline.analyze` with the bodies of its stages, as one uninterrupted
call. Everything the bodies reach for is a call to another component, and the
calls are logged in order with their arguments.

The answers of GitHub and of the language model are arbitrary: each call returns a
value or raises. So are the functions of the modules that parse logs, redact
secrets, score files, verify patches and render comments. The store is the one of
`Store`, and between two calls to it others may have changed the tables. Metrics
and log messages are left out.
-/

namespace PipeLens

/-! ## The components -/

/-- The settings `_analyze` reads. -/
structure Settings where
  logChunkChars : Int
  errorContextLines : Int
  maxErrorChunks : Int
  publishChecks : Bool
  publicUrl : String
  deriving DecidableEq, Repr

structure JobLog where
  jobName : String
  text : String
  deriving DecidableEq, Repr

structure FailedJob where
  jobId : Int
  name : String
  failedSteps : List String
  runnerLabels : List String := []
  workflowName : Option String := none
  headBranch : Option String := none
  deriving DecidableEq, Repr

/-- How the calls to `GitHubClient` go; an error is the text of the exception. -/
structure GitHubClient where
  installationToken : (installationId : Int) → Except String String
  failedJobs : (repository : String) → (runId : Int) → (token : String) →
    Except String (List FailedJob)
  downloadLogs : (repository : String) → (runId : Int) → (token : String) →
    Except String (List JobLog)
  repositoryContext : (repository : String) → (runId : Int) → (headSha token : String) →
    Except String RepositoryContext
  fileContents : (repository : String) → (paths : List String) → (ref token : String) →
    Except String (List (String × String))
  upsertPullRequestComment : (repository : String) → (number runId : Int) →
    (token body : String) → Except String Unit
  upsertCheck : (repository headSha : String) → (runId : Int) →
    (token summary body detailsUrl : String) → Except String Unit
  /-- Whether `download_logs` is the first to raise if `failed_jobs` raises too. -/
  logsRaiseFirst : Bool

/-- A provider; the token counts of its answers go to the metrics only. -/
structure LLMProvider where
  modelName : String
  analyze : LLMContext → Except String LLMAnalysis

/-- The functions of other modules. They have no effects, but they may raise. -/
structure Functions where
  /-- `sanitize_log`, without the counts of redactions. -/
  sanitizeLog : String → Except String String
  /-- The context that `preprocess_logs` extracts. -/
  preprocessLogs : (logs : List String) → (chunkChars contextLines maxErrorChunks : Int) →
    Except String String
  classifyLog : (log : String) → (relatedStep : Option String) → Except String Classification
  correlateChangedFiles : (log : String) → List ChangedFile → ErrorCategory →
    Except String (List RelatedFile)
  findVersionBumps : (log : String) → Except String (List VersionBump)
  manifestPathsInLog : (log : String) → Except String (List String)
  /-- `propose_and_verify_patches`, without the counts of outcomes. -/
  proposeAndVerifyPatches : Diagnosis → List VersionBump → (files : List (String × String)) →
    Except String Diagnosis
  renderGithubDiagnosis : (runId : Int) → Classification → Diagnosis → List RelatedFile →
    (detailsUrl : String) → TrustLevel → (baselineSha : Option String) → (headSha : String) →
    Except String String

/-- The circumstances of a store call. -/
structure StoreTurn where
  fate : StoreFate
  now : Instant
  /-- What others have done to the tables since the call before. -/
  others : Db → Db

structure AnalysisPipeline where
  settings : Settings
  github : GitHubClient
  llmProvider : Option LLMProvider
  functions : Functions
  /-- The circumstances of the store calls, in order. -/
  turn : Nat → StoreTurn

/-! ## Calls and exceptions -/

/-- A call to another component. -/
inductive Call where
  | beginAnalysis (runId : Int) (attempt : Token)
  | recordStage (runId : Int) (stage : AnalysisStage) (status : StageStatus)
      (error : Option String) (attempt : Token)
  | update (runId : Int) (status : AnalysisStatus) (values : UpdateValues) (attempt : Token)
  | finishAnalysis (runId : Int) (startedAt : Instant) (status : AnalysisStatus)
      (attempt : Token)
  | installationToken (installationId : Int)
  | failedJobs (repository : String) (runId : Int) (token : String)
  | downloadLogs (repository : String) (runId : Int) (token : String)
  | repositoryContext (repository : String) (runId : Int) (headSha token : String)
  | fileContents (repository : String) (paths : List String) (ref token : String)
  | llmAnalyze (context : LLMContext)
  | render (runId : Int) (classification : Classification) (diagnosis : Diagnosis)
      (relatedFiles : List RelatedFile) (detailsUrl : String) (trustLevel : TrustLevel)
      (baselineSha : Option String) (headSha : String)
  | upsertPullRequestComment (repository : String) (number runId : Int) (token body : String)
  | upsertCheck (repository headSha : String) (runId : Int)
      (token summary body detailsUrl : String)
  deriving DecidableEq, Repr

/-- What raised an exception. -/
inductive Raiser where
  | store
  | installationToken | failedJobs | downloadLogs | repositoryContext | fileContents
  | upsertPullRequestComment | upsertCheck
  | llmProvider
  /-- `validate_llm_analysis`. -/
  | llmValidation
  /-- One of the other functions. -/
  | function
  deriving DecidableEq, Repr

inductive AnalysisError where
  /-- `AnalysisAttemptSuperseded`. -/
  | superseded (message : String)
  | raised (raiser : Raiser) (message : String)
  deriving DecidableEq, Repr

/-- `str(exc)`. -/
def AnalysisError.message : AnalysisError → String
  | .superseded message => message
  | .raised _ message => message

/-- The store, the number of calls to it and the calls of all kinds so far. -/
structure AnalysisState where
  store : Db
  storeCalls : Nat
  calls : List Call

/-- Code of the pipeline. -/
abbrev AnalysisCode (α : Type) := Program AnalysisError AnalysisState α

/-- Hands on a result, or raises. -/
def yielding {α : Type} (raiser : Raiser) : Except String α → AnalysisCode α
  | .ok value => pure value
  | .error message => throw (.raised raiser message)

/-- A call to GitHub or to the language model. -/
def calling {α : Type} (raiser : Raiser) (call : Call) (answer : Except String α) :
    AnalysisCode α := do
  modify fun s => { s with calls := s.calls ++ [call] }
  yielding raiser answer

namespace AnalysisPipeline

variable (pipeline : AnalysisPipeline)

/-- A call to the store. -/
def storing {α : Type} (call : Call) (operation : Db → Instant → Except StoreError α × Db) :
    AnalysisCode α :=
  Program.ofRun fun s =>
    let turn := pipeline.turn s.storeCalls
    let db := turn.others s.store
    let r := storeCall db turn.fate (operation db turn.now)
    (match r.1 with
      | .ok value => .ok value
      | .superseded message => .error (.superseded message)
      | .raised message => .error (.raised .store message),
      { store := r.2, storeCalls := s.storeCalls + 1, calls := s.calls ++ [call] })

def recordStage (runId : Int) (stage : AnalysisStage) (status : StageStatus)
    (error : Option String) (attempt : Token) : AnalysisCode Unit :=
  pipeline.storing (.recordStage runId stage status error attempt) fun db now =>
    db.recordStage runId stage status error (some attempt) now

def update (runId : Int) (status : AnalysisStatus) (values : UpdateValues) (attempt : Token) :
    AnalysisCode Unit :=
  pipeline.storing (.update runId status values attempt) fun db now =>
    db.update runId status values (some attempt) now

/-- `_stage`: the context manager around the body of a stage. -/
def stage {α : Type} (runId : Int) (stage : AnalysisStage) (attempt : Token)
    (body : AnalysisCode α) : AnalysisCode α := do
  pipeline.recordStage runId stage .started none attempt
  let value ← tryCatch body fun exc => do
    pipeline.recordStage runId stage .failed (some (stageError exc.message)) attempt
    throw exc
  -- the `else` of the `try`: an exception here is not recorded as a failure of the stage
  pipeline.recordStage runId stage .completed none attempt
  return value

/-! ## Collecting -/

/-- What the first stage leaves to the others. -/
structure Collected where
  accessToken : String
  failedJobs : List FailedJob
  logs : List JobLog
  repositoryContext : RepositoryContext

/-- `_repository_context`: without an answer the run counts as unverified. -/
def repositoryContext (request : AnalysisRequest) (accessToken : String) :
    AnalysisCode RepositoryContext :=
  tryCatch
    (calling .repositoryContext
      (.repositoryContext request.repository request.runId request.headSha accessToken)
      (pipeline.github.repositoryContext request.repository request.runId request.headSha
        accessToken))
    fun _ => pure { trustLevel := .unverified }

/-- `asyncio.gather`: all three are called, and the first exception is raised. -/
def gather (request : AnalysisRequest) (accessToken : String) : AnalysisCode Collected := do
  let failedJobs ← Program.outcome (calling .failedJobs
    (.failedJobs request.repository request.runId accessToken)
    (pipeline.github.failedJobs request.repository request.runId accessToken))
  let logs ← Program.outcome (calling .downloadLogs
    (.downloadLogs request.repository request.runId accessToken)
    (pipeline.github.downloadLogs request.repository request.runId accessToken))
  let repositoryContext ← pipeline.repositoryContext request accessToken
  match failedJobs, logs with
  | .ok failedJobs, .ok logs => return ⟨accessToken, failedJobs, logs, repositoryContext⟩
  | .error exc, .ok _ => throw exc
  | .ok _, .error exc => throw exc
  | .error exc, .error exc' => throw (if pipeline.github.logsRaiseFirst then exc' else exc)

def collect (request : AnalysisRequest) (attempt : Token) : AnalysisCode Collected := do
  let accessToken ← calling .installationToken (.installationToken request.installationId)
    (pipeline.github.installationToken request.installationId)
  let collected ← pipeline.gather request accessToken
  pipeline.update request.runId .running
    { trustLevel := some collected.repositoryContext.trustLevel } attempt
  return collected

/-! ## Sanitizing -/

/-- What the second stage leaves to the others. -/
structure Sanitized where
  executionContext : ExecutionContext
  context : String
  changedFiles : List ChangedFile
  workflowContent : String

/-- `value or default`, where an empty string is false. -/
def orDefault (value default : String) : String := if value = "" then default else value

/-- `value or None`. -/
def orNone (value : String) : Option String := if value = "" then none else some value

/-- The first value that is neither `None` nor empty, cleaned. -/
def firstClean (values : List (Option String)) : Except String (Option String) :=
  match (values.filterMap id).find? (· != "") with
  | none => .ok none
  | some value => some <$> pipeline.functions.sanitizeLog value

/-- `_sanitize_execution_context`. -/
def sanitizeExecutionContext (failedJobs : List FailedJob) : Except String ExecutionContext := do
  let clean := pipeline.functions.sanitizeLog
  let workflowName ← pipeline.firstClean (failedJobs.map FailedJob.workflowName)
  let headBranch ← pipeline.firstClean (failedJobs.map FailedJob.headBranch)
  let jobs ← failedJobs.mapM fun job => do
    let name ← clean job.name
    let failedSteps ← job.failedSteps.mapM clean
    let runnerLabels ← job.runnerLabels.mapM clean
    return {
      name := orDefault name "unknown job"
      failedSteps := failedSteps.map fun step => orDefault step "unknown step"
      runnerLabels := runnerLabels.map fun label => orDefault label "unknown" }
  return { workflowName := workflowName, headBranch := headBranch, failedJobs := jobs }

/-- The logs of the failed jobs, or all of them if none matches by name. -/
def selectLogs (failedJobs : List FailedJob) (logs : List JobLog) : List JobLog :=
  let matching := logs.filter fun log => failedJobs.any fun job => isIn job.name log.jobName
  if matching.isEmpty then logs else matching

def sanitize (collected : Collected) : AnalysisCode Sanitized := do
  let executionContext ←
    yielding .function (pipeline.sanitizeExecutionContext collected.failedJobs)
  let context ← yielding .function (pipeline.functions.preprocessLogs
    ((selectLogs collected.failedJobs collected.logs).map JobLog.text)
    pipeline.settings.logChunkChars pipeline.settings.errorContextLines
    pipeline.settings.maxErrorChunks)
  let changedFiles ← yielding .function
    (collected.repositoryContext.changedFiles.mapM fun changed => do
      let patch ← pipeline.functions.sanitizeLog (changed.patch.getD "")
      return { changed with patch := orNone patch })
  let workflowContent ← yielding .function
    (pipeline.functions.sanitizeLog (collected.repositoryContext.workflowContent.getD ""))
  return ⟨executionContext, context, changedFiles, workflowContent⟩

/-! ## Classifying and correlating -/

/-- `", ".join(failed_locations) or None`. -/
def failedLocations (executionContext : ExecutionContext) : Option String :=
  let steps := executionContext.failedJobs.flatMap fun job =>
    job.failedSteps.map fun step => job.name ++ " / " ++ step
  orNone (", ".intercalate
    (if steps.isEmpty then executionContext.failedJobs.map FailedJobContext.name else steps))

def classify (sanitized : Sanitized) : AnalysisCode Classification :=
  yielding .function (pipeline.functions.classifyLog sanitized.context
    (failedLocations sanitized.executionContext))

def correlate (sanitized : Sanitized) (classification : Classification) :
    AnalysisCode (List RelatedFile) :=
  yielding .function (pipeline.functions.correlateChangedFiles sanitized.context
    sanitized.changedFiles classification.category)

/-- `repository_files`. -/
def repositoryFiles (context : RepositoryContext) : List String :=
  context.changedFiles.map ChangedFile.filename ++ context.workflowPath.toList.filter (· != "")

/-! ## Diagnosing -/

/-- What the fifth stage leaves to the others. -/
structure Diagnosed where
  diagnosis : Diagnosis
  modelName : Option String
  promptVersion : Option String

def addNote (diagnosis : Diagnosis) (note : String) : Diagnosis :=
  { diagnosis with notes := diagnosis.notes ++ [note] }

/-- `if repository_context.workflow_path and repository_context.workflow_content`. -/
def knownFiles (context : RepositoryContext) : List (String × String) :=
  match context.workflowPath, context.workflowContent with
  | some path, some content => if path ≠ "" ∧ content ≠ "" then [(path, content)] else []
  | _, _ => []

/-- `dict.update`: known paths keep their place. -/
def updateFiles (files fetched : List (String × String)) : List (String × String) :=
  files.map (fun file => (file.1, (fetched.lookup file.1).getD file.2)) ++
    fetched.filter fun file => !(files.map Prod.fst).contains file.1

/-- The files that patches may be for and whose contents are not known yet. -/
def patchTargets (files : List (String × String)) (relatedFiles : List RelatedFile)
    (llmPatchFiles manifestPaths : List String) : List String :=
  (relatedFiles.map RelatedFile.filename ++ llmPatchFiles ++ manifestPaths).eraseDups.filter
    fun path => !(files.map Prod.fst).contains path

/-- The files of the suggestions with a patch. -/
def patchFiles (diagnosis : Diagnosis) : List String :=
  diagnosis.suggestions.filterMap fun item =>
    if item.patch.getD "" ≠ "" ∧ item.file.getD "" ≠ "" then item.file else none

/-- The contents of the targets; a failed fetch leaves them out. -/
def fetchTargets (request : AnalysisRequest) (accessToken : String) (targets : List String) :
    AnalysisCode (List (String × String)) :=
  if targets.isEmpty then return []
  else
    tryCatch
      (calling .fileContents
        (.fileContents request.repository targets request.headSha accessToken)
        (pipeline.github.fileContents request.repository targets request.headSha accessToken))
      fun _ => return []

/-- `_attach_verified_patches`. -/
def attachVerifiedPatches (request : AnalysisRequest) (accessToken : String)
    (diagnosis : Diagnosis) (log : String) (relatedFiles : List RelatedFile)
    (repositoryContext : RepositoryContext) : AnalysisCode Diagnosis := do
  let bumps ← yielding .function (pipeline.functions.findVersionBumps log)
  let llmPatchFiles := patchFiles diagnosis
  if bumps.isEmpty && llmPatchFiles.isEmpty then return diagnosis
  else
    let manifestPaths ← yielding .function
      (if bumps.isEmpty then .ok [] else pipeline.functions.manifestPathsInLog log)
    let files := knownFiles repositoryContext
    let targets := patchTargets files relatedFiles llmPatchFiles manifestPaths
    let fetched ← pipeline.fetchTargets request accessToken targets
    yielding .function
      (pipeline.functions.proposeAndVerifyPatches diagnosis bumps (updateFiles files fetched))

/-- The note on the trust level, if there is one. -/
def trustNote (trustLevel : TrustLevel) (diagnosis : Diagnosis) : Diagnosis :=
  match trustLevel with
  | .untrustedFork =>
      addNote diagnosis
        ("외부 Fork 실행이므로 신뢰할 수 없는 로그·코드·Workflow를 LLM에 " ++
          "전송하지 않고 규칙 기반 진단만 수행했습니다.")
  | .unverified =>
      addNote diagnosis
        ("저장소 신뢰 수준을 확인하지 못해 로그·코드·Workflow를 LLM에 " ++
          "전송하지 않고 규칙 기반 진단만 수행했습니다.")
  | .trusted => diagnosis

/-- The diagnosis of the language model, or the given one if it fails. -/
def llmDiagnosis (provider : LLMProvider) (context : LLMContext) (fallback : Diagnosis) :
    AnalysisCode Diagnosis :=
  tryCatch
    (do
      let analysis ← calling .llmProvider (.llmAnalyze context) (provider.analyze context)
      -- the costs are computed after this, and an exception there keeps the diagnosis
      yielding .llmValidation (validateLlmAnalysis analysis context))
    fun _ => pure (addNote fallback "LLM 분석에 실패하여 규칙 기반 진단 결과를 제공했습니다.")

/-- The last note. -/
def relatedNote (relatedFiles : List RelatedFile) (diagnosis : Diagnosis) : Diagnosis :=
  if relatedFiles.isEmpty then addNote diagnosis "로그와 직접 연결되는 변경 파일을 찾지 못했습니다."
  else diagnosis

/-- The context a language model is asked with. -/
def llmContext (collected : Collected) (sanitized : Sanitized) (classification : Classification)
    (relatedFiles : List RelatedFile) : LLMContext where
  classification := classification
  log := sanitized.context
  relatedFiles := relatedFiles
  executionContext := some sanitized.executionContext
  workflowPath := collected.repositoryContext.workflowPath
  workflowContent := orNone sanitized.workflowContent

/-- The diagnosis of a trusted run before patches are looked at. -/
def modelDiagnosis (context : LLMContext) (fallback : Diagnosis) : AnalysisCode Diagnosed :=
  match pipeline.llmProvider with
  | none => return ⟨fallback, none, none⟩
  | some provider => do
      let diagnosis ← llmDiagnosis provider context fallback
      return ⟨diagnosis, some provider.modelName, some PipeLens.promptVersion⟩

def diagnose (request : AnalysisRequest) (collected : Collected) (sanitized : Sanitized)
    (classification : Classification) (relatedFiles : List RelatedFile) :
    AnalysisCode Diagnosed := do
  let context := collected.repositoryContext
  let fallback := trustNote context.trustLevel
    (validateDiagnosis (buildRuleBasedDiagnosis classification) sanitized.context
      (some (repositoryFiles context)))
  if context.trustLevel = .trusted then
    let diagnosed ← pipeline.modelDiagnosis
      (llmContext collected sanitized classification relatedFiles) fallback
    let diagnosis ← pipeline.attachVerifiedPatches request collected.accessToken
      diagnosed.diagnosis sanitized.context relatedFiles context
    return { diagnosed with diagnosis := relatedNote relatedFiles diagnosis }
  else return ⟨relatedNote relatedFiles (stripPatches fallback), none, none⟩

/-! ## Publishing -/

/-- `text.rstrip('/')`. -/
def rstripSlash (text : String) : String :=
  String.ofList ((text.toList.reverse.dropWhile (· == '/')).reverse)

def detailsUrl (runId : Int) : String :=
  rstripSlash pipeline.settings.publicUrl ++ "/?run_id=" ++ toString runId

def publish (request : AnalysisRequest) (collected : Collected) (classification : Classification)
    (relatedFiles : List RelatedFile) (diagnosis : Diagnosis) : AnalysisCode Unit := do
  let context := collected.repositoryContext
  if pipeline.settings.publishChecks then
    let detailsUrl := pipeline.detailsUrl request.runId
    let body ← calling .function
      (.render request.runId classification diagnosis relatedFiles detailsUrl context.trustLevel
        context.baselineSha request.headSha)
      (pipeline.functions.renderGithubDiagnosis request.runId classification diagnosis relatedFiles
        detailsUrl context.trustLevel context.baselineSha request.headSha)
    match context.pullRequestNumber, context.trustLevel with
    | some number, .trusted | some number, .untrustedFork =>
        calling .upsertPullRequestComment
          (.upsertPullRequestComment request.repository number request.runId
            collected.accessToken body)
          (pipeline.github.upsertPullRequestComment request.repository number request.runId
            collected.accessToken body)
    | none, .trusted =>
        calling .upsertCheck
          (.upsertCheck request.repository request.headSha request.runId collected.accessToken
            diagnosis.summary body detailsUrl)
          (pipeline.github.upsertCheck request.repository request.headSha request.runId
            collected.accessToken diagnosis.summary body detailsUrl)
    | _, _ => return ()
  else return ()

/-! ## The six stages -/

/-- `_analyze`. -/
def analyzeStages (request : AnalysisRequest) (attempt : Token) : AnalysisCode Unit := do
  let collected ← pipeline.stage request.runId .collecting attempt
    (pipeline.collect request attempt)
  let sanitized ← pipeline.stage request.runId .sanitizing attempt (pipeline.sanitize collected)
  let classification ← pipeline.stage request.runId .classifying attempt
    (pipeline.classify sanitized)
  let relatedFiles ← pipeline.stage request.runId .correlating attempt
    (pipeline.correlate sanitized classification)
  let diagnosed ← pipeline.stage request.runId .diagnosing attempt
    (pipeline.diagnose request collected sanitized classification relatedFiles)
  -- outside any stage
  pipeline.update request.runId .running
    { classification := some classification
      diagnosis := some diagnosed.diagnosis
      relatedFiles := some relatedFiles
      workflowPath := collected.repositoryContext.workflowPath
      modelName := diagnosed.modelName
      promptVersion := diagnosed.promptVersion
      trustLevel := some collected.repositoryContext.trustLevel
      baselineSha := collected.repositoryContext.baselineSha
      executionContext := some sanitized.executionContext } attempt
  pipeline.stage request.runId .publishing attempt
    (pipeline.publish request collected classification relatedFiles diagnosed.diagnosis)

def finish (request : AnalysisRequest) (startedAt : Instant) (status : AnalysisStatus)
    (attempt : Token) : AnalysisCode Seconds :=
  pipeline.storing (.finishAnalysis request.runId startedAt status attempt) fun db now =>
    db.finishAnalysis request.runId startedAt status (some attempt) now

/-- `analyze`; `attempt` is the token it draws. -/
def analyze (request : AnalysisRequest) (attempt : Token) : AnalysisCode Unit := do
  let start ← Program.outcome (pipeline.storing (.beginAnalysis request.runId attempt) fun db now =>
    db.beginAnalysis request.runId (some attempt) now)
  match start with
  | .error (.superseded _) => return ()
  -- `started_at` is still `None`, so there is nothing to finish
  | .error exc => throw exc
  | .ok start =>
      let result ← Program.outcome (pipeline.analyzeStages request attempt)
      match result with
      | .error (.superseded _) => return ()
      | .error exc =>
          let finished ←
            Program.outcome (pipeline.finish request start.attemptStartedAt .failed attempt)
          match finished with
          | .error (.superseded _) => return ()
          | .error exc' => throw exc'
          | .ok _ => throw exc
      | .ok () =>
          let finished ←
            Program.outcome (pipeline.finish request start.attemptStartedAt .completed attempt)
          match finished with
          | .error (.superseded _) => return ()
          | .error exc => throw exc
          | .ok _ => return ()

end AnalysisPipeline

end PipeLens
