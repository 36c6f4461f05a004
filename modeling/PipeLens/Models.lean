import Mathlib.Data.Rat.Defs
import PipeLens.Lib.Binary64

/-!
# The data model

The enumerations and records of `models.py`. Instants and durations are integers
in microseconds, the resolution of `datetime`; `total_seconds()` makes floats of
them. Attempt tokens and worker ids are `uuid4` values, that is 128-bit numbers,
and are compared for equality only.
-/

namespace PipeLens

/-- A moment, in microseconds since the epoch, after `_as_utc`. -/
abbrev Instant := Int

/-- A length of time in microseconds. -/
abbrev Duration := Int

/-- A float of seconds, as the rational that it is. -/
abbrev Seconds := Rat

/-- `total_seconds()`, which rounds once. -/
def totalSeconds (d : Duration) : Seconds := Binary64.round (d / 1000000)

theorem totalSeconds_nonneg {d : Duration} (h : 0 ≤ d) : 0 ≤ totalSeconds d :=
  Binary64.round_nonneg (div_nonneg (Int.cast_nonneg h) (by decide))

/-- `uuid.uuid4().hex`, drawn anew by every call of `AnalysisPipeline.analyze`. -/
abbrev Token := Nat

inductive AnalysisStatus where
  | queued | running | completed | failed
  deriving DecidableEq, Repr

inductive AnalysisStage where
  | collecting | sanitizing | classifying | correlating | diagnosing | publishing
  deriving DecidableEq, Repr

inductive StageStatus where
  | started | completed | failed
  deriving DecidableEq, Repr

inductive ErrorCategory where
  | test | build | dependency | lint | docker | deployAuth | missingEnv | timeout | resource
  | workflow | security | unknown
  deriving DecidableEq, Repr

def ErrorCategory.value : ErrorCategory → String
  | .test => "test_failure"
  | .build => "build_failure"
  | .dependency => "dependency_installation_failure"
  | .lint => "lint_or_formatter_failure"
  | .docker => "docker_build_failure"
  | .deployAuth => "deployment_authentication_failure"
  | .missingEnv => "missing_environment_variable"
  | .timeout => "timeout"
  | .resource => "resource_exhaustion"
  | .workflow => "github_actions_workflow_error"
  | .security => "security_scan_failure"
  | .unknown => "unknown"

inductive TrustLevel where
  | trusted | untrustedFork | unverified
  deriving DecidableEq, Repr

inductive FeedbackAccuracy where
  | accurate | partially | inaccurate
  deriving DecidableEq, Repr

inductive ResolutionOutcome where
  | resolved | stillFailing
  deriving DecidableEq, Repr

structure Evidence where
  source : String
  content : String
  location : Option String := none
  deriving DecidableEq, Repr

structure Classification where
  category : ErrorCategory
  confidence : Rat
  firstError : String
  relatedStep : Option String := none
  matchedRules : List String := []
  deriving DecidableEq, Repr

inductive SuggestionSource where
  | rule | llm
  deriving DecidableEq, Repr

structure Suggestion where
  description : String
  file : Option String := none
  patch : Option String := none
  source : Option SuggestionSource := none
  patchVerified : Bool := false
  deriving DecidableEq, Repr

structure Diagnosis where
  summary : String
  rootCause : String
  confidence : Rat
  evidence : List Evidence
  suggestions : List Suggestion := []
  conflicts : List String := []
  notes : List String := []
  deriving DecidableEq, Repr

structure ChangedFile where
  filename : String
  status : String
  patch : Option String := none
  previousFilename : Option String := none
  deriving DecidableEq, Repr

structure RepositoryContext where
  changedFiles : List ChangedFile := []
  workflowPath : Option String := none
  workflowContent : Option String := none
  pullRequestNumber : Option Int := none
  trustLevel : TrustLevel := .unverified
  baselineSha : Option String := none
  deriving DecidableEq, Repr

structure RelatedFile where
  filename : String
  score : Rat
  reasons : List String
  patchExcerpt : Option String := none
  deriving DecidableEq, Repr

structure FailedJobContext where
  name : String
  failedSteps : List String := []
  runnerLabels : List String := []
  deriving DecidableEq, Repr

structure ExecutionContext where
  workflowName : Option String := none
  headBranch : Option String := none
  failedJobs : List FailedJobContext := []
  deriving DecidableEq, Repr

structure ResolutionRecord where
  outcome : ResolutionOutcome
  followupRunId : Int
  followupRunAttempt : Int
  followupHtmlUrl : String
  followupCompletedAt : Instant
  recoverySeconds : Seconds
  deriving DecidableEq, Repr

/-- `FeedbackRequest`; the validators make it say something, in at most 2,000 characters. -/
structure FeedbackRequest where
  accuracy : Option FeedbackAccuracy
  suggestionResolved : Option Bool
  comment : Option String
  given : accuracy.isSome || suggestionResolved.isSome
  short : comment.all (fun text => decide (text.length ≤ 2000))
  deriving DecidableEq, Repr

/-- `FeedbackRecord`, also the type of the rows of `analysis_feedback`. -/
structure FeedbackRecord extends FeedbackRequest where
  runId : Int
  createdAt : Instant
  updatedAt : Instant
  deriving DecidableEq, Repr

structure AnalysisStageEvent where
  stage : AnalysisStage
  status : StageStatus
  error : Option String
  occurredAt : Instant
  deriving DecidableEq, Repr

/--
What `create_if_absent` reads of an `AnalysisRecord`. Feedback, resolution and
stage history live in columns and tables of their own and are not inserted.
-/
structure AnalysisRecord where
  runId : Int
  deliveryId : String
  repository : String
  workflowName : String
  headSha : String
  htmlUrl : String
  runAttempt : Int := 1
  headBranch : Option String := none
  pullRequestNumber : Option Int := none
  runCompletedAt : Option Instant := none
  installationId : Option Int := none
  trustLevel : TrustLevel := .unverified
  baselineSha : Option String := none
  status : AnalysisStatus := .queued
  classification : Option Classification := none
  diagnosis : Option Diagnosis := none
  relatedFiles : List RelatedFile := []
  workflowPath : Option String := none
  executionContext : Option ExecutionContext := none
  modelName : Option String := none
  promptVersion : Option String := none
  error : Option String := none
  analysisStartedAt : Option Instant := none
  analysisCompletedAt : Option Instant := none
  durationSeconds : Option Seconds := none
  queueWaitSeconds : Option Seconds := none
  totalLatencySeconds : Option Seconds := none
  createdAt : Instant
  updatedAt : Instant
  deriving DecidableEq, Repr

/-- An `AnalysisRecord` with all the store reads back. -/
structure AnalysisDetail extends AnalysisRecord where
  feedback : Option FeedbackRecord
  resolution : Option ResolutionRecord
  stageHistory : List AnalysisStageEvent
  deriving DecidableEq, Repr

structure AnalysisRequest where
  runId : Int
  repository : String
  installationId : Int
  headSha : String
  deriving DecidableEq, Repr

end PipeLens
