import PipeLens.Lib.Table
import PipeLens.Models

/-!
# The analysis store

The `analyses` and `analysis_stage_events` tables of `store.py` and the operations
on them. Every public operation is one transaction: its statements run against
the database in order, and an exception rolls back what they did.

`UPDATE` statements are written as the rows they match and the values they set,
each a definition of its own. The statement-level results about concurrent
transactions reuse the same definitions.
-/

namespace PipeLens

/-- Back ends differ in where `ORDER BY … DESC` puts nulls. -/
inductive Backend where
  | sqlite | postgresql
  deriving DecidableEq, Repr

/-- A row of `analyses`. -/
structure AnalysisRow where
  runId : Int
  deliveryId : String
  repository : String
  workflowName : String
  headSha : String
  htmlUrl : String
  runAttempt : Int
  headBranch : Option String
  pullRequestNumber : Option Int
  runCompletedAt : Option Instant
  installationId : Option Int
  trustLevel : TrustLevel
  baselineSha : Option String
  status : AnalysisStatus
  classification : Option Classification
  diagnosis : Option Diagnosis
  relatedFiles : List RelatedFile
  workflowPath : Option String
  executionContext : Option ExecutionContext
  modelName : Option String
  promptVersion : Option String
  error : Option String
  analysisStartedAt : Option Instant
  analysisCompletedAt : Option Instant
  durationSeconds : Option Seconds
  queueWaitSeconds : Option Seconds
  totalLatencySeconds : Option Seconds
  resolutionOutcome : Option ResolutionOutcome
  resolutionRunId : Option Int
  resolutionRunAttempt : Option Int
  resolutionHtmlUrl : Option String
  resolutionCompletedAt : Option Instant
  recoverySeconds : Option Seconds
  attemptToken : Option Token
  createdAt : Instant
  updatedAt : Instant
  deriving DecidableEq, Repr

/-- A row of `analysis_stage_events`. -/
structure StageEvent where
  id : Nat
  runId : Int
  stage : AnalysisStage
  status : StageStatus
  error : Option String
  occurredAt : Instant
  deriving DecidableEq, Repr

/-- The two tables, and the next value of the event id sequence. -/
structure Db where
  analyses : Table AnalysisRow AnalysisRow.runId
  stageEvents : List StageEvent
  nextEventId : Nat

/-- What an operation can raise. -/
inductive StoreError where
  /-- `AnalysisAttemptSuperseded`. -/
  | superseded (message : String)
  /-- The foreign key of a stage event names no analysis. -/
  | integrity
  deriving DecidableEq, Repr

def doesNotExist (runId : Int) : StoreError := .superseded s!"analysis run {runId} does not exist"

def noLongerCurrent (runId : Int) : StoreError :=
  .superseded s!"analysis attempt for run {runId} is no longer current"

namespace Db

def empty : Db where
  analyses := Table.empty
  stageEvents := []
  nextEventId := 1

/-- `with engine.begin()`: commit what the body did, or roll it back on an exception. -/
def transaction {α : Type} (db : Db) (body : Db → Except StoreError (α × Db)) :
    Except StoreError α × Db :=
  match body db with
  | .ok (a, db') => (.ok a, db')
  | .error e => (.error e, db)

/-- The analysis of a run. -/
def row? (db : Db) (runId : Int) : Option AnalysisRow := db.analyses.find? runId

/-! ## `create_if_absent` -/

/-- The inserted values; the resolution columns and the attempt token start out null. -/
def insertValues (record : AnalysisRecord) : AnalysisRow where
  runId := record.runId
  deliveryId := record.deliveryId
  repository := record.repository
  workflowName := record.workflowName
  headSha := record.headSha
  htmlUrl := record.htmlUrl
  runAttempt := record.runAttempt
  headBranch := record.headBranch
  pullRequestNumber := record.pullRequestNumber
  runCompletedAt := record.runCompletedAt
  installationId := record.installationId
  trustLevel := record.trustLevel
  baselineSha := record.baselineSha
  status := record.status
  classification := record.classification
  diagnosis := record.diagnosis
  relatedFiles := record.relatedFiles
  workflowPath := record.workflowPath
  executionContext := record.executionContext
  modelName := record.modelName
  promptVersion := record.promptVersion
  error := record.error
  analysisStartedAt := record.analysisStartedAt
  analysisCompletedAt := record.analysisCompletedAt
  durationSeconds := record.durationSeconds
  queueWaitSeconds := record.queueWaitSeconds
  totalLatencySeconds := record.totalLatencySeconds
  resolutionOutcome := none
  resolutionRunId := none
  resolutionRunAttempt := none
  resolutionHtmlUrl := none
  resolutionCompletedAt := none
  recoverySeconds := none
  attemptToken := none
  createdAt := record.createdAt
  updatedAt := record.updatedAt

/-- `create_if_absent`: false on a duplicate run id or delivery id. -/
def createIfAbsent (db : Db) (record : AnalysisRecord) : Db × Bool :=
  -- both uniqueness constraints raise the same `IntegrityError`
  if db.analyses.rows.any (fun row => row.deliveryId == record.deliveryId) then (db, false)
  else
    match db.analyses.insert (insertValues record) with
    | none => (db, false)
    | some analyses => ({ db with analyses := analyses }, true)

end Db

/-! ## `record_followup_run` -/

/-- The arguments of `record_followup_run`. -/
structure FollowupRun where
  repository : String
  workflowName : String
  headBranch : Option String
  pullRequestNumber : Option Int
  runId : Int
  runAttempt : Int
  htmlUrl : String
  conclusion : String
  completedAt : Instant
  deriving DecidableEq, Repr

/-- `ResolutionMatch`. -/
structure ResolutionMatch where
  failedRunId : Int
  resolution : ResolutionRecord
  deriving DecidableEq, Repr

namespace FollowupRun

/-- `target_match`: by pull request, then by branch for analyses without one. -/
def targetMatch (f : FollowupRun) (row : AnalysisRow) : Bool :=
  match f.pullRequestNumber with
  | none => row.headBranch == f.headBranch
  | some number =>
      row.pullRequestNumber == some number ||
        match f.headBranch with
        | none => false
        | some branch => row.pullRequestNumber == none && row.headBranch == some branch

/-- `prior_run`. -/
def priorRun (f : FollowupRun) (row : AnalysisRow) : Bool :=
  decide (row.runId < f.runId) || (row.runId == f.runId && decide (row.runAttempt < f.runAttempt))

/-- `unresolved_or_same_run_retry`. -/
def unresolvedOrSameRunRetry (f : FollowupRun) (row : AnalysisRow) : Bool :=
  row.resolutionOutcome == none ||
    (row.runId == f.runId
      && row.resolutionOutcome == some .stillFailing
      && row.resolutionRunId == some f.runId
      && row.resolutionRunAttempt.any (fun attempt => decide (attempt < f.runAttempt)))

/-- The `WHERE` clause of the candidate query. -/
def isCandidate (f : FollowupRun) (row : AnalysisRow) : Bool :=
  row.repository == f.repository
    && row.workflowName == f.workflowName
    && f.unresolvedOrSameRunRetry row
    && f.targetMatch row
    && f.priorRun row

/-- `max(0.0, (completed_at - failed_at).total_seconds())`. -/
def recoverySeconds (f : FollowupRun) (candidate : AnalysisRow) : Seconds :=
  max 0 (totalSeconds (f.completedAt - candidate.runCompletedAt.getD candidate.createdAt))

def outcome (f : FollowupRun) : ResolutionOutcome :=
  if f.conclusion = "success" then .resolved else .stillFailing

/-- The values the update sets, given the candidate that was read. -/
def resolutionValues (f : FollowupRun) (candidate : AnalysisRow) (now : Instant)
    (row : AnalysisRow) : AnalysisRow :=
  { row with
    resolutionOutcome := some f.outcome
    resolutionRunId := some f.runId
    resolutionRunAttempt := some f.runAttempt
    resolutionHtmlUrl := some f.htmlUrl
    resolutionCompletedAt := some f.completedAt
    recoverySeconds := some (f.recoverySeconds candidate)
    updatedAt := now }

theorem resolutionValues_runId (f : FollowupRun) (candidate : AnalysisRow) (now : Instant)
    (row : AnalysisRow) : (f.resolutionValues candidate now row).runId = row.runId := rfl

/-- The two early returns of `record_followup_run`. -/
def isTracked (f : FollowupRun) : Bool :=
  (f.conclusion == "success" || f.conclusion == "failure")
    && !(f.headBranch.isNone && f.pullRequestNumber.isNone)

end FollowupRun

/-- Whether `x` is listed before `y` by `ORDER BY run_completed_at DESC`. -/
def completedBefore (backend : Backend) : Option Instant → Option Instant → Bool
  | some x, some y => decide (y < x)
  | none, some _ => backend == .postgresql
  -- nulls sort first on PostgreSQL and last on SQLite when the order is descending
  | some _, none => backend == .sqlite
  | none, none => false

/-- `ORDER BY run_completed_at DESC, run_id DESC, run_attempt DESC`. -/
def listedBefore (backend : Backend) (a b : AnalysisRow) : Bool :=
  completedBefore backend a.runCompletedAt b.runCompletedAt ||
    (a.runCompletedAt == b.runCompletedAt &&
      (decide (b.runId < a.runId) || (a.runId == b.runId && decide (b.runAttempt < a.runAttempt))))

namespace Db

/-- `record_followup_run`. -/
def recordFollowupRun (backend : Backend) (db : Db) (f : FollowupRun) (now : Instant) :
    Db × Option ResolutionMatch :=
  if f.isTracked then
    match db.analyses.selectFirst f.isCandidate (listedBefore backend) with
    | none => (db, none)
    | some candidate =>
        -- the update repeats the condition that a concurrent call may have made false
        let updated := db.analyses.updateKey candidate.runId f.unresolvedOrSameRunRetry
          (f.resolutionValues candidate now) (f.resolutionValues_runId candidate now)
        if updated.2 != 1 then ({ db with analyses := updated.1 }, none)
        else
          ({ db with analyses := updated.1 },
            some {
              failedRunId := candidate.runId
              resolution := {
                outcome := f.outcome
                followupRunId := f.runId
                followupRunAttempt := f.runAttempt
                followupHtmlUrl := f.htmlUrl
                followupCompletedAt := f.completedAt
                recoverySeconds := f.recoverySeconds candidate } })
  else (db, none)

end Db

/-! ## Attempts -/

/-- The optional values of `update`; `none` leaves the column alone, except for `error`. -/
structure UpdateValues where
  classification : Option Classification := none
  diagnosis : Option Diagnosis := none
  relatedFiles : Option (List RelatedFile) := none
  workflowPath : Option String := none
  executionContext : Option ExecutionContext := none
  modelName : Option String := none
  promptVersion : Option String := none
  trustLevel : Option TrustLevel := none
  baselineSha : Option String := none
  error : Option String := none
  deriving DecidableEq, Repr

/-- `AnalysisStart`. -/
structure AnalysisStart where
  attemptStartedAt : Instant
  queueWaitSeconds : Seconds
  firstStart : Bool
  deriving DecidableEq, Repr

/-- The extra condition `attempt_token = :token` of a fenced statement. -/
def holdsToken (token : Option Token) (row : AnalysisRow) : Bool :=
  match token with
  | none => true
  | some t => row.attemptToken == some t

/-- The extra condition `status IN ('queued', 'running')` of a fenced `begin_analysis`. -/
def mayStart (token : Option Token) (row : AnalysisRow) : Bool :=
  match token with
  | none => true
  | some _ => row.status == .queued || row.status == .running

/-- The values `update` sets. -/
def updateValues (status : AnalysisStatus) (values : UpdateValues) (now : Instant)
    (row : AnalysisRow) : AnalysisRow :=
  { row with
    status := status
    -- always assigned, so a call without an error clears an old one
    error := values.error
    updatedAt := now
    classification := values.classification.or row.classification
    diagnosis := values.diagnosis.or row.diagnosis
    relatedFiles := values.relatedFiles.getD row.relatedFiles
    workflowPath := values.workflowPath.or row.workflowPath
    executionContext := values.executionContext.or row.executionContext
    modelName := values.modelName.or row.modelName
    promptVersion := values.promptVersion.or row.promptVersion
    trustLevel := values.trustLevel.getD row.trustLevel
    baselineSha := values.baselineSha.or row.baselineSha }

theorem updateValues_runId (status : AnalysisStatus) (values : UpdateValues) (now : Instant)
    (row : AnalysisRow) : (updateValues status values now row).runId = row.runId := rfl

/-- `queue_wait_seconds`, measured by the first start and kept from then on. -/
def queueWait (timing : AnalysisRow) (startedAt : Instant) : Seconds :=
  timing.queueWaitSeconds.getD (max 0 (totalSeconds (startedAt - timing.createdAt)))

/-- The values `begin_analysis` sets, given the timing columns it read before. -/
def beginValues (token : Option Token) (timing : AnalysisRow) (startedAt : Instant)
    (row : AnalysisRow) : AnalysisRow :=
  { row with
    status := .running
    error := none
    attemptToken := token
    analysisStartedAt := some (timing.analysisStartedAt.getD startedAt)
    analysisCompletedAt := none
    durationSeconds := none
    queueWaitSeconds := some (queueWait timing startedAt)
    -- the timings of an attempt that did not finish are dropped, its start time is kept
    totalLatencySeconds := none
    updatedAt := startedAt }

theorem beginValues_runId (token : Option Token) (timing : AnalysisRow) (startedAt : Instant)
    (row : AnalysisRow) : (beginValues token timing startedAt row).runId = row.runId := rfl

/-- What `begin_analysis` returns. -/
def analysisStart (timing : AnalysisRow) (startedAt : Instant) : AnalysisStart where
  attemptStartedAt := startedAt
  queueWaitSeconds := queueWait timing startedAt
  firstStart := timing.analysisStartedAt.isNone

/-- `begin_analysis` closes the stages an earlier attempt left open. -/
def supersedeEvent (runId : Int) (event : StageEvent) : StageEvent :=
  if event.runId = runId ∧ event.status = .started then
    { event with status := .failed, error := some "Superseded by a newer analysis attempt" }
  else event

/-- The values `finish_analysis` sets. -/
def finishValues (status : AnalysisStatus) (startedAt completedAt createdAt : Instant)
    (row : AnalysisRow) : AnalysisRow :=
  { row with
    status := status
    attemptToken := none
    analysisCompletedAt := some completedAt
    durationSeconds := some (totalSeconds (completedAt - startedAt))
    totalLatencySeconds := some (max 0 (totalSeconds (completedAt - createdAt)))
    updatedAt := completedAt }

theorem finishValues_runId (status : AnalysisStatus) (startedAt completedAt createdAt : Instant)
    (row : AnalysisRow) :
    (finishValues status startedAt completedAt createdAt row).runId = row.runId := rfl

/-- `_require_current_attempt`. -/
def requireCurrentAttempt (rowcount : Nat) (runId : Int) (token : Option Token) :
    Except StoreError Unit :=
  if token.isSome && rowcount != 1 then .error (noLongerCurrent runId) else .ok ()

namespace Db

/-- `update`. -/
def update (db : Db) (runId : Int) (status : AnalysisStatus) (values : UpdateValues)
    (token : Option Token) (now : Instant) : Except StoreError Unit × Db :=
  db.transaction fun db =>
    let updated := db.analyses.updateKey runId (holdsToken token)
      (updateValues status values now) (updateValues_runId status values now)
    match requireCurrentAttempt updated.2 runId token with
    | .error e => .error e
    | .ok () => .ok ((), { db with analyses := updated.1 })

/-- `begin_analysis`. -/
def beginAnalysis (db : Db) (runId : Int) (token : Option Token) (startedAt : Instant) :
    Except StoreError AnalysisStart × Db :=
  db.transaction fun db =>
    match db.row? runId with
    | none => .error (doesNotExist runId)
    | some timing =>
        let updated := db.analyses.updateKey runId (mayStart token)
          (beginValues token timing startedAt) (beginValues_runId token timing startedAt)
        match requireCurrentAttempt updated.2 runId token with
        | .error e => .error e
        | .ok () =>
            .ok (analysisStart timing startedAt,
              { db with
                analyses := updated.1
                stageEvents :=
                  -- a begin without a token leaves the events of other attempts open
                  if token.isSome then db.stageEvents.map (supersedeEvent runId)
                  else db.stageEvents })

/-- `finish_analysis`. -/
def finishAnalysis (db : Db) (runId : Int) (startedAt : Instant) (status : AnalysisStatus)
    (token : Option Token) (completedAt : Instant) : Except StoreError Seconds × Db :=
  db.transaction fun db =>
    match db.row? runId with
    | none => .error (doesNotExist runId)
    | some row =>
        let updated := db.analyses.updateKey runId (holdsToken token)
          (finishValues status startedAt completedAt row.createdAt)
          (finishValues_runId status startedAt completedAt row.createdAt)
        match requireCurrentAttempt updated.2 runId token with
        | .error e => .error e
        | .ok () =>
            .ok (max 0 (totalSeconds (completedAt - row.createdAt)),
              { db with analyses := updated.1 })

/-- The inserted stage event. -/
def newEvent (db : Db) (runId : Int) (stage : AnalysisStage) (status : StageStatus)
    (error : Option String) (now : Instant) : StageEvent where
  id := db.nextEventId
  runId := runId
  stage := stage
  status := status
  error := error
  occurredAt := now

/-- `record_stage`. Without a token, and without the run, PostgreSQL refuses the insert; SQLite, as
the store opens it, would keep the event. The pipeline always passes a token. -/
def recordStage (db : Db) (runId : Int) (stage : AnalysisStage) (status : StageStatus)
    (error : Option String) (token : Option Token) (now : Instant) :
    Except StoreError Unit × Db :=
  db.transaction fun db =>
    if token.isSome && ((db.row? runId).filter (holdsToken token)).isNone then
      .error (noLongerCurrent runId)
    -- without a token nothing is checked but the foreign key, as on PostgreSQL
    else if (db.row? runId).isNone then .error .integrity
    else
      .ok ((), { db with
        stageEvents := db.stageEvents ++ [db.newEvent runId stage status error now]
        nextEventId := db.nextEventId + 1 })

end Db

end PipeLens
