import Mathlib.Data.Finset.Basic
import Mathlib.Data.Prod.Lex
import PipeLens.Lib.Keyset
import PipeLens.Store

/-!
# Reading analyses back

`get`, `list_page` and `save_feedback` of `store.py`, with the joins and the second
query they make: an analysis comes with its feedback (an outer join on the run id)
and with its stage history (all events of the runs on the page, by event id).

`Database` is the tables these read. Its fields say what the other operations of
the store leave true of every row: primary keys are unique, and the resolution
columns of an analysis are set together.
-/

namespace PipeLens

/-- The columns `record_followup_run` writes are all null or all set. -/
def resolutionSet (row : AnalysisRow) : Bool :=
  (row.resolutionOutcome.isNone && row.resolutionRunId.isNone && row.resolutionRunAttempt.isNone
    && row.resolutionHtmlUrl.isNone && row.resolutionCompletedAt.isNone
    && row.recoverySeconds.isNone)
  || (row.resolutionOutcome.isSome && row.resolutionRunId.isSome && row.resolutionRunAttempt.isSome
    && row.resolutionHtmlUrl.isSome && row.resolutionCompletedAt.isSome
    && row.recoverySeconds.isSome)

/-- The store with `analysis_feedback`. -/
structure Database extends Db where
  feedback : Table FeedbackRecord FeedbackRecord.runId
  eventIds : (stageEvents.map StageEvent.id).Nodup
  resolutions : ∀ row ∈ analyses.rows, resolutionSet row = true

/-- What a query can raise. -/
inductive QueryError where
  /-- PostgreSQL refuses a negative `LIMIT`. -/
  | negativeLimit
  /-- `model_validate` refuses the values of a row. -/
  | validation
  deriving DecidableEq, Repr

/-- `AnalysisCursor`. -/
structure AnalysisCursor where
  createdAt : Instant
  runId : Int
  deriving DecidableEq, Repr

/-- `AnalysisPage`. -/
structure AnalysisPage where
  records : List AnalysisDetail
  nextCursor : Option AnalysisCursor
  deriving DecidableEq, Repr

/-- The arguments of `list_page` besides the limit and the cursor. -/
structure AnalysisFilter where
  /-- `None` for callers that see every installation. -/
  installationIds : Option (Finset Int)
  repository : Option String := none
  status : Option AnalysisStatus := none
  category : Option ErrorCategory := none

/-! ## Rows -/

/-- `installation_id IN (…)`; a null matches nothing. -/
def installationIn (installationIds : Option (Finset Int)) (row : AnalysisRow) : Bool :=
  match installationIds with
  | none => true
  | some ids => row.installationId.any (fun id => decide (id ∈ ids))

/-- A condition that is left out when there is no value to compare with. -/
def optionalEq {α : Type} [DecidableEq α] (wanted : Option α) (value : Option α) : Bool :=
  match wanted with
  | none => true
  | some _ => decide (value = wanted)

/-- The `WHERE` clause of `list_page`, less the cursor. -/
def AnalysisFilter.matches (filter : AnalysisFilter) (row : AnalysisRow) : Bool :=
  installationIn filter.installationIds row
    && optionalEq filter.repository (some row.repository)
    && optionalEq filter.status (some row.status)
    && optionalEq filter.category (row.classification.map (·.category))

/-- The condition on the cursor: strictly after it in the order of the list. -/
def afterCursor (cursor : Option AnalysisCursor) (row : AnalysisRow) : Bool :=
  match cursor with
  | none => true
  | some c =>
      decide (row.createdAt < c.createdAt)
        || (decide (row.createdAt = c.createdAt) && decide (row.runId < c.runId))

/-- The key of `ORDER BY created_at DESC, run_id DESC`. -/
def listKey (row : AnalysisRow) : Instant ×ₗ Int := toLex (row.createdAt, row.runId)

/-- `resolution` of `_to_record`. -/
def toResolution (row : AnalysisRow) : Except QueryError (Option ResolutionRecord) :=
  match row.resolutionOutcome with
  | none => .ok none
  | some outcome =>
      match row.resolutionRunId, row.resolutionRunAttempt, row.resolutionHtmlUrl,
        row.resolutionCompletedAt, row.recoverySeconds with
      | some runId, some runAttempt, some htmlUrl, some completedAt, some recoverySeconds =>
          .ok (some {
            outcome := outcome
            followupRunId := runId
            followupRunAttempt := runAttempt
            followupHtmlUrl := htmlUrl
            followupCompletedAt := completedAt
            recoverySeconds := recoverySeconds })
      | _, _, _, _, _ => .error .validation

/-- `_to_record`; the attempt token is no field of the record. -/
def toRecord (row : AnalysisRow) (feedback : Option FeedbackRecord)
    (stageHistory : List AnalysisStageEvent) : Except QueryError AnalysisDetail :=
  match toResolution row with
  | .error e => .error e
  | .ok resolution =>
      .ok {
        runId := row.runId
        deliveryId := row.deliveryId
        repository := row.repository
        workflowName := row.workflowName
        headSha := row.headSha
        htmlUrl := row.htmlUrl
        runAttempt := row.runAttempt
        headBranch := row.headBranch
        pullRequestNumber := row.pullRequestNumber
        runCompletedAt := row.runCompletedAt
        installationId := row.installationId
        trustLevel := row.trustLevel
        baselineSha := row.baselineSha
        status := row.status
        classification := row.classification
        diagnosis := row.diagnosis
        relatedFiles := row.relatedFiles
        workflowPath := row.workflowPath
        executionContext := row.executionContext
        modelName := row.modelName
        promptVersion := row.promptVersion
        error := row.error
        analysisStartedAt := row.analysisStartedAt
        analysisCompletedAt := row.analysisCompletedAt
        durationSeconds := row.durationSeconds
        queueWaitSeconds := row.queueWaitSeconds
        totalLatencySeconds := row.totalLatencySeconds
        createdAt := row.createdAt
        updatedAt := row.updatedAt
        -- `if feedback_run_id`: a joined row counts only under a run id other than zero
        feedback := feedback.filter (fun f => f.runId != 0)
        resolution := resolution
        stageHistory := stageHistory }

/-- `AnalysisStageEvent.model_validate`, the id and the run id taken out. -/
def StageEvent.view (event : StageEvent) : AnalysisStageEvent where
  stage := event.stage
  status := event.status
  error := event.error
  occurredAt := event.occurredAt

/-! ## Queries -/

/-- `LIMIT n`; SQLite takes a negative one for none. -/
def sqlLimit {α : Type} (backend : Backend) (n : Int) (rows : List α) :
    Except QueryError (List α) :=
  if 0 ≤ n then .ok (rows.take n.toNat)
  else
    match backend with
    | .sqlite => .ok rows
    | .postgresql => .error .negativeLimit

/-- `rows[:n]`; a negative bound counts from the end. -/
def pySlice {α : Type} (n : Int) (rows : List α) : List α :=
  if 0 ≤ n then rows.take n.toNat else rows.take (rows.length - n.natAbs)

namespace Database

/-- `_stage_history` of `run_ids`, looked up under `runId`. -/
def stageHistory (db : Database) (runIds : List Int) (runId : Int) : List AnalysisStageEvent :=
  if runId ∈ runIds then
    (((db.stageEvents.filter fun event => decide (event.runId ∈ runIds)).insertionSort
      fun a b => a.id ≤ b.id).filter fun event => decide (event.runId = runId)).map StageEvent.view
  else []

/-- `get`. -/
def get (db : Database) (runId : Int) (installationIds : Option (Finset Int)) :
    Except QueryError (Option AnalysisDetail) :=
  if installationIds = some ∅ then .ok none
  else
    match (db.row? runId).filter (installationIn installationIds) with
    | none => .ok none
    | some row =>
        (toRecord row (db.feedback.find? row.runId) (db.stageHistory [runId] runId)).map some

/-- `list_page`. -/
def listPage (backend : Backend) (db : Database) (limit : Int) (filter : AnalysisFilter)
    (cursor : Option AnalysisCursor) : Except QueryError AnalysisPage :=
  if filter.installationIds = some ∅ then .ok ⟨[], none⟩
  else do
    let rows ← sqlLimit backend (limit + 1)
      (Keyset.orderDesc listKey
        (db.analyses.select fun row => filter.matches row && afterCursor cursor row))
    let pageRows := pySlice limit rows
    let records ← pageRows.mapM fun row =>
      toRecord row (db.feedback.find? row.runId)
        (db.stageHistory (pageRows.map AnalysisRow.runId) row.runId)
    let nextCursor :=
      -- the row beyond the limit only tells that there is a next page
      if limit < rows.length then
        pageRows.getLast?.map fun last => { createdAt := last.createdAt, runId := last.runId }
      else none
    return ⟨records, nextCursor⟩

/-- The values `save_feedback` writes over an existing row. -/
def feedbackValues (request : FeedbackRequest) (now : Instant) (row : FeedbackRecord) :
    FeedbackRecord :=
  { row with toFeedbackRequest := request, updatedAt := now }

theorem feedbackValues_runId (request : FeedbackRequest) (now : Instant) (row : FeedbackRecord) :
    (feedbackValues request now row).runId = row.runId := rfl

/-- `save_feedback`; `none` when the caller may not see the analysis. -/
def saveFeedback (db : Database) (runId : Int) (request : FeedbackRequest)
    (installationIds : Option (Finset Int)) (now : Instant) : Database × Option FeedbackRecord :=
  if installationIds = some ∅ then (db, none)
  else
    match (db.row? runId).filter (installationIn installationIds) with
    | none => (db, none)
    | some _ =>
        let record : FeedbackRecord :=
          { toFeedbackRequest := request, runId := runId, createdAt := now, updatedAt := now }
        let feedback :=
          match db.feedback.find? runId with
          | some _ =>
              (db.feedback.updateKey runId (fun _ => true) (feedbackValues request now)
                (feedbackValues_runId request now)).1
          -- the key is free, so the insert is not refused
          | none => (db.feedback.insert record).getD db.feedback
        ({ db with feedback := feedback }, feedback.find? runId)

end Database

end PipeLens
