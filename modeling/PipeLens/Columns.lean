import Mathlib.Data.List.Sort
import PipeLens.Lib.Fields
import PipeLens.ModelDump

/-!
# Records in columns

`create_if_absent`, `get` and `_to_record` of `store.py` down to the columns: which value is
bound to a column, what the back end keeps of it, what it hands back, and how a record is
made of it. Datetimes have a wall clock and an offset from UTC here, of which SQLite keeps
the first and PostgreSQL the difference.
-/

namespace PipeLens

/-! ## Datetimes -/

/-- `datetime.min`, in microseconds since the epoch. -/
def minWall : Int := -62135596800000000

/-- `datetime.max`. -/
def maxWall : Int := 253402300799999999

def InRange (wall : Int) : Prop := minWall ≤ wall ∧ wall ≤ maxWall

instance (wall : Int) : Decidable (InRange wall) := inferInstanceAs (Decidable (_ ∧ _))

/-- A `datetime`: what a clock on the wall shows, and the offset of that clock from UTC. -/
structure Datetime where
  wall : Int
  /-- `utcoffset()`, in microseconds; `none` for a naive datetime. -/
  offset : Option Int
  inRange : InRange wall
  deriving DecidableEq

namespace Datetime

/-- The datetime that shows `wall`, unless its year is out of range. -/
def of? (wall : Int) (offset : Option Int) : Option Datetime :=
  if h : InRange wall then some ⟨wall, offset, h⟩ else none

/-- The moment that an aware datetime names. -/
def instant? (d : Datetime) : Option Instant := d.offset.map fun offset => d.wall - offset

/-- `a == b`. -/
def same (a b : Datetime) : Bool :=
  match a.instant?, b.instant? with
  | some i, some j => i == j
  | none, none => a.wall == b.wall
  | _, _ => false

/-- `_as_utc`; `none` where `astimezone` overflows. -/
def asUtc (d : Datetime) : Option Datetime :=
  match d.instant? with
  | none => some { d with offset := some 0 }
  | some i => of? i (some 0)

end Datetime

/-! ## Records -/

/-- The fields of an `AnalysisRecord` that are neither datetimes nor from other columns. -/
structure RecordFields where
  runId : Int
  deliveryId : String
  repository : String
  workflowName : String
  headSha : String
  htmlUrl : String
  runAttempt : Int := 1
  headBranch : Option String := none
  pullRequestNumber : Option Int := none
  installationId : Option Int := none
  trustLevel : TrustLevel := .unverified
  baselineSha : Option String := none
  status : AnalysisStatus := .queued
  classification : Option CheckedClassification := none
  diagnosis : Option CheckedDiagnosis := none
  relatedFiles : List CheckedFile := []
  workflowPath : Option String := none
  executionContext : Option ExecutionContext := none
  modelName : Option String := none
  promptVersion : Option String := none
  error : Option String := none
  durationSeconds : Option JsonFloat := none
  queueWaitSeconds : Option JsonFloat := none
  totalLatencySeconds : Option JsonFloat := none
  deriving DecidableEq

/-- `FeedbackRecord`. -/
structure TimedFeedback extends FeedbackRequest where
  runId : Int
  createdAt : Datetime
  updatedAt : Datetime
  deriving DecidableEq

/-- `ResolutionRecord`. -/
structure TimedResolution where
  outcome : ResolutionOutcome
  followupRunId : Int
  followupRunAttempt : Int
  followupHtmlUrl : String
  followupCompletedAt : Datetime
  recoverySeconds : JsonFloat
  deriving DecidableEq

/-- `AnalysisStageEvent`. -/
structure TimedStageEvent where
  stage : AnalysisStage
  status : StageStatus
  error : Option String
  occurredAt : Datetime
  deriving DecidableEq

/-- `AnalysisRecord`. -/
structure TimedRecord extends RecordFields where
  runCompletedAt : Option Datetime := none
  analysisStartedAt : Option Datetime := none
  analysisCompletedAt : Option Datetime := none
  createdAt : Datetime
  updatedAt : Datetime
  feedback : Option TimedFeedback := none
  resolution : Option TimedResolution := none
  stageHistory : List TimedStageEvent := []
  deriving DecidableEq

/-! ## Columns -/

inductive ColumnType where
  | integer | string | boolean | float | datetime | json
  deriving DecidableEq, Repr

/-- What is bound to a column, and what is fetched from it. -/
inductive PyValue where
  | plain (value : Json)
  | datetime (value : Datetime)

def PyValue.ofDatetime : Option Datetime → PyValue
  | none => .plain .null
  | some d => .datetime d

structure Column where
  name : String
  type : ColumnType
  nullable : Bool := true
  default : PyValue := .plain .null

def stringColumn (name : String) : Column := { name, type := .string }

def datetimeColumn (name : String) : Column := { name, type := .datetime }

def Column.required (column : Column) : Column := { column with nullable := false }

/-- The columns of `analyses`. -/
def analysesColumns : List Column :=
  [{ name := "run_id", type := .integer, nullable := false },
    (stringColumn "delivery_id").required,
    (stringColumn "repository").required,
    (stringColumn "workflow_name").required,
    (stringColumn "head_sha").required,
    (stringColumn "html_url").required,
    { name := "run_attempt", type := .integer, nullable := false, default := .plain (.int 1) },
    stringColumn "head_branch",
    { name := "pull_request_number", type := .integer },
    datetimeColumn "run_completed_at",
    { name := "installation_id", type := .integer },
    { name := "trust_level", type := .string, nullable := false,
      default := .plain (.str TrustLevel.unverified.value) },
    stringColumn "baseline_sha",
    (stringColumn "status").required,
    { name := "classification", type := .json },
    { name := "diagnosis", type := .json },
    { name := "related_files", type := .json, nullable := false, default := .plain (.list []) },
    stringColumn "workflow_path",
    { name := "execution_context", type := .json },
    stringColumn "model_name",
    stringColumn "prompt_version",
    stringColumn "error",
    datetimeColumn "analysis_started_at",
    datetimeColumn "analysis_completed_at",
    { name := "duration_seconds", type := .float },
    { name := "queue_wait_seconds", type := .float },
    { name := "total_latency_seconds", type := .float },
    stringColumn "resolution_outcome",
    { name := "resolution_run_id", type := .integer },
    { name := "resolution_run_attempt", type := .integer },
    stringColumn "resolution_html_url",
    datetimeColumn "resolution_completed_at",
    { name := "recovery_seconds", type := .float },
    stringColumn "attempt_token",
    (datetimeColumn "created_at").required,
    (datetimeColumn "updated_at").required]

/-- The columns of `analysis_stage_events`. -/
def stageEventColumns : List Column :=
  [{ name := "id", type := .integer, nullable := false },
    { name := "run_id", type := .integer, nullable := false },
    (stringColumn "stage").required,
    (stringColumn "status").required,
    stringColumn "error",
    (datetimeColumn "occurred_at").required]

/-- The columns of `analysis_feedback`. -/
def feedbackColumns : List Column :=
  [{ name := "run_id", type := .integer, nullable := false },
    stringColumn "accuracy",
    { name := "suggestion_resolved", type := .boolean },
    stringColumn "comment",
    (datetimeColumn "created_at").required,
    (datetimeColumn "updated_at").required]

/-! ## The back ends -/

/-- What the database keeps in a column. -/
inductive Cell where
  | null
  | plain (value : Json)
  /-- A `DateTime` of SQLite, which keeps what the clock shows. -/
  | wall (wall : Int)
  /-- A `timestamp with time zone` of PostgreSQL. -/
  | moment (instant : Instant)
  /-- The text of a JSON column. -/
  | json (text : String)

abbrev StoredRow := List (String × Cell)

def StoredRow.cell (row : StoredRow) (name : String) : Cell := (row.lookup name).getD .null

def StoredRow.int (row : StoredRow) (name : String) : Option Int :=
  match row.cell name with
  | .plain (.int n) => some n
  | _ => none

def StoredRow.str (row : StoredRow) (name : String) : Option String :=
  match row.cell name with
  | .plain (.str s) => some s
  | _ => none

inductive ColumnFailure where
  /-- The driver or the server refuses a value, or the driver cannot represent one. -/
  | driver
  /-- `astimezone` raises `OverflowError`. -/
  | overflow
  /-- `model_validate` raises. -/
  | validation
  deriving DecidableEq, Repr

/-- SQLAlchemy, the driver below it and the session. -/
structure Driver where
  backend : Backend
  /-- The offset of the time zone of a PostgreSQL session at a moment. -/
  zone : Instant → Int
  /-- The moment at which a clock in that time zone shows something. -/
  ofWall : Int → Instant
  /-- `json.dumps` and `json.loads`. -/
  dumps : Json → String
  loads : String → Option Json
  loads_dumps : ∀ value, loads (dumps value) = some value
  /-- Whether a value is refused: a text that is too long, an integer out of range. -/
  refuses : Column → PyValue → Bool

namespace Driver

variable (driver : Driver)

/-- What is kept of a value in a column of some type. -/
def keep (type : ColumnType) (value : PyValue) : Except ColumnFailure Cell :=
  match type, value with
  | .json, .plain value => .ok (.json (driver.dumps value))
  | _, .plain .null => .ok .null
  -- SQLite has no NaN
  | .float, .plain (.float .nan) =>
      match driver.backend with
      | .sqlite => .ok .null
      | .postgresql => .ok (.plain (.float .nan))
  | .datetime, .datetime d =>
      match driver.backend with
      | .sqlite => .ok (.wall d.wall)
      | .postgresql => .ok (.moment (d.instant?.getD (driver.ofWall d.wall)))
  | .datetime, .plain _ => .error .driver
  | _, .datetime _ => .error .driver
  | _, .plain value => .ok (.plain value)

def bind (column : Column) (value : PyValue) : Except ColumnFailure Cell :=
  if driver.refuses column value then .error .driver else driver.keep column.type value

/-- The datetime that is fetched. -/
def fetchDatetime : Cell → Option Datetime
  | .wall wall =>
      match driver.backend with
      | .sqlite => Datetime.of? wall none
      | .postgresql => none
  | .moment instant =>
      match driver.backend with
      | .sqlite => none
      | .postgresql => Datetime.of? (instant + driver.zone instant) (some (driver.zone instant))
  | _ => none

/-- What is handed back. -/
def fetch (type : ColumnType) (cell : Cell) : Except ColumnFailure PyValue :=
  match type, cell with
  | _, .null => .ok (.plain .null)
  | .json, .json text =>
      match driver.loads text with
      | some value => .ok (.plain value)
      | none => .error .driver
  | .json, _ => .error .driver
  | .datetime, cell =>
      match driver.fetchDatetime cell with
      | some d => .ok (.datetime d)
      | none => .error .driver
  | _, .plain value => .ok (.plain value)
  | _, _ => .error .driver

end Driver

/-- The tables. PostgreSQL sees to it that feedback and stage events belong to an analysis. -/
structure Tables (backend : Backend) where
  analyses : List StoredRow
  feedback : List StoredRow
  stageEvents : List StoredRow
  references : backend = .postgresql → ∀ row ∈ feedback ++ stageEvents,
    ∃ analysis ∈ analyses, analysis.int "run_id" = row.int "run_id"

namespace Columns

/-! ## `create_if_absent` -/

/-- The values that are inserted. -/
def insertValues (record : TimedRecord) : List (String × PyValue) :=
  let text (s : String) : PyValue := .plain (.str s)
  let integer (n : Int) : PyValue := .plain (.int n)
  let optionalText (s : Option String) : PyValue := .plain (.ofOption .str s)
  let optionalInteger (n : Option Int) : PyValue := .plain (.ofOption .int n)
  let optionalFloat (x : Option JsonFloat) : PyValue := .plain (.ofOption .float x)
  [("run_id", integer record.runId),
    ("delivery_id", text record.deliveryId),
    ("repository", text record.repository),
    ("workflow_name", text record.workflowName),
    ("head_sha", text record.headSha),
    ("html_url", text record.htmlUrl),
    ("run_attempt", integer record.runAttempt),
    ("head_branch", optionalText record.headBranch),
    ("pull_request_number", optionalInteger record.pullRequestNumber),
    ("run_completed_at", .ofDatetime record.runCompletedAt),
    ("installation_id", optionalInteger record.installationId),
    ("trust_level", text record.trustLevel.value),
    ("baseline_sha", optionalText record.baselineSha),
    ("status", text record.status.value),
    ("classification", .plain (.ofOption (fun c => c.val.dump) record.classification)),
    ("diagnosis", .plain (.ofOption (fun d => d.val.dump) record.diagnosis)),
    ("related_files", .plain (.list (record.relatedFiles.map fun f => f.val.dump))),
    ("workflow_path", optionalText record.workflowPath),
    ("execution_context", .plain (.ofOption ExecutionContext.dump record.executionContext)),
    ("model_name", optionalText record.modelName),
    ("prompt_version", optionalText record.promptVersion),
    ("error", optionalText record.error),
    ("analysis_started_at", .ofDatetime record.analysisStartedAt),
    ("analysis_completed_at", .ofDatetime record.analysisCompletedAt),
    ("duration_seconds", optionalFloat record.durationSeconds),
    ("queue_wait_seconds", optionalFloat record.queueWaitSeconds),
    ("total_latency_seconds", optionalFloat record.totalLatencySeconds),
    ("created_at", .datetime record.createdAt),
    ("updated_at", .datetime record.updatedAt)]

/-- What is bound to a column of the new row. -/
def bound (record : TimedRecord) (column : Column) : PyValue :=
  ((insertValues record).lookup column.name).getD column.default

/-- Whether a row has nothing in a column that needs something. -/
def lacksValue (row : StoredRow) : Bool :=
  analysesColumns.any fun column =>
    !column.nullable &&
      match row.cell column.name with
      | .null => true
      | _ => false

/-- Whether inserting a row raises `IntegrityError`. -/
def violates {backend : Backend} (tables : Tables backend) (row : StoredRow) : Bool :=
  lacksValue row || tables.analyses.any fun other =>
    other.int "run_id" == row.int "run_id" || other.str "delivery_id" == row.str "delivery_id"

/-- The tables with one more analysis. -/
def inserted {backend : Backend} (tables : Tables backend) (row : StoredRow) : Tables backend :=
  { tables with
    analyses := tables.analyses ++ [row]
    references := by
      intro hbackend other hother
      obtain ⟨analysis, hmem, hid⟩ := tables.references hbackend other hother
      exact ⟨analysis, List.mem_append_left _ hmem, hid⟩ }

/-- `create_if_absent`. -/
def createIfAbsent (driver : Driver) (tables : Tables driver.backend) (record : TimedRecord) :
    Except ColumnFailure (Tables driver.backend × Bool) := do
  let row ← Fields.build Column.name (fun column => driver.bind column (bound record column))
    analysesColumns
  return if violates tables row then (tables, false) else (inserted tables row, true)

/-! ## `get` -/

/-- A column of a `SELECT`: the name it goes by, and what it is taken from. -/
structure Selected where
  label : String
  column : Column
  joined : Bool

def feedbackLabel (column : Column) : String :=
  if column.name = "run_id" then "feedback_run_id"
  else if column.name = "accuracy" then "feedback_accuracy"
  else if column.name = "suggestion_resolved" then "feedback_suggestion_resolved"
  else if column.name = "comment" then "feedback_comment"
  else if column.name = "created_at" then "feedback_created_at"
  else "feedback_updated_at"

/-- The columns of `_analysis_select`. -/
def analysisSelect : List Selected :=
  analysesColumns.map (fun column => ⟨column.name, column, false⟩)
    ++ feedbackColumns.map fun column => ⟨feedbackLabel column, column, true⟩

abbrev Values := List (String × PyValue)

/-- One row of the outer join. -/
def fetchRow (driver : Driver) (row joined : StoredRow) : Except ColumnFailure Values :=
  Fields.build Selected.label (fun selected =>
    driver.fetch selected.column.type
      ((if selected.joined then joined else row).cell selected.column.name)) analysisSelect

/-- The field `name` of a model; a field without a default is required. -/
def field {α : Type} (values : Values) (name : String) (read : PyValue → Option α)
    (default : Option α) : Option α :=
  match values.lookup name with
  | some value => read value
  | none => default

/-- A value that is no datetime. -/
def plain {α : Type} (read : Json → Option α) : PyValue → Option α
  | .plain value => read value
  | .datetime _ => none

def datetime : PyValue → Option Datetime
  | .plain _ => none
  | .datetime d => some d

def optionalDatetime : PyValue → Option (Option Datetime)
  | .plain .null => some none
  | .plain _ => none
  | .datetime d => some (some d)

/-- `value if value is not None`, in UTC. -/
def optionalUtc : PyValue → Except ColumnFailure PyValue
  | .datetime d =>
      match d.asUtc with
      | some utc => .ok (.datetime utc)
      | none => .error .overflow
  | value => .ok value

open Json in
/-- `AnalysisRecord.model_validate`, for the fields of `RecordFields`. -/
def validateFields (values : Values) : Option RecordFields := do
  let optionalText := plain (optional text)
  let optionalInteger := plain (optional integer)
  let optionalFloat := plain (optional floating)
  let runId ← field values "run_id" (plain integer) none
  let deliveryId ← field values "delivery_id" (plain text) none
  let repository ← field values "repository" (plain text) none
  let workflowName ← field values "workflow_name" (plain text) none
  let headSha ← field values "head_sha" (plain text) none
  let htmlUrl ← field values "html_url" (plain text) none
  let runAttempt ← field values "run_attempt" (plain integer) (some 1)
  let headBranch ← field values "head_branch" optionalText (some none)
  let pullRequestNumber ← field values "pull_request_number" optionalInteger (some none)
  let installationId ← field values "installation_id" optionalInteger (some none)
  let trustLevel ← field values "trust_level" (plain (member TrustLevel.members TrustLevel.value))
    (some .unverified)
  let baselineSha ← field values "baseline_sha" optionalText (some none)
  let status ← field values "status" (plain (member AnalysisStatus.members AnalysisStatus.value))
    (some .queued)
  let classification ← field values "classification" (plain (optional Classification.validate))
    (some none)
  let diagnosis ← field values "diagnosis" (plain (optional Diagnosis.validate)) (some none)
  let relatedFiles ← field values "related_files" (plain (listOf RelatedFile.validate)) (some [])
  let workflowPath ← field values "workflow_path" optionalText (some none)
  let executionContext ← field values "execution_context"
    (plain (optional ExecutionContext.validate)) (some none)
  let modelName ← field values "model_name" optionalText (some none)
  let promptVersion ← field values "prompt_version" optionalText (some none)
  let error ← field values "error" optionalText (some none)
  let durationSeconds ← field values "duration_seconds" optionalFloat (some none)
  let queueWaitSeconds ← field values "queue_wait_seconds" optionalFloat (some none)
  let totalLatencySeconds ← field values "total_latency_seconds" optionalFloat (some none)
  return ⟨runId, deliveryId, repository, workflowName, headSha, htmlUrl, runAttempt, headBranch,
    pullRequestNumber, installationId, trustLevel, baselineSha, status, classification, diagnosis,
    relatedFiles, workflowPath, executionContext, modelName, promptVersion, error,
    durationSeconds, queueWaitSeconds, totalLatencySeconds⟩

open Json in
/-- `FeedbackRecord.model_validate`, from the labels of the join. -/
def validateFeedback (values : Values) : Option TimedFeedback := do
  let runId ← field values "feedback_run_id" (plain integer) none
  let accuracy ← field values "feedback_accuracy"
    (plain (optional (member FeedbackAccuracy.members FeedbackAccuracy.value))) none
  let suggestionResolved ← field values "feedback_suggestion_resolved" (plain (optional boolean))
    none
  let comment ← field values "feedback_comment" (plain (optional text)) none
  let createdAt ← field values "feedback_created_at" datetime none
  let updatedAt ← field values "feedback_updated_at" datetime none
  if h : (accuracy.isSome || suggestionResolved.isSome) = true
      ∧ comment.all (fun text => decide (text.length ≤ 2000)) = true then
    some ⟨⟨accuracy, suggestionResolved, comment, h.1, h.2⟩, runId, createdAt, updatedAt⟩
  else none

open Json in
/-- `ResolutionRecord.model_validate`. -/
def validateResolution (values : Values) : Option TimedResolution := do
  let outcome ← field values "resolution_outcome"
    (plain (member ResolutionOutcome.members ResolutionOutcome.value)) none
  let followupRunId ← field values "resolution_run_id" (plain integer) none
  let followupRunAttempt ← field values "resolution_run_attempt" (plain integer) none
  let followupHtmlUrl ← field values "resolution_html_url" (plain text) none
  let followupCompletedAt ← field values "resolution_completed_at" datetime none
  let recoverySeconds ← field values "recovery_seconds" (plain floating) none
  return ⟨outcome, followupRunId, followupRunAttempt, followupHtmlUrl, followupCompletedAt,
    recoverySeconds⟩

/-- `bool(value)`. -/
def truthy : Option PyValue → Bool
  | some (.plain (.int n)) => n != 0
  | some (.plain (.str s)) => s != ""
  | _ => false

def valid {α : Type} : Option α → Except ColumnFailure α
  | some a => .ok a
  | none => .error .validation

/-- A column of the dictionary, in UTC. -/
def inUtc (values : Values) (name : String) : Except ColumnFailure PyValue :=
  optionalUtc ((values.lookup name).getD (.plain .null))

/-- The feedback of a row, if any was joined. -/
def readFeedback (values : Values) : Except ColumnFailure (Option TimedFeedback) :=
  if truthy (values.lookup "feedback_run_id") then (valid (validateFeedback values)).map some
  else .ok none

def readResolution (values : Values) : Except ColumnFailure (Option TimedResolution) :=
  if truthy (values.lookup "resolution_outcome") then (valid (validateResolution values)).map some
  else .ok none

/-- `_to_record`. -/
def toTimedRecord (values : Values) (stageHistory : List TimedStageEvent) :
    Except ColumnFailure TimedRecord := do
  let runCompletedAt ← inUtc values "run_completed_at"
  let feedback ← readFeedback values
  let resolutionCompletedAt ← inUtc values "resolution_completed_at"
  let resolution ← readResolution (("resolution_completed_at", resolutionCompletedAt) :: values)
  let fields ← valid (validateFields values)
  let runCompletedAt ← valid (optionalDatetime runCompletedAt)
  let analysisStartedAt ← valid (field values "analysis_started_at" optionalDatetime (some none))
  let analysisCompletedAt ← valid
    (field values "analysis_completed_at" optionalDatetime (some none))
  let createdAt ← valid (field values "created_at" datetime none)
  let updatedAt ← valid (field values "updated_at" datetime none)
  return ⟨fields, runCompletedAt, analysisStartedAt, analysisCompletedAt, createdAt, updatedAt,
    feedback, resolution, stageHistory⟩

open Json in
/-- `AnalysisStageEvent.model_validate`. -/
def validateStageEvent (values : Values) : Option TimedStageEvent := do
  let stage ← field values "stage" (plain (member AnalysisStage.members AnalysisStage.value)) none
  let status ← field values "status" (plain (member StageStatus.members StageStatus.value)) none
  let error ← field values "error" (plain (optional text)) (some none)
  let occurredAt ← field values "occurred_at" datetime none
  return ⟨stage, status, error, occurredAt⟩

/-- One event of `_stage_history`. -/
def stageEvent (driver : Driver) (row : StoredRow) : Except ColumnFailure TimedStageEvent := do
  let values ← Fields.build Column.name
    (fun column => driver.fetch column.type (row.cell column.name)) stageEventColumns
  valid (validateStageEvent values)

/-- `_stage_history` of one run. -/
def stageHistory (driver : Driver) (tables : Tables driver.backend) (runId : Int) :
    Except ColumnFailure (List TimedStageEvent) :=
  let rows : List StoredRow := tables.stageEvents.filter fun row => row.int "run_id" == some runId
  let ordered := rows.insertionSort fun a b => (a.int "id").getD 0 ≤ (b.int "id").getD 0
  ordered.mapM (stageEvent driver)

/-- `installation_id IN (…)`; `none` for a caller that sees every installation. -/
def visible (installationIds : Option (List Int)) (row : StoredRow) : Bool :=
  match installationIds with
  | none => true
  | some ids => (row.int "installation_id").any ids.contains

/-- `get`. -/
def get (driver : Driver) (tables : Tables driver.backend) (runId : Int)
    (installationIds : Option (List Int)) : Except ColumnFailure (Option TimedRecord) :=
  if installationIds = some [] then .ok none
  else
    match tables.analyses.find? fun row =>
      row.int "run_id" == some runId && visible installationIds row with
    | none => .ok none
    | some row => do
        -- without feedback the columns of the outer join are null
        let joined := (tables.feedback.find? fun other => other.int "run_id" == some runId).getD []
        let values ← fetchRow driver row joined
        let events ← stageHistory driver tables runId
        let record ← toTimedRecord values events
        return some record

end Columns

end PipeLens
