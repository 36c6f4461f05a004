import PipeLens.Webhook

/-!
# Webhook payloads

How `github_webhook` reads the body it is sent. The signature has been verified and the
event is `workflow_run`, but the body may be any JSON value. Every step that can raise is
kept, with the exception it raises: some are answered with `400`, the others end the
handling as an internal error.

The reading goes on after the first store call, so a payload can be found to be malformed
when the follow-up is already committed.
-/

namespace PipeLens

/-- A JSON number with a fraction or an exponent, and what else `json.loads` reads as one. -/
inductive JsonFloat where
  | finite (value : Rat)
  | infinite (negative : Bool)
  | nan
  deriving DecidableEq, Repr

/-- What `json.loads` returns. -/
inductive Json where
  | null
  | bool (value : Bool)
  | int (value : Int)
  | float (value : JsonFloat)
  | str (value : String)
  | list (items : List Json)
  | dict (fields : List (String × Json))

/-- The exceptions that reading a payload raises. -/
inductive PyException where
  | keyError | typeError | valueError | attributeError | overflowError
  deriving DecidableEq, Repr

/-- What `datetime.fromisoformat` returns. -/
inductive ParsedTime where
  | naive
  /-- With a timezone; `none` where `astimezone(UTC)` overflows. -/
  | aware (utc : Option Instant)
  deriving DecidableEq, Repr

/-- How the driver takes a value for a text column. -/
inductive Binding where
  | refused
  /-- The comparison becomes `IS NULL`. -/
  | null
  | text (value : String)
  deriving DecidableEq, Repr

/-- The parts of Python, pydantic and the driver that a payload's values go through. -/
structure Runtime where
  /-- `int(text)`; `none` when it raises `ValueError`. -/
  intOfText : String → Option Int
  /-- `str(value)` of anything but a string. -/
  repr : Json → String
  /-- `datetime.fromisoformat`; `none` when it raises `ValueError`. -/
  fromisoformat : String → Option ParsedTime
  /-- What pydantic makes of a value for a field of type `int`. -/
  validateInt : Json → Option Int
  /-- How a value that is neither a string nor null is bound. -/
  bindOther : Json → Binding
  /-- Whether the driver raises on the values of the follow-up call. -/
  followupRefused : Json → FollowupRun → Bool
  /-- Whether it raises on those of the new record. -/
  createRefused : Json → AnalysisRecord → Bool

namespace Json

/-- `value[key]`. -/
def index (value : Json) (key : String) : Except PyException Json :=
  match value with
  | .dict fields =>
      match fields.lookup key with
      | some value => .ok value
      | none => .error .keyError
  | _ => .error .typeError

/-- `value.get(key, default)`. -/
def get (value : Json) (key : String) (default : Json) : Except PyException Json :=
  match value with
  | .dict fields => .ok ((fields.lookup key).getD default)
  | _ => .error .attributeError

/-- `isinstance(value, int)`, and its value; a boolean is an integer. -/
def int? : Json → Option Int
  | .int n => some n
  | .bool b => some (if b then 1 else 0)
  | _ => none

def str? : Json → Option String
  | .str s => some s
  | _ => none

end Json

namespace Runtime

/-- `int(value)`. -/
def int (runtime : Runtime) : Json → Except PyException Int
  | .int n => .ok n
  | .bool b => .ok (if b then 1 else 0)
  | .float (.finite q) => .ok (q.num.tdiv q.den)
  | .float (.infinite _) => .error .overflowError
  | .float .nan => .error .valueError
  | .str s =>
      match runtime.intOfText s with
      | some n => .ok n
      | none => .error .valueError
  | _ => .error .typeError

/-- `str(value)`. -/
def str (runtime : Runtime) : Json → String
  | .str s => s
  | value => runtime.repr value

/-- `_workflow_run_completed_at`, where a value that is not a string means now. -/
def workflowRunCompletedAt (runtime : Runtime) : Json → Except PyException (Option Instant)
  | .str s =>
      match runtime.fromisoformat (s.replace "Z" "+00:00") with
      | none => .error .valueError
      | some .naive => .error .valueError
      | some (.aware none) => .error .overflowError
      | some (.aware (some utc)) => .ok (some utc)
  | _ => .ok none

def bind (runtime : Runtime) : Json → Binding
  | .str s => .text s
  | .null => .null
  | value => runtime.bindOther value

end Runtime

/-- `_pull_request_number`. -/
def pullRequestNumber (pullRequests : Json) : Option Int :=
  match pullRequests with
  | .list items => items.findSome? fun
      | .dict fields => (fields.lookup "number").bind Json.int?
      | _ => none
  | _ => none

/-- What the handler has read of a payload when it makes its first store call. -/
structure IncomingRun where
  deliveryId : String
  /-- `repository.full_name`, whatever it is. -/
  repository : Json
  /-- `workflow_run`. -/
  run : Json
  runId : Int
  runAttempt : Int
  runAttempt_pos : 1 ≤ runAttempt
  workflowName : String
  headBranch : Option String
  pullRequestNumber : Option Int
  updatedAt : Option Instant
  htmlUrl : String
  conclusion : Conclusion

/-- An exception that a `try` statement answers, or else ends the handling with. -/
def answering {α : Type} (caught : List PyException) :
    Except PyException α → Except WebhookResponse α
  | .ok value => .ok value
  | .error e =>
      if e ∈ caught then .error (.badRequest "invalid workflow_run payload")
      else .error .internalError

/-- The fields of the run that are read in one `try` statement. -/
def readFields (runtime : Runtime) (deliveryId : String) (repository run : Json)
    (conclusion : Conclusion) : Except PyException IncomingRun := do
  let runId ← runtime.int (← run.index "id")
  let runAttempt ← runtime.int (← run.get "run_attempt" (.int 1))
  if pos : 1 ≤ runAttempt then
    let name ← run.get "name" (.str "unknown workflow")
    let headBranch ← run.get "head_branch" .null
    let pullRequests ← run.get "pull_requests" .null
    let updatedAt ← runtime.workflowRunCompletedAt (← run.get "updated_at" .null)
    let htmlUrl ← run.index "html_url"
    return {
      deliveryId := deliveryId
      repository := repository
      run := run
      runId := runId
      runAttempt := runAttempt
      runAttempt_pos := pos
      workflowName := runtime.str name
      headBranch := headBranch.str?
      pullRequestNumber := pullRequestNumber pullRequests
      updatedAt := updatedAt
      htmlUrl := runtime.str htmlUrl
      conclusion := conclusion }
  else throw .valueError

/-- `conclusion not in {"success", "failure"}`; a list or a dict cannot be looked up. -/
def readConclusion : Json → Except WebhookResponse Conclusion
  | .str "success" => .ok .success
  | .str "failure" => .ok .failure
  | .list _ => .error .internalError
  | .dict _ => .error .internalError
  | _ => .error .noContent

/-- Everything up to the follow-up call; the handling may end here with an answer. -/
def readRequest (runtime : Runtime) (delivery : Option String) (payload : Json) :
    Except WebhookResponse IncomingRun := do
  let deliveryId := delivery.getD ""
  if deliveryId = "" then
    throw (.badRequest "missing X-GitHub-Delivery header")
  let run ← answering [.keyError, .typeError] (payload.index "workflow_run")
  let repository ← answering [.keyError, .typeError]
    (payload.index "repository" >>= fun value => value.index "full_name")
  let conclusion ← answering [] (run.get "conclusion" .null)
  let action ← answering [] (payload.get "action" .null)
  if action.str? ≠ some "completed" then
    throw .noContent
  let conclusion ← readConclusion conclusion
  answering [.keyError, .typeError, .valueError]
    (readFields runtime deliveryId repository run conclusion)

namespace IncomingRun

/-- The run, once its repository is known to be a text. -/
def toRun (incoming : IncomingRun) (repository : String) (headSha : Option String)
    (installationId : Option Int) : CompletedRun where
  repository := repository
  runId := incoming.runId
  runAttempt := incoming.runAttempt
  runAttempt_pos := incoming.runAttempt_pos
  workflowName := incoming.workflowName
  headBranch := incoming.headBranch
  pullRequestNumber := incoming.pullRequestNumber
  updatedAt := incoming.updatedAt
  htmlUrl := incoming.htmlUrl
  conclusion := incoming.conclusion
  headSha := headSha
  installationId := installationId

def followup (incoming : IncomingRun) (repository : String) (clock : HandlingClock) :
    FollowupRun := (incoming.toRun repository none none).followup clock

/-- The follow-up call; `none` when it raises. -/
def recordFollowup (runtime : Runtime) (backend : Backend) (db : Db) (payload : Json)
    (incoming : IncomingRun) (clock : HandlingClock) : Option Db :=
  -- a run with neither a branch nor a pull request is not looked up
  if (incoming.followup "" clock).isTracked then
    match runtime.bind incoming.repository with
    | .refused => none
    | .null => some db
    | .text repository =>
        if runtime.followupRefused payload (incoming.followup repository clock) then none
        else some (db.recordFollowupRun backend (incoming.followup repository clock)
          clock.linkedAt).1
  else some db

/-- `AnalysisRecord(...)`; `none` when it raises `ValidationError`. -/
def validateRecord (runtime : Runtime) (incoming : IncomingRun) (headSha id : Json)
    (clock : HandlingClock) : Option AnalysisRecord := do
  let repository ← incoming.repository.str?
  let headSha ← headSha.str?
  let installationId ← runtime.validateInt id
  return (incoming.toRun repository none none).record incoming.deliveryId headSha installationId
    clock

/-- The record of a failed run, or how the handling ends without one. -/
def readRecord (runtime : Runtime) (payload : Json) (incoming : IncomingRun)
    (clock : HandlingClock) : Except WebhookResponse AnalysisRecord := do
  let installation ← answering [] (payload.get "installation" (.dict []))
  match ← answering [] (installation.get "id" .null) with
  | .null => throw (.badRequest "payload has no GitHub App installation id")
  | id =>
      let headSha ← answering [] (incoming.run.index "head_sha")
      match incoming.validateRecord runtime headSha id clock with
      | none => throw .internalError
      | some record => return record

/-- What the handler does with a failure after the follow-up call. -/
def finishFailure (runtime : Runtime) (db : Db) (payload : Json) (incoming : IncomingRun)
    (clock : HandlingClock) (queue : QueueReply) : Db × WebhookResponse :=
  match incoming.readRecord runtime payload clock with
  | .error response => (db, response)
  | .ok record =>
      if runtime.createRefused payload record then (db, .internalError)
      else
        let created := db.createIfAbsent record
        (created.1, respond created.2 (created.1.row? record.runId) record.runId queue)

end IncomingRun

/-- `github_webhook` on a signed `workflow_run` body. -/
def handleWorkflowRun (runtime : Runtime) (backend : Backend) (db : Db) (delivery : Option String)
    (payload : Json) (clock : HandlingClock) (queue : QueueReply) : Db × WebhookResponse :=
  match readRequest runtime delivery payload with
  | .error response => (db, response)
  | .ok incoming =>
      match incoming.recordFollowup runtime backend db payload clock with
      | none => (db, .internalError)
      | some db' =>
          match incoming.conclusion with
          | .success => (db', .noContent)
          | .failure => incoming.finishFailure runtime db' payload clock queue

end PipeLens
