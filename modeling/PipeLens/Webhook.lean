import PipeLens.Queue
import PipeLens.Store

/-!
# The webhook handler

`github_webhook` of `main.py`, from the point where the signature has been
verified and the body is a completed `workflow_run` with a usable id, attempt,
timestamp and URL. What is read of the payload after that point (the head commit
and the installation) may still be missing.

The handler makes three store calls and at most two queue calls. The store is
threaded through; how the queue answers is an argument.
-/

namespace PipeLens

/-- The two conclusions the handler goes on with. -/
inductive Conclusion where
  | success | failure
  deriving DecidableEq, Repr

def Conclusion.text : Conclusion → String
  | .success => "success"
  | .failure => "failure"

/-- A completed run, as read from a payload that passed validation. -/
structure CompletedRun where
  repository : String
  runId : Int
  runAttempt : Int
  runAttempt_pos : 1 ≤ runAttempt
  workflowName : String
  headBranch : Option String
  pullRequestNumber : Option Int
  /-- `updated_at`, when it is a string. -/
  updatedAt : Option Instant
  htmlUrl : String
  conclusion : Conclusion
  headSha : Option String
  /-- `installation.id`. -/
  installationId : Option Int
  deriving DecidableEq, Repr

/-- The moments one handling reads off the clock. -/
structure HandlingClock where
  receivedAt : Instant
  linkedAt : Instant
  createdAt : Instant
  deriving DecidableEq, Repr

/-- How the queue takes the `enqueue` and `size` calls of one handling. -/
structure QueueReply where
  /-- `none` when `enqueue` raised. -/
  enqueued : Option Bool
  sizeRaised : Bool := false
  deriving DecidableEq, Repr

inductive WebhookResponse where
  | noContent
  | badRequest (detail : String)
  | serviceUnavailable (detail : String)
  /-- An exception the handler does not catch. -/
  | internalError
  | accepted (accepted : Bool) (runId : Int)
  deriving DecidableEq, Repr

namespace CompletedRun

/-- `_workflow_run_completed_at`. -/
def completedAt (run : CompletedRun) (clock : HandlingClock) : Instant :=
  run.updatedAt.getD clock.receivedAt

/-- The arguments the handler passes to `record_followup_run`. -/
def followup (run : CompletedRun) (clock : HandlingClock) : FollowupRun where
  repository := run.repository
  workflowName := run.workflowName
  headBranch := run.headBranch
  pullRequestNumber := run.pullRequestNumber
  runId := run.runId
  runAttempt := run.runAttempt
  htmlUrl := run.htmlUrl
  conclusion := run.conclusion.text
  completedAt := run.completedAt clock

/-- The record a failed run is stored as. -/
def record (run : CompletedRun) (deliveryId headSha : String) (installationId : Int)
    (clock : HandlingClock) : AnalysisRecord where
  runId := run.runId
  deliveryId := deliveryId
  repository := run.repository
  workflowName := run.workflowName
  headSha := headSha
  htmlUrl := run.htmlUrl
  runAttempt := run.runAttempt
  headBranch := run.headBranch
  pullRequestNumber := run.pullRequestNumber
  runCompletedAt := some (run.completedAt clock)
  installationId := some installationId
  createdAt := clock.createdAt
  updatedAt := clock.createdAt

/-- What is enqueued for the stored analysis, if anything is. -/
def queueRequest (existing : AnalysisRow) : Option AnalysisRequest :=
  if existing.status = .queued then
    existing.installationId.map fun installationId =>
      { runId := existing.runId
        repository := existing.repository
        installationId := installationId
        headSha := existing.headSha }
  else none

end CompletedRun

/-- The end of the handler: enqueue what the store holds as queued, and answer. -/
def respond (created : Bool) (existing : Option AnalysisRow) (runId : Int) (queue : QueueReply) :
    WebhookResponse :=
  match existing.bind CompletedRun.queueRequest with
  | none => .accepted created runId
  | some _ =>
      match queue.enqueued with
      | none => .serviceUnavailable "analysis queue unavailable"
      | some enqueued =>
          if queue.sizeRaised then .internalError else .accepted (created || enqueued) runId

/-- `github_webhook` on a completed run. -/
def githubWebhook (backend : Backend) (db : Db) (run : CompletedRun) (deliveryId : String)
    (clock : HandlingClock) (queue : QueueReply) : Db × WebhookResponse :=
  let db' := (db.recordFollowupRun backend (run.followup clock) clock.linkedAt).1
  match run.conclusion with
  | .success => (db', .noContent)
  | .failure =>
      match run.installationId, run.headSha with
      | none, _ => (db', .badRequest "payload has no GitHub App installation id")
      | some _, none => (db', .internalError)
      | some installationId, some headSha =>
          let created := db'.createIfAbsent (run.record deliveryId headSha installationId clock)
          (created.1, respond created.2 (created.1.row? run.runId) run.runId queue)

end PipeLens
