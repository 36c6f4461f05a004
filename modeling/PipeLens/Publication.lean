import PipeLens.GitHub
import PipeLens.Pipeline

/-!
# Concurrent attempts that publish

Any number of `analyze` calls for one run, interleaved at every store transaction
and every GitHub request. The body of the `PUBLISHING` stage, opaque in `Attempt`,
is opened up here: it is one of the two upserts, or nothing.

Around the calls, the failure handlers of the workers may rewrite the status of the
run at any time, and anybody may comment on the pull requests.
-/

namespace PipeLens

/-- Where a call of `analyze` stands. -/
inductive CallPhase where
  | ready
  | running (attempt : Attempt)
  /-- Inside an upsert of the body of `PUBLISHING`. -/
  | publishing (attempt : Attempt) (body : String) (pc : UpsertPc)
  | ended
  deriving DecidableEq, Repr

/-- What the fencing of publications is about, newest first in a log. -/
inductive PublishEvent where
  /-- A `begin_analysis` was committed. -/
  | begun (token : Token)
  /-- A `POST` or `PATCH` was sent. -/
  | sent (token : Token)
  deriving DecidableEq, Repr

structure PublicationSystem (α : Type) where
  store : Db
  /-- The comments of each pull request, oldest first. -/
  comments : Int → List Comment
  call : α → CallPhase
  /-- The attempt tokens drawn so far. -/
  used : List Token
  log : List PublishEvent
  /-- The pull requests of the comments that the calls have created. -/
  created : List Int

inductive PublishLabel (α : Type) where
  | begin (c : α) (token : Token) (fate : StoreFate) (now : Instant)
  /-- A step of an attempt outside the upserts. -/
  | advance (c : α) (event : AnalyzeEvent)
  /-- The body of `PUBLISHING` starts. -/
  | publish (c : α) (publication : Publication)
  /-- The next request of an upsert; `checkRuns` is the listing of check runs. -/
  | request (c : α) (reply : Reply) (checkRuns : List CheckRun)
  /-- A failure handler writes the status. -/
  | handled (status : AnalysisStatus) (error : String) (now : Instant)
  /-- Somebody comments on a pull request. -/
  | comment (number : Int) (comment : Comment)
  deriving DecidableEq, Repr

/-- Whether a `begin_analysis` is committed. -/
def beginCommits (db : Db) (runId : Int) (token : Token) (fate : StoreFate) (now : Instant) :
    Bool :=
  match fate, (db.beginAnalysis runId (some token) now).1 with
  | .failed _, _ => false
  | _, .ok _ => true
  | _, .error _ => false

/-- The phase of a call after a step of its attempt. -/
def CallPhase.ofProgress : Progress → CallPhase
  | .running attempt => .running attempt
  | .returned => .ended
  | .raised _ => .ended

namespace PublicationSystem

variable {α : Type}

def init (db : Db) (comments : Int → List Comment) : PublicationSystem α where
  store := db
  comments := comments
  call := fun _ => .ready
  used := []
  log := []
  created := []

variable [DecidableEq α]

def setCall (s : PublicationSystem α) (c : α) (phase : CallPhase) : PublicationSystem α :=
  { s with call := Function.update s.call c phase }

/-- What is known once the request at `pc` has been sent and answered. -/
def sendRequest (app : GitHubApp) (runId : Int) (s : PublicationSystem α) (a : Attempt)
    (body : String) (pc : UpsertPc) (reply : Reply) : PublicationSystem α :=
  { s with
    comments := if reply.performed then pc.perform app runId body s.comments else s.comments
    log := if pc.method = .get then s.log else .sent a.token :: s.log
    created := if reply.performed then pc.creates.toList ++ s.created else s.created }

/-- Where the verdict on a reply leaves the call. -/
def afterReply (app : GitHubApp) (runId : Int) (comments : Int → List Comment) (a : Attempt)
    (body : String) (pc : UpsertPc) (checkRuns : List CheckRun) : Verdict → CallPhase
  | .resend => .publishing a body pc.resend
  | .raised message => .running { a with pc := .fail .publishing message false }
  | .returned =>
      match pc.proceed app runId comments checkRuns with
      | some pc' => .publishing a body pc'
      | none => .running { a with pc := .leave .publishing }

def step (app : GitHubApp) (policy : RetryPolicy) (runId : Int) (s : PublicationSystem α) :
    PublishLabel α → Option (PublicationSystem α)
  | .begin c token fate now =>
      match s.call c with
      | .ready =>
          -- `uuid.uuid4().hex`: no token is drawn twice
          if token ∈ s.used then none
          else
            let r := beginAttempt s.store runId token fate now
            some { s with
              store := r.2
              used := token :: s.used
              log := if beginCommits s.store runId token fate now then .begun token :: s.log
                else s.log
              call := Function.update s.call c (CallPhase.ofProgress r.1) }
      | _ => none
  | .advance c event =>
      match s.call c with
      | .running a =>
          -- the body of `PUBLISHING` completes by `publish` and `request` only
          if a.pc = .body .publishing ∧ event = .bodyCompleted then none
          else
            match a.step s.store runId event with
            | none => none
            | some (p, store) =>
                some { s with
                  store := store
                  call := Function.update s.call c (CallPhase.ofProgress p) }
      | _ => none
  | .publish c publication =>
      match s.call c with
      | .running a =>
          if a.pc = .body .publishing then
            match publication.firstRequest with
            | none => some (s.setCall c (.running { a with pc := .leave .publishing }))
            | some pc => some (s.setCall c (.publishing a publication.body pc))
          else none
      | _ => none
  | .request c reply checkRuns =>
      match s.call c with
      | .publishing a body pc =>
          -- no request of an upsert looks at the token again
          some ((s.sendRequest app runId a body pc reply).setCall c
            (afterReply app runId s.comments a body pc checkRuns
              (requestWithRetry policy pc.method pc.attempt reply)))
      | _ => none
  | .handled status error now =>
      some { s with store := (s.store.update runId status { error := some error } none now).2 }
  | .comment number comment =>
      some { s with
        comments := Function.update s.comments number (s.comments number ++ [comment]) }

end PublicationSystem

end PipeLens
