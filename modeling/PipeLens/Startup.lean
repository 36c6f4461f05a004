import Mathlib.Data.List.Sort
import PipeLens.MemoryQueue
import PipeLens.Webhook
import PipeLens.Worker

/-!
# One process on the in-memory queue

`create_app` of `main.py` with `queue_backend == "memory"`: the lifespan of the
application, its webhook handlers and its local worker. The queue, the handlers and
the worker are gone when the process stops; the store is what the next one finds.
Its lifespan begins with `reconcile_queued_analyses`.

The three store calls of a handler and the enqueue are steps of their own, so the
process can stop between any two of them. The tasks of the worker never wait for the
in-memory queue, whose maintenance does nothing.
-/

namespace PipeLens

/-! ## `queued_requests` -/

/-- The `WHERE` clause of `queued_requests`. -/
def AnalysisRow.isQueued (row : AnalysisRow) : Bool :=
  row.status == .queued && row.installationId.isSome

/-- `queued_requests`, which lists the rows by `created_at`. -/
def Db.queuedRequests (db : Db) : List AnalysisRequest :=
  ((db.analyses.select AnalysisRow.isQueued).insertionSort
    fun a b => a.createdAt ≤ b.createdAt).filterMap CompletedRun.queueRequest

/-! ## The process -/

/-- Where the lifespan of the application stands. -/
inductive Lifespan where
  | down
  /-- `reconcile_queued_analyses` has counted `reconciled` and goes on with `requests`. -/
  | reconciling (requests : List AnalysisRequest) (reconciled : Nat)
  | serving
  deriving DecidableEq, Repr

/-- The store and the process. -/
structure LocalWorld where
  store : Db
  lifespan : Lifespan
  queue : MemoryQueue
  /-- The runs whose handler has created its record and not read it back yet. -/
  handlers : List Int
  /-- The runs whose handler ended on an error of the store between the two. -/
  missed : List Int
  phase : Phase
  /-- The attempt tokens drawn so far. -/
  used : List Token

inductive LocalLabel where
  /-- The process: its lifespan and its end, by a shutdown or a crash. -/
  | startup
  | reconcile
  | serve
  | stop
  /-- A webhook handler. -/
  | followup (f : FollowupRun) (now : Instant)
  | create (run : CompletedRun) (deliveryId : String) (clock : HandlingClock) (fate : StoreFate)
  | enqueue (runId : Int)
  | readFails (runId : Int)
  /-- The local worker. -/
  | dequeue
  | size
  | begin (token : Token) (fate : StoreFate) (now : Instant)
  | advance (event : AnalyzeEvent)
  | handle (fate : StoreFate) (now : Instant)
  | retry
  | acknowledge
  deriving DecidableEq

/-- The record a handler creates, of a failed run with a head commit and an installation. -/
def CompletedRun.newRecord (run : CompletedRun) (deliveryId : String) (clock : HandlingClock) :
    Option AnalysisRecord :=
  match run.conclusion, run.installationId, run.headSha with
  | .failure, some installationId, some headSha =>
      some (run.record deliveryId headSha installationId clock)
  | _, _, _ => none

namespace LocalWorld

/-- Without a process: nothing is left but the store, and the tokens are not drawn again. -/
def stopped (store : Db) (used : List Token) : LocalWorld where
  store := store
  lifespan := .down
  queue := MemoryQueue.empty
  handlers := []
  missed := []
  phase := .off
  used := used

def init : LocalWorld := stopped Db.empty []

/-- What is left of the queue's answer; an exception ends the worker. -/
def settle (s : LocalWorld) (queue : Option MemoryQueue) : LocalWorld :=
  match queue with
  | none => { s with phase := .dead }
  | some queue => { s with queue := queue, phase := .measuringDone }

def step (backend : Backend) (maxAttempts : Int) (s : LocalWorld) :
    LocalLabel → Option LocalWorld
  | .startup =>
      match s.lifespan with
      | .down => some { s with lifespan := .reconciling s.store.queuedRequests 0 }
      | _ => none
  | .reconcile =>
      match s.lifespan with
      | .reconciling (request :: requests) reconciled =>
          let r := s.queue.enqueue request
          some { s with
            queue := r.1
            lifespan := .reconciling requests (if r.2 then reconciled + 1 else reconciled) }
      | _ => none
  | .serve =>
      match s.lifespan with
      -- the worker's maintenance does nothing, so its loop is at its head at once
      | .reconciling [] _ => some { s with lifespan := .serving, phase := .head }
      | _ => none
  | .stop =>
      match s.lifespan with
      | .down => none
      | _ => some (stopped s.store s.used)
  | .followup f now =>
      match s.lifespan with
      | .serving => some { s with store := (s.store.recordFollowupRun backend f now).1 }
      | _ => none
  | .create run deliveryId clock fate =>
      match s.lifespan, run.newRecord deliveryId clock with
      | .serving, some record =>
          match fate with
          | .answered => some { s with
              store := (s.store.createIfAbsent record).1
              handlers := run.runId :: s.handlers }
          | .failed _ => some s
          | .unacknowledged _ => some { s with
              store := (s.store.createIfAbsent record).1
              missed := run.runId :: s.missed }
      | _, _ => none
  | .enqueue runId =>
      if runId ∈ s.handlers then
        match (s.store.row? runId).bind CompletedRun.queueRequest with
        | none => some { s with handlers := s.handlers.erase runId }
        | some request => some { s with
            queue := (s.queue.enqueue request).1
            handlers := s.handlers.erase runId }
      else none
  | .readFails runId =>
      if runId ∈ s.handlers then
        some { s with handlers := s.handlers.erase runId, missed := runId :: s.missed }
      else none
  | .dequeue =>
      match s.phase with
      | .head =>
          let popped := s.queue.dequeue
          some { s with queue := popped.1, phase := World.afterPop popped.2 }
      | _ => none
  | .size =>
      match s.phase with
      | .measuringEmpty => some { s with phase := .head }
      | .measuring job => some { s with phase := .entering job }
      | .measuringDone => some { s with phase := .head }
      | _ => none
  | .begin token fate now =>
      match s.phase with
      | .entering job =>
          if token ∈ s.used then none
          else
            let r := beginAttempt s.store job.runId token fate now
            some { s with
              store := r.2
              used := token :: s.used
              phase := World.afterAnalyze job token r.1 }
      | _ => none
  | .advance event =>
      match s.phase with
      | .analyzing job attempt =>
          match attempt.step s.store job.runId event with
          | none => none
          | some (p, store) => some { s with
              store := store
              phase := World.afterAnalyze job attempt.token p }
      | _ => none
  | .handle fate now =>
      match s.phase with
      | .handling job _ message =>
          let r := storeCall s.store fate (s.store.update job.runId
            (World.handlerStatus job maxAttempts) { error := some message } none now)
          some { s with store := r.2, phase := World.afterHandler job maxAttempts r.1 }
      | _ => none
  | .retry =>
      match s.phase with
      | .retrying job => some (s.settle (s.queue.retry job))
      | _ => none
  | .acknowledge =>
      match s.phase with
      | .acknowledging job => some (s.settle (s.queue.acknowledge job))
      | _ => none

end LocalWorld

end PipeLens
