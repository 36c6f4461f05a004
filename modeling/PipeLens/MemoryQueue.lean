import PipeLens.Queue

/-!
# The in-memory queue and the queue protocol

`InMemoryAnalysisQueue` of `queue.py`: an `asyncio.Queue` and the set of the run
ids in it or in work. `AnalysisQueue` is the protocol both queues implement, less
the calls that do nothing in memory, and `QueueClient` is one worker that makes
calls to one of them, with the jobs it has in hand.

A timeout is positive here, as it is wherever `dequeue` is called: the calls of one
worker come one after another, so nothing arrives while it waits.
-/

namespace PipeLens

/-- `AnalysisQueue`. `none` stands for an exception that leaves the queue as it was. -/
structure AnalysisQueue (σ : Type) where
  enqueue : σ → AnalysisRequest → σ × Bool
  dequeue : σ → σ × Dequeued
  acknowledge : σ → QueueJob → Option σ
  retry : σ → QueueJob → Option σ
  size : σ → Nat

/-! ## In memory -/

/-- `InMemoryAnalysisQueue`. -/
structure MemoryQueue where
  /-- What is in `_queue`, the next one first. -/
  queue : List QueueEnvelope
  /-- `_queue._unfinished_tasks`. -/
  unfinishedTasks : Nat
  /-- `_run_ids`. -/
  runIds : Finset Int

namespace MemoryQueue

def empty : MemoryQueue where
  queue := []
  unfinishedTasks := 0
  runIds := ∅

/-- `asyncio.Queue.put_nowait`, on a queue without a bound. -/
def putNowait (m : MemoryQueue) (envelope : QueueEnvelope) : MemoryQueue :=
  { m with queue := m.queue ++ [envelope], unfinishedTasks := m.unfinishedTasks + 1 }

/-- `asyncio.Queue.task_done`; it raises `ValueError` when called too many times. -/
def taskDone (m : MemoryQueue) : Option MemoryQueue :=
  if m.unfinishedTasks = 0 then none
  else some { m with unfinishedTasks := m.unfinishedTasks - 1 }

def enqueue (m : MemoryQueue) (request : AnalysisRequest) : MemoryQueue × Bool :=
  if request.runId ∈ m.runIds then (m, false)
  else
    ({ m with runIds := insert request.runId m.runIds }.putNowait { request := request }, true)

def dequeue (m : MemoryQueue) : MemoryQueue × Dequeued :=
  match m.queue with
  | [] => (m, .timeout)
  | envelope :: rest => ({ m with queue := rest }, .job { envelope := envelope })

def acknowledge (m : MemoryQueue) (job : QueueJob) : Option MemoryQueue :=
  m.taskDone.map fun m' => { m' with runIds := m'.runIds.erase job.envelope.request.runId }

def retry (m : MemoryQueue) (job : QueueJob) : Option MemoryQueue :=
  m.taskDone.map fun m' =>
    m'.putNowait { job.envelope with attempts := job.envelope.attempts + 1 }

/-- `qsize`. -/
def size (m : MemoryQueue) : Nat := m.queue.length

end MemoryQueue

def inMemoryAnalysisQueue : AnalysisQueue MemoryQueue where
  enqueue := MemoryQueue.enqueue
  dequeue := MemoryQueue.dequeue
  acknowledge := MemoryQueue.acknowledge
  retry := MemoryQueue.retry
  size := MemoryQueue.size

/-! ## In Redis -/

/-- `RedisAnalysisQueue` of worker `w`; `dequeue` is the heartbeat and then the pop. -/
def redisAnalysisQueue {ω : Type} [DecidableEq ω] (codec : EnvelopeCodec) (w : ω) :
    AnalysisQueue (QueueState ω) where
  enqueue := fun q request =>
    let created := q.redis.enqueue codec request
    ({ q with redis := created.1 }, created.2)
  dequeue := fun q => { q with redis := q.redis.heartbeat w }.pop codec w
  acknowledge := fun q job => some { q with redis := q.redis.acknowledge w job }
  retry := fun q job => some { q with redis := q.redis.retry codec w job }
  size := fun q => q.redis.size

/-! ## A worker's calls -/

/-- A call; the job of `acknowledge` and `retry` is named by its place among those in hand. -/
inductive QueueCall where
  | enqueue (request : AnalysisRequest)
  | dequeue
  | acknowledge (i : Nat)
  | retry (i : Nat)
  | size
  deriving DecidableEq, Repr

inductive QueueAnswer where
  | enqueued (created : Bool)
  | dequeued (envelope : Option QueueEnvelope)
  | returned
  | size (n : Nat)
  | raised
  /-- There is no such job in hand, and no call is made. -/
  | noJob
  deriving DecidableEq, Repr

/-- The queue and the jobs its worker has dequeued and not yet settled, the latest first. -/
structure QueueClient (σ : Type) where
  queue : σ
  inHand : List QueueJob

namespace QueueClient

variable {σ : Type} (impl : AnalysisQueue σ)

/-- `acknowledge` or `retry` of the `i`-th job in hand; either way it is in hand no longer. -/
def settle (c : QueueClient σ) (call : σ → QueueJob → Option σ) (i : Nat) :
    QueueClient σ × QueueAnswer :=
  match c.inHand[i]? with
  | none => (c, .noJob)
  | some job =>
      match call c.queue job with
      | none => ({ c with inHand := c.inHand.eraseIdx i }, .raised)
      | some queue => ({ queue := queue, inHand := c.inHand.eraseIdx i }, .returned)

def answer (c : QueueClient σ) : QueueCall → QueueClient σ × QueueAnswer
  | .enqueue request =>
      let created := impl.enqueue c.queue request
      ({ c with queue := created.1 }, .enqueued created.2)
  | .dequeue =>
      let popped := impl.dequeue c.queue
      match popped.2 with
      | .timeout => ({ c with queue := popped.1 }, .dequeued none)
      | .invalid => ({ c with queue := popped.1 }, .raised)
      | .job job => ({ queue := popped.1, inHand := job :: c.inHand }, .dequeued job.envelope)
  | .acknowledge i => c.settle impl.acknowledge i
  | .retry i => c.settle impl.retry i
  | .size => (c, .size (impl.size c.queue))

end QueueClient

end PipeLens
