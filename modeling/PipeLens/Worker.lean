import PipeLens.Pipeline
import PipeLens.Queue

/-!
# Workers

`AnalysisWorker.run` of any number of workers that share one Redis queue and one
store. A worker runs two tasks: the maintenance loop (heartbeat, then recovery of
other workers' jobs) and the processing loop around `process_next`. Both stop at
every Redis command and at every store transaction, and the steps of all tasks of
all workers interleave freely.

A Redis call can fail before the server executes it or after; either way the
caller sees a `RedisError`, which sends both loops back to their heads. Any other
exception ends the worker.
-/

namespace PipeLens

/-- How a Redis call goes. -/
inductive Fate where
  | answered
  /-- Executed, but the reply did not arrive. -/
  | lost
  /-- Not executed. -/
  | refused
  deriving DecidableEq, Repr

/-- What the server holds after a call that turns `before` into `after`. -/
def Fate.apply {α : Type} (fate : Fate) (before after : α) : α :=
  match fate with
  | .refused => before
  | .answered | .lost => after

/-- Where the caller goes on: `ok`, or `error` on a `RedisError`. -/
def Fate.next {α : Type} (fate : Fate) (ok error : α) : α :=
  match fate with
  | .answered => ok
  | .lost | .refused => error

/-- Where the processing task of a worker stands. -/
inductive Phase where
  /-- Not started yet. -/
  | off
  /-- Before the first maintenance that went through. -/
  | startup
  /-- At the head of the processing loop. -/
  | head
  /-- `dequeue` has sent its heartbeat. -/
  | popping
  /-- `process_next` without a job, before `size`. -/
  | measuringEmpty
  /-- `process_next` with a job, before `size`. -/
  | measuring (job : QueueJob)
  /-- `analyze` is about to call `begin_analysis`. -/
  | entering (job : QueueJob)
  | analyzing (job : QueueJob) (attempt : Attempt)
  /-- `analyze` raised; `token` is the attempt that failed. -/
  | handling (job : QueueJob) (token : Token) (message : String)
  | retrying (job : QueueJob)
  | acknowledging (job : QueueJob)
  /-- The job is dealt with; the last `size` is left. -/
  | measuringDone
  | dead
  deriving DecidableEq

/-- The job a worker is processing. -/
def Phase.job? : Phase → Option QueueJob
  | .measuring job => some job
  | .entering job => some job
  | .analyzing job _ => some job
  | .handling job _ _ => some job
  | .retrying job => some job
  | .acknowledging job => some job
  | _ => none

/-- Whether the worker's loops are running. -/
def Phase.alive : Phase → Bool
  | .off => false
  | .dead => false
  | _ => true

/-- Whether the worker is inside `process_next`. -/
def Phase.inside : Phase → Bool
  | .off | .startup | .head | .dead => false
  | _ => true

/-- Where the maintenance task of a worker stands. -/
inductive Maintenance (ω : Type) where
  | idle
  /-- The heartbeat is done; `SMEMBERS` is next. -/
  | scanning
  /-- The recover script is still to run for `keys`. -/
  | recovering (keys : Finset ω)
  deriving DecidableEq

/-- The queue, the store and the workers. -/
structure World (ω : Type) where
  queue : QueueState ω
  store : Db
  phase : ω → Phase
  maintenance : ω → Maintenance ω
  /-- The attempt tokens drawn so far. -/
  used : List Token
  /-- The runs `enqueue` has accepted so far. -/
  enqueued : List Int

inductive Label (ω : Type) where
  /-- The webhook stores a run, and enqueues one that is stored. -/
  | create (record : AnalysisRecord)
  | enqueue (request : AnalysisRequest)
  | expire (w : ω)
  | start (w : ω)
  | crash (w : ω)
  /-- The maintenance task. -/
  | heartbeat (w : ω) (fate : Fate)
  | scan (w : ω) (fate : Fate)
  | recover (w v : ω) (fate : Fate)
  | maintained (w : ω)
  /-- The processing task. -/
  | dequeue (w : ω) (fate : Fate)
  | pop (w : ω) (fate : Fate)
  | size (w : ω) (fate : Fate)
  | begin (w : ω) (token : Token) (fate : StoreFate) (now : Instant)
  | advance (w : ω) (event : AnalyzeEvent)
  | handle (w : ω) (fate : StoreFate) (now : Instant)
  | retry (w : ω) (fate : Fate)
  | acknowledge (w : ω) (fate : Fate)
  deriving DecidableEq

/-- The run of a job. -/
def QueueJob.runId (job : QueueJob) : Int := job.envelope.request.runId

/-- `attempt < self.max_attempts`. -/
def QueueJob.mayRetry (job : QueueJob) (maxAttempts : Int) : Bool :=
  decide (job.envelope.attempts + 1 < maxAttempts)

namespace World

variable {ω : Type}

def init : World ω where
  queue := QueueState.empty
  store := Db.empty
  phase := fun _ => .off
  maintenance := fun _ => .idle
  used := []
  enqueued := []

variable [DecidableEq ω]

def setPhase (s : World ω) (w : ω) (phase : Phase) : World ω :=
  { s with phase := Function.update s.phase w phase }

def setMaintenance (s : World ω) (w : ω) (m : Maintenance ω) : World ω :=
  { s with maintenance := Function.update s.maintenance w m }

/-- Replaces the database by what a call leaves of it. -/
def setRedis (s : World ω) (fate : Fate) (redis : Redis ω) : World ω :=
  { s with queue := fate.apply s.queue { s.queue with redis := redis } }

/-- Where a call of `analyze` leaves its worker. -/
def afterAnalyze (job : QueueJob) (token : Token) : Progress → Phase
  | .running attempt => .analyzing job attempt
  | .returned => .acknowledging job
  | .raised message => .handling job token message

/-- The worker at the end of a maintenance round. -/
def afterMaintenance : Phase → Phase
  | .startup => .head
  | phase => phase

/-- Where the reply of `dequeue` leaves its worker. -/
def afterPop : Dequeued → Phase
  | .timeout => .measuringEmpty
  | .invalid => .dead
  | .job job => .measuring job

/-- The status that the exception handler of `process_next` writes. -/
def handlerStatus (job : QueueJob) (maxAttempts : Int) : AnalysisStatus :=
  if job.mayRetry maxAttempts then .queued else .failed

/-- Where that write leaves the worker. -/
def afterHandler (job : QueueJob) (maxAttempts : Int) : CallResult Unit → Phase
  | .ok () => if job.mayRetry maxAttempts then .retrying job else .acknowledging job
  | .superseded _ => .dead
  | .raised _ => .dead

def step (codec : EnvelopeCodec) (maxAttempts : Int) (s : World ω) : Label ω → Option (World ω)
  | .create record => some { s with store := (s.store.createIfAbsent record).1 }
  | .enqueue request =>
      match s.store.row? request.runId with
      -- the webhook enqueues only what is stored, and nothing calls `delete`
      | none => none
      | some _ =>
          let r := s.queue.redis.enqueue codec request
          some { s with
            queue := { s.queue with redis := r.1 }
            enqueued := if r.2 then request.runId :: s.enqueued else s.enqueued }
  | .expire w => some { s with queue := { s.queue with redis := s.queue.redis.expire w } }
  | .start w =>
      match s.phase w with
      | .off => some (s.setPhase w .startup)
      | _ => none
  | .crash w => if (s.phase w).alive then some (s.setPhase w .dead) else none
  | .heartbeat w fate =>
      match (s.phase w).alive, s.maintenance w with
      | true, .idle =>
          some ((s.setRedis fate (s.queue.redis.heartbeat w)).setMaintenance w
            (fate.next .scanning .idle))
      | _, _ => none
  | .scan w fate =>
      match (s.phase w).alive, s.maintenance w with
      | true, .scanning =>
          some (s.setMaintenance w (fate.next (.recovering (s.queue.redis.workers.erase w)) .idle))
      | _, _ => none
  | .recover w v fate =>
      match (s.phase w).alive, s.maintenance w with
      | true, .recovering keys =>
          if v ∈ keys then
            some ((s.setRedis fate (s.queue.redis.recoverScript v).1).setMaintenance w
              (fate.next (.recovering (keys.erase v)) .idle))
          else none
      | _, _ => none
  | .maintained w =>
      match (s.phase w).alive, s.maintenance w with
      | true, .recovering keys =>
          if keys = ∅ then
            some ((s.setMaintenance w .idle).setPhase w (afterMaintenance (s.phase w)))
          else none
      | _, _ => none
  | .dequeue w fate =>
      match s.phase w with
      | .head =>
          -- `dequeue` registers the worker itself; the pop is a command of its own
          some ((s.setRedis fate (s.queue.redis.heartbeat w)).setPhase w (fate.next .popping .head))
      | _ => none
  | .pop w fate =>
      match s.phase w with
      | .popping =>
          let popped := s.queue.pop codec w
          -- a lost reply leaves the envelope in the list of a worker that does not know of it
          some { s with
            queue := fate.apply s.queue popped.1
            phase := Function.update s.phase w (fate.next (afterPop popped.2) .head) }
      | _ => none
  | .size w fate =>
      match s.phase w with
      | .measuringEmpty => some (s.setPhase w .head)
      | .measuring job => some (s.setPhase w (fate.next (.entering job) .head))
      | .measuringDone => some (s.setPhase w .head)
      | _ => none
  | .begin w token fate now =>
      match s.phase w with
      | .entering job =>
          -- `uuid.uuid4().hex`: no token is drawn twice
          if token ∈ s.used then none
          else
            let r := beginAttempt s.store job.runId token fate now
            some { s with
              store := r.2
              used := token :: s.used
              phase := Function.update s.phase w (afterAnalyze job token r.1) }
      | _ => none
  | .advance w event =>
      match s.phase w with
      | .analyzing job attempt =>
          match attempt.step s.store job.runId event with
          | none => none
          | some (p, store) =>
              some { s with
                store := store
                phase := Function.update s.phase w (afterAnalyze job attempt.token p) }
      | _ => none
  | .handle w fate now =>
      match s.phase w with
      | .handling job _ message =>
          -- the only status write of an attempt that carries no token
          let r := storeCall s.store fate (s.store.update job.runId (handlerStatus job maxAttempts)
            { error := some message } none now)
          some { s with
            store := r.2
            phase := Function.update s.phase w (afterHandler job maxAttempts r.1) }
      | _ => none
  | .retry w fate =>
      match s.phase w with
      | .retrying job =>
          some ((s.setRedis fate (s.queue.redis.retry codec w job)).setPhase w
            (fate.next .measuringDone .head))
      | _ => none
  | .acknowledge w fate =>
      match s.phase w with
      | .acknowledging job =>
          some ((s.setRedis fate (s.queue.redis.acknowledge w job)).setPhase w
            (fate.next .measuringDone .head))
      | _ => none

end World

end PipeLens
