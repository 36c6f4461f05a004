import Mathlib.Data.Finset.Basic
import Mathlib.Logic.Function.Basic
import PipeLens.Lib.RedisList
import PipeLens.Lib.Transition
import PipeLens.Models

/-!
# The Redis analysis queue

`RedisAnalysisQueue` of `queue.py`: one pending list, one processing list per
worker, a set of queued run ids against double enqueueing, a set of registered
workers and one expiring lease per worker. Every Lua script and every single
command is one atomic step of the server.

Lists hold the JSON text of envelopes. `pydantic` is not modelled; what the queue
needs of it is `EnvelopeCodec`: decoding an encoded envelope gives it back.
-/

namespace PipeLens

open RedisList

/-- `QueueEnvelope`. -/
structure QueueEnvelope where
  request : AnalysisRequest
  attempts : Int := 0
  deriving DecidableEq, Repr

/-- `QueueJob`. -/
structure QueueJob where
  envelope : QueueEnvelope
  receipt : Option String := none
  deriving DecidableEq, Repr

/-- `model_dump_json` and `model_validate_json` of `QueueEnvelope`. -/
structure EnvelopeCodec where
  modelDumpJson : QueueEnvelope → String
  modelValidateJson : String → Option QueueEnvelope
  validate_dump : ∀ e, modelValidateJson (modelDumpJson e) = some e

/--
The keys of one queue. A worker's processing key and lease key are functions of
its id, so both are indexed by the id itself, and the workers set holds ids.
-/
structure Redis (ω : Type) where
  /-- `pending_key`. -/
  pending : List String
  /-- `processing_key` of each worker. -/
  processing : ω → List String
  /-- Whether `lease_key` exists. -/
  lease : ω → Bool
  /-- `workers_key`. -/
  workers : Finset ω
  /-- `dedupe_key`; the members are `str(run_id)`. -/
  dedupe : Finset Int

namespace Redis

variable {ω : Type}

/-- An empty database. -/
def empty : Redis ω where
  pending := []
  processing := fun _ => []
  lease := fun _ => false
  workers := ∅
  dedupe := ∅

variable [DecidableEq ω]

/-- `_ENQUEUE_SCRIPT`. -/
def enqueueScript (r : Redis ω) (runId : Int) (envelope : String) : Redis ω × Nat :=
  if runId ∈ r.dedupe then (r, 0)
  else ({ r with dedupe := insert runId r.dedupe, pending := lpush envelope r.pending }, 1)

/-- `_ACKNOWLEDGE_SCRIPT`, with the processing key of `w`. -/
def acknowledgeScript (r : Redis ω) (w : ω) (receipt : String) (runId : Int) : Redis ω × Nat :=
  let removed := lrem receipt (r.processing w)
  let r' := { r with processing := Function.update r.processing w removed.2 }
  -- a receipt that recovery has taken away must not free the run for `enqueue`
  if removed.1 > 0 then ({ r' with dedupe := r'.dedupe.erase runId }, removed.1)
  else (r', removed.1)

/-- `_RETRY_SCRIPT`. -/
def retryScript (r : Redis ω) (w : ω) (receipt envelope : String) : Redis ω × Nat :=
  let removed := lrem receipt (r.processing w)
  let r' := { r with processing := Function.update r.processing w removed.2 }
  -- the run stays in the dedupe set: it is queued before and after
  if removed.1 > 0 then ({ r' with pending := lpush envelope r'.pending }, removed.1)
  else (r', removed.1)

/-- `_RECOVER_SCRIPT`, on the lease and processing keys of `w`. -/
def recoverScript (r : Redis ω) (w : ω) : Redis ω × Nat :=
  -- the lease is looked at inside the script, not when the workers were listed
  if r.lease w then (r, 0)
  else
    let moved := drain (r.processing w) r.pending
    ({ r with
        processing := Function.update r.processing w moved.1
        pending := moved.2.1
        workers := r.workers.erase w }, moved.2.2)

/-- `BRPOPLPUSH pending processing`; `none` is the timeout reply. -/
def brpoplpush (r : Redis ω) (w : ω) : Redis ω × Option String :=
  match rpop r.pending with
  | none => (r, none)
  | some (raw, rest) =>
      ({ r with
          pending := rest
          processing := Function.update r.processing w (lpush raw (r.processing w)) }, some raw)

/-- `heartbeat`: the `MULTI` of `SADD workers` and `SET lease EX`. -/
def heartbeat (r : Redis ω) (w : ω) : Redis ω :=
  { r with workers := insert w r.workers, lease := Function.update r.lease w true }

/-- The lease of `w` runs out. -/
def expire (r : Redis ω) (w : ω) : Redis ω :=
  { r with lease := Function.update r.lease w false }

/-- `size`: `LLEN pending`. -/
def size (r : Redis ω) : Nat := r.pending.length

/-- `RedisAnalysisQueue.enqueue`. -/
def enqueue (codec : EnvelopeCodec) (r : Redis ω) (request : AnalysisRequest) : Redis ω × Bool :=
  let created := r.enqueueScript request.runId (codec.modelDumpJson { request := request })
  (created.1, created.2 != 0)

/-- `RedisAnalysisQueue.acknowledge`; a job without a receipt is not in Redis. -/
def acknowledge (r : Redis ω) (w : ω) (job : QueueJob) : Redis ω :=
  match job.receipt with
  | none => r
  | some receipt => (r.acknowledgeScript w receipt job.envelope.request.runId).1

/-- `RedisAnalysisQueue.retry`: the envelope goes back with one more attempt. -/
def retry (codec : EnvelopeCodec) (r : Redis ω) (w : ω) (job : QueueJob) : Redis ω :=
  let retried := { job.envelope with attempts := job.envelope.attempts + 1 }
  match job.receipt with
  | none => r
  | some receipt => (r.retryScript w receipt (codec.modelDumpJson retried)).1

/-- `RedisAnalysisQueue.recover_orphaned` of worker `v`, given the `SMEMBERS` reply. -/
def recoverOrphaned (r : Redis ω) (v : ω) (processingKeys : List ω) : Redis ω × Nat :=
  processingKeys.foldl
    (fun acc w =>
      -- a worker never recovers its own list
      if w = v then acc
      else
        let recovered := acc.1.recoverScript w
        (recovered.1, acc.2 + recovered.2))
    (r, 0)

end Redis

/-! ## The queue under arbitrary callers -/

/-- The server together with every job any worker was ever handed. -/
structure QueueState (ω : Type) where
  redis : Redis ω
  /-- Jobs `dequeue` returned to each worker; a worker may use an old one at any time. -/
  issued : ω → List QueueJob

def QueueState.empty {ω : Type} : QueueState ω where
  redis := Redis.empty
  issued := fun _ => []

/-- The atomic steps. `recover v w` is the script run by `v` against the keys of `w`. -/
inductive QueueAction (ω : Type) where
  | enqueue (request : AnalysisRequest)
  | heartbeat (w : ω)
  | pop (w : ω)
  | acknowledge (w : ω) (job : QueueJob)
  | retry (w : ω) (job : QueueJob)
  | recover (v w : ω)
  | expire (w : ω)
  deriving DecidableEq

/-- How `dequeue` ends: no job in time, a text that is no envelope, or a job. -/
inductive Dequeued where
  | timeout
  | invalid
  | job (job : QueueJob)
  deriving DecidableEq

namespace QueueState

variable {ω : Type} [DecidableEq ω] (codec : EnvelopeCodec)

/-- The `BRPOPLPUSH` of `dequeue`, and what comes of the reply. -/
def pop (q : QueueState ω) (w : ω) : QueueState ω × Dequeued :=
  let popped := q.redis.brpoplpush w
  match popped.2 with
  | none => ({ q with redis := popped.1 }, .timeout)
  | some receipt =>
      match codec.modelValidateJson receipt with
      -- the text has been moved by the time it fails to decode
      | none => ({ q with redis := popped.1 }, .invalid)
      | some envelope =>
          let job : QueueJob := { envelope := envelope, receipt := some receipt }
          ({ redis := popped.1, issued := Function.update q.issued w (job :: q.issued w) },
            .job job)

/-- One atomic step; a worker can only use a job it was handed at some point. -/
def step (q : QueueState ω) : QueueAction ω → Option (QueueState ω)
  | .enqueue request => some { q with redis := (q.redis.enqueue codec request).1 }
  | .heartbeat w => some { q with redis := q.redis.heartbeat w }
  | .pop w => some (q.pop codec w).1
  | .acknowledge w job =>
      if job ∈ q.issued w then some { q with redis := q.redis.acknowledge w job } else none
  | .retry w job =>
      if job ∈ q.issued w then some { q with redis := q.redis.retry codec w job } else none
  | .recover v w =>
      if v = w then none else some { q with redis := (q.redis.recoverScript w).1 }
  | .expire w => some { q with redis := q.redis.expire w }

end QueueState

/-! ## Where envelopes can be -/

/-- One of the lists that hold envelopes. -/
inductive Loc (ω : Type) where
  | pending
  | processing (w : ω)
  deriving DecidableEq

/-- The list at a place. -/
def Redis.list {ω : Type} (r : Redis ω) : Loc ω → List String
  | .pending => r.pending
  | .processing w => r.processing w

/-- The run id an encoded envelope decodes to. -/
def EnvelopeCodec.runIdOf (codec : EnvelopeCodec) (raw : String) : Option Int :=
  (codec.modelValidateJson raw).map (·.request.runId)

/-- The run ids of a list of encoded envelopes. -/
def EnvelopeCodec.runIds (codec : EnvelopeCodec) (raws : List String) : List Int :=
  raws.filterMap codec.runIdOf

end PipeLens
