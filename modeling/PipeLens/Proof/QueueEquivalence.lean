import Mathlib.Data.List.Basic
import PipeLens.MemoryQueue

/-!
# Both queues are the same queue

What a single worker can observe of a queue is a line of waiting envelopes and the
jobs it has in hand. `SameQueue` says that the in-memory queue and the Redis keys
both represent the same two lists. The Redis lists hold texts, the pending one with
the next envelope last, and the processing one in an order of its own: `LREM` goes
by value, so only its contents matter. That a run is never in there twice is what
lets both keep their run ids in a set.
-/

namespace PipeLens.Proof

open PipeLens RedisList Transition

variable {ω : Type} {codec : EnvelopeCodec} {w : ω}

/-- The job each queue hands out for an envelope. -/
def memoryJob (e : QueueEnvelope) : QueueJob := { envelope := e }

def redisJob (codec : EnvelopeCodec) (e : QueueEnvelope) : QueueJob :=
  { envelope := e, receipt := some (codec.modelDumpJson e) }

/-- `m` and `r` hold `line`, with `work` dequeued from it and not settled. -/
structure SameQueue (codec : EnvelopeCodec) (w : ω) (m : MemoryQueue) (r : Redis ω)
    (line work : List QueueEnvelope) : Prop where
  queue : m.queue = line
  pending : r.pending = (line.map codec.modelDumpJson).reverse
  processing : (r.processing w).Perm (work.map codec.modelDumpJson)
  /-- `task_done` can be called for each of them. -/
  unfinished : m.unfinishedTasks = line.length + work.length
  runIds : ∀ runId, runId ∈ m.runIds ↔ runId ∈ (line ++ work).map (·.request.runId)
  dedupe : r.dedupe = m.runIds
  once : ((line ++ work).map (·.request.runId)).Nodup

/-- The two clients have the same jobs in hand, each as its own queue hands them out. -/
structure SameClient (codec : EnvelopeCodec) (w : ω) (c : QueueClient MemoryQueue)
    (c' : QueueClient (QueueState ω)) : Prop where
  queues : ∃ line work, SameQueue codec w c.queue c'.queue.redis line work
    ∧ c.inHand = work.map memoryJob ∧ c'.inHand = work.map (redisJob codec)

theorem sameQueue_empty : SameQueue codec w MemoryQueue.empty Redis.empty [] [] where
  queue := rfl
  pending := rfl
  processing := List.Perm.nil
  unfinished := rfl
  runIds := by intro runId; simp [MemoryQueue.empty]
  dedupe := rfl
  once := List.nodup_nil

namespace SameQueue

variable {m : MemoryQueue} {r : Redis ω} {line work : List QueueEnvelope}

theorem size_eq (h : SameQueue codec w m r line work) : m.size = r.size := by
  unfold MemoryQueue.size Redis.size
  rw [h.queue, h.pending, List.length_reverse, List.length_map]

/-! ## Calls that add or take -/

theorem enqueue (h : SameQueue codec w m r line work) (request : AnalysisRequest) :
    (m.enqueue request).2 = (r.enqueue codec request).2
    ∧ ∃ line', SameQueue codec w (m.enqueue request).1 (r.enqueue codec request).1 line' work := by
  unfold MemoryQueue.enqueue Redis.enqueue Redis.enqueueScript
  rw [h.dedupe]
  by_cases hmem : request.runId ∈ m.runIds
  · rw [if_pos hmem, if_pos hmem]
    exact ⟨rfl, line, h⟩
  · rw [if_neg hmem, if_neg hmem]
    refine ⟨rfl, line ++ [{ request := request }], ?_⟩
    have hnew : request.runId ∉ (line ++ work).map (·.request.runId) := fun hin =>
      hmem ((h.runIds _).mpr hin)
    -- the new envelope stands between the two lists
    have hperm : ((line ++ [({ request := request } : QueueEnvelope)]) ++ work).Perm
        ({ request := request } :: (line ++ work)) := by
      rw [List.append_assoc]
      exact List.perm_middle
    have hids := hperm.map (·.request.runId)
    constructor
    · simp [MemoryQueue.putNowait, h.queue]
    · simp [lpush, h.pending]
    · exact h.processing
    · simp [MemoryQueue.putNowait, h.unfinished]
      omega
    · intro runId
      rw [hids.mem_iff]
      simp only [MemoryQueue.putNowait, Finset.mem_insert, h.runIds, List.map_cons,
        List.mem_cons]
    · rfl
    · rw [hids.nodup_iff]
      exact List.nodup_cons.mpr ⟨hnew, h.once⟩

variable [DecidableEq ω]

theorem heartbeat (h : SameQueue codec w m r line work) :
    SameQueue codec w m (r.heartbeat w) line work :=
  ⟨h.queue, h.pending, h.processing, h.unfinished, h.runIds, h.dedupe, h.once⟩

/-- The envelope at the head of the line goes into work. -/
theorem take {e : QueueEnvelope} (h : SameQueue codec w m r (e :: line) work) :
    r.brpoplpush w
      = ({ r with
            pending := (line.map codec.modelDumpJson).reverse
            processing := Function.update r.processing w
              (codec.modelDumpJson e :: r.processing w) }, some (codec.modelDumpJson e))
    ∧ SameQueue codec w { m with queue := line }
        { r with
            pending := (line.map codec.modelDumpJson).reverse
            processing := Function.update r.processing w
              (codec.modelDumpJson e :: r.processing w) } line (e :: work) := by
  have hperm : (line ++ e :: work).Perm (e :: (line ++ work)) := List.perm_middle
  have hids := hperm.map (·.request.runId)
  refine ⟨?_, ?_⟩
  · unfold Redis.brpoplpush
    rw [h.pending, List.map_cons, List.reverse_cons, rpop_concat]
    rfl
  · constructor
    · rfl
    · rfl
    · simpa using h.processing
    · simp [h.unfinished]
      omega
    · intro runId
      rw [hids.mem_iff]
      exact h.runIds runId
    · exact h.dedupe
    · rw [hids.nodup_iff]
      exact h.once

/-! ## Calls that settle a job -/

omit [DecidableEq ω] in
/-- Taking a job out of work: its text leaves the processing list, whatever the order there. -/
theorem unwork {i : Nat} {e : QueueEnvelope} (h : SameQueue codec w m r line work)
    (hi : work[i]? = some e) :
    codec.modelDumpJson e ∈ r.processing w
    ∧ ((r.processing w).erase (codec.modelDumpJson e)).Perm
        ((work.eraseIdx i).map codec.modelDumpJson)
    ∧ work.Perm (e :: work.eraseIdx i) := by
  obtain ⟨hlt, hget⟩ := List.getElem?_eq_some_iff.mp hi
  have hmem : e ∈ work := hget ▸ List.getElem_mem hlt
  have hwork : work.Perm (e :: work.eraseIdx i) := by
    have herase := List.erase_getElem (l := work) hlt
    rw [hget] at herase
    exact (List.perm_cons_erase hmem).trans (herase.cons e)
  have htexts := hwork.map codec.modelDumpJson
  refine ⟨h.processing.mem_iff.mpr (List.mem_map_of_mem hmem), ?_, hwork⟩
  have herased := (h.processing.trans htexts).erase (codec.modelDumpJson e)
  rwa [List.map_cons, List.erase_cons_head] at herased

theorem acknowledge {i : Nat} {e : QueueEnvelope} (h : SameQueue codec w m r line work)
    (hi : work[i]? = some e) :
    ∃ m', m.acknowledge (memoryJob e) = some m'
      ∧ SameQueue codec w m' (r.acknowledge w (redisJob codec e)) line (work.eraseIdx i) := by
  obtain ⟨hmem, herase, hwork⟩ := h.unwork hi
  have hlen := hwork.length_eq
  rw [List.length_cons] at hlen
  have hids : ((line ++ work).map (·.request.runId)).Perm
      (e.request.runId :: (line ++ work.eraseIdx i).map (·.request.runId)) :=
    ((hwork.append_left line).trans List.perm_middle).map (·.request.runId)
  have hsplit := List.nodup_cons.mp (hids.nodup_iff.mp h.once)
  unfold MemoryQueue.acknowledge MemoryQueue.taskDone
  rw [if_neg (by rw [h.unfinished]; omega), Option.map_some]
  refine ⟨_, rfl, ?_⟩
  simp only [Redis.acknowledge, redisJob, Redis.acknowledgeScript, lrem_of_mem hmem,
    Nat.zero_lt_one, gt_iff_lt, if_true]
  constructor
  · exact h.queue
  · exact h.pending
  · simpa using herase
  · show m.unfinishedTasks - 1 = _
    rw [h.unfinished]
    omega
  · intro runId
    simp only [memoryJob, Finset.mem_erase, h.runIds, hids.mem_iff, List.mem_cons]
    constructor
    · rintro ⟨hne, heq | hin⟩
      · exact absurd heq hne
      · exact hin
    · intro hin
      exact ⟨fun heq => hsplit.1 (heq ▸ hin), Or.inr hin⟩
  · rw [h.dedupe]
    rfl
  · exact hsplit.2

theorem retry {i : Nat} {e : QueueEnvelope} (h : SameQueue codec w m r line work)
    (hi : work[i]? = some e) :
    ∃ m', m.retry (memoryJob e) = some m'
      ∧ SameQueue codec w m' (r.retry codec w (redisJob codec e))
          (line ++ [{ e with attempts := e.attempts + 1 }]) (work.eraseIdx i) := by
  obtain ⟨hmem, herase, hwork⟩ := h.unwork hi
  have hlen := hwork.length_eq
  rw [List.length_cons] at hlen
  -- the run goes from work to the end of the line, under the same id
  have hids : ((line ++ work).map (·.request.runId)).Perm
      (List.map (·.request.runId)
        (line ++ [{ e with attempts := e.attempts + 1 }] ++ work.eraseIdx i)) := by
    have hwork' := (hwork.append_left line).map (·.request.runId)
    simpa using hwork'
  unfold MemoryQueue.retry MemoryQueue.taskDone
  rw [if_neg (by rw [h.unfinished]; omega), Option.map_some]
  refine ⟨_, rfl, ?_⟩
  simp only [Redis.retry, redisJob, Redis.retryScript, lrem_of_mem hmem, Nat.zero_lt_one,
    gt_iff_lt, if_true]
  constructor
  · simp [MemoryQueue.putNowait, memoryJob, h.queue]
  · simp [lpush, h.pending]
  · simpa using herase
  · simp only [MemoryQueue.putNowait, List.length_append, List.length_singleton, h.unfinished]
    omega
  · intro runId
    rw [← hids.mem_iff]
    exact h.runIds runId
  · exact h.dedupe
  · rw [← hids.nodup_iff]
    exact h.once

end SameQueue

/-! ## Clients -/

section Client

variable {c : QueueClient MemoryQueue} {c' : QueueClient (QueueState ω)}

theorem sameClient_empty : SameClient codec w ⟨MemoryQueue.empty, []⟩
    (⟨QueueState.empty, []⟩ : QueueClient (QueueState ω)) :=
  ⟨⟨[], [], sameQueue_empty, rfl, rfl⟩⟩

/-- The replies are equal, and the clients stay the same. -/
def Agree (codec : EnvelopeCodec) (w : ω) (a : QueueClient MemoryQueue × QueueAnswer)
    (a' : QueueClient (QueueState ω) × QueueAnswer) : Prop :=
  a.2 = a'.2 ∧ SameClient codec w a.1 a'.1

theorem SameClient.settle (h : SameClient codec w c c') (i : Nat)
    {call : MemoryQueue → QueueJob → Option MemoryQueue} (call' : Redis ω → QueueJob → Redis ω)
    (hcall : ∀ {line work e}, SameQueue codec w c.queue c'.queue.redis line work →
      work[i]? = some e → ∃ m' line', call c.queue (memoryJob e) = some m'
        ∧ SameQueue codec w m' (call' c'.queue.redis (redisJob codec e)) line'
            (work.eraseIdx i)) :
    Agree codec w (c.settle call i)
      (c'.settle (fun q job => some { q with redis := call' q.redis job }) i) := by
  obtain ⟨line, work, hq, hjobs, hjobs'⟩ := h.queues
  unfold QueueClient.settle
  rw [hjobs, hjobs', List.getElem?_map, List.getElem?_map]
  cases hi : work[i]? with
  | none => exact ⟨rfl, ⟨line, work, hq, hjobs, hjobs'⟩⟩
  | some e =>
      obtain ⟨m', line', hm', hsame⟩ := hcall hq hi
      simp only [Option.map_some, hm']
      exact ⟨rfl, ⟨line', work.eraseIdx i, hsame, List.eraseIdx_map ..,
        List.eraseIdx_map ..⟩⟩

variable [DecidableEq ω]

theorem SameClient.dequeue (h : SameClient codec w c c') :
    Agree codec w (c.answer inMemoryAnalysisQueue .dequeue)
      (c'.answer (redisAnalysisQueue codec w) .dequeue) := by
  obtain ⟨line, work, hq, hjobs, hjobs'⟩ := h.queues
  have hbeat := hq.heartbeat
  simp only [QueueClient.answer, inMemoryAnalysisQueue, redisAnalysisQueue, MemoryQueue.dequeue,
    QueueState.pop]
  rw [hq.queue]
  cases line with
  | nil =>
      have hpop : (c'.queue.redis.heartbeat w).brpoplpush w
          = (c'.queue.redis.heartbeat w, none) := by
        unfold Redis.brpoplpush
        rw [hbeat.pending]
        rfl
      rw [hpop]
      exact ⟨rfl, ⟨[], work, hbeat, hjobs, hjobs'⟩⟩
  | cons e line =>
      obtain ⟨hpop, hsame⟩ := hbeat.take
      rw [hpop]
      simp only [codec.validate_dump]
      exact ⟨rfl, ⟨line, e :: work, hsame, by rw [hjobs]; rfl, by rw [hjobs']; rfl⟩⟩

theorem SameClient.answer (h : SameClient codec w c c') (call : QueueCall) :
    Agree codec w (c.answer inMemoryAnalysisQueue call)
      (c'.answer (redisAnalysisQueue codec w) call) := by
  obtain ⟨line, work, hq, hjobs, hjobs'⟩ := h.queues
  cases call with
  | enqueue request =>
      obtain ⟨hreply, line', hsame⟩ := hq.enqueue request
      exact ⟨congrArg QueueAnswer.enqueued hreply, ⟨line', work, hsame, hjobs, hjobs'⟩⟩
  | dequeue => exact h.dequeue
  | acknowledge i =>
      refine h.settle i (fun r job => r.acknowledge w job) fun hq hi => ?_
      obtain ⟨m', hm', hsame⟩ := hq.acknowledge hi
      exact ⟨m', _, hm', hsame⟩
  | retry i =>
      refine h.settle i (fun r job => r.retry codec w job) fun hq hi => ?_
      obtain ⟨m', hm', hsame⟩ := hq.retry hi
      exact ⟨m', _, hm', hsame⟩
  | size => exact ⟨congrArg QueueAnswer.size hq.size_eq, h⟩

end Client

/-- **The two queues answer every list of calls alike.** -/
theorem memory_redis_replies [DecidableEq ω] (codec : EnvelopeCodec) (w : ω) (calls : List QueueCall) :
    replies (QueueClient.answer inMemoryAnalysisQueue) ⟨MemoryQueue.empty, []⟩ calls
      = replies (QueueClient.answer (redisAnalysisQueue codec w)) ⟨QueueState.empty, []⟩ calls :=
  replies_eq_of_simulation (fun h call => h.answer call) sameClient_empty calls

end PipeLens.Proof
