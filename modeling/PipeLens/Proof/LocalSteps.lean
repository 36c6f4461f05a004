import PipeLens.Proof.AttemptEffect
import PipeLens.Proof.Rejection
import PipeLens.Proof.WorkerStore
import PipeLens.Startup

/-!
# The steps of a process on the in-memory queue

`LocalStep` says once what each step needs and leaves. `QueueHolds` is the view of
the in-memory queue that all of them share: the envelopes that wait, the runs taken
out and not settled, and a set of run ids that is exactly the two together.
-/

namespace PipeLens.Proof

open PipeLens Transition

/-- The run of an envelope. -/
def envelopeRun (e : QueueEnvelope) : Int := e.request.runId

/-! ## The in-memory queue -/

/-- `work` has been dequeued and not settled; no run is in the queue or in work twice. -/
structure QueueHolds (m : MemoryQueue) (work : List Int) : Prop where
  unfinished : m.unfinishedTasks = m.queue.length + work.length
  runIds : ∀ runId, runId ∈ m.runIds ↔ runId ∈ m.queue.map envelopeRun ++ work
  once : (m.queue.map envelopeRun ++ work).Nodup

theorem queueHolds_empty : QueueHolds MemoryQueue.empty [] where
  unfinished := rfl
  runIds := by intro runId; simp [MemoryQueue.empty]
  once := List.nodup_nil

namespace QueueHolds

variable {m : MemoryQueue} {work : List Int}

theorem enqueue_known {request : AnalysisRequest} (hmem : request.runId ∈ m.runIds) :
    m.enqueue request = (m, false) := by
  unfold MemoryQueue.enqueue
  rw [if_pos hmem]

/-- A new run goes to the end of the queue. -/
theorem enqueue_new (h : QueueHolds m work) {request : AnalysisRequest}
    (hmem : request.runId ∉ m.runIds) :
    (m.enqueue request).2 = true
    ∧ (m.enqueue request).1.queue = m.queue ++ [{ request := request }]
    ∧ QueueHolds (m.enqueue request).1 work := by
  unfold MemoryQueue.enqueue
  rw [if_neg hmem]
  have hnew : request.runId ∉ m.queue.map envelopeRun ++ work := fun hin =>
    hmem ((h.runIds _).mpr hin)
  have hperm : ((m.queue ++ [({ request := request } : QueueEnvelope)]).map envelopeRun
      ++ work).Perm (request.runId :: (m.queue.map envelopeRun ++ work)) := by
    rw [List.map_append, List.append_assoc]
    exact List.perm_middle
  refine ⟨rfl, rfl, ?_, ?_, ?_⟩
  · simp only [MemoryQueue.putNowait, List.length_append, List.length_singleton, h.unfinished]
    omega
  · intro runId
    show _ ↔ runId ∈ (m.queue ++ [({ request := request } : QueueEnvelope)]).map envelopeRun ++ work
    rw [hperm.mem_iff]
    simp only [MemoryQueue.putNowait, Finset.mem_insert, h.runIds, List.mem_cons]
  · show ((m.queue ++ [({ request := request } : QueueEnvelope)]).map envelopeRun ++ work).Nodup
    rw [hperm.nodup_iff]
    exact List.nodup_cons.mpr ⟨hnew, h.once⟩

theorem enqueue (h : QueueHolds m work) (request : AnalysisRequest) :
    QueueHolds (m.enqueue request).1 work := by
  by_cases hmem : request.runId ∈ m.runIds
  · rw [enqueue_known hmem]
    exact h
  · exact (h.enqueue_new hmem).2.2

theorem marked_enqueue {request : AnalysisRequest} {runId : Int}
    (hin : runId ∈ (m.enqueue request).1.runIds) : runId ∈ m.runIds ∨ runId = request.runId := by
  unfold MemoryQueue.enqueue at hin
  split at hin
  · exact Or.inl hin
  · exact (Finset.mem_insert.mp hin).symm

theorem mark_enqueue {request : AnalysisRequest} :
    request.runId ∈ (m.enqueue request).1.runIds := by
  unfold MemoryQueue.enqueue
  split
  · assumption
  · exact Finset.mem_insert_self ..

theorem marked_enqueue_of {request : AnalysisRequest} {runId : Int} (hin : runId ∈ m.runIds) :
    runId ∈ (m.enqueue request).1.runIds := by
  unfold MemoryQueue.enqueue
  split
  · exact hin
  · exact Finset.mem_insert_of_mem hin

/-- The envelope at the head goes into work. -/
theorem dequeue {e : QueueEnvelope} {rest : List QueueEnvelope} (h : QueueHolds m [])
    (hq : m.queue = e :: rest) : QueueHolds { m with queue := rest } [envelopeRun e] := by
  have hperm : (rest.map envelopeRun ++ [envelopeRun e]).Perm (m.queue.map envelopeRun ++ []) := by
    rw [hq, List.append_nil]
    exact List.perm_append_singleton ..
  refine ⟨?_, ?_, ?_⟩
  · show m.unfinishedTasks = rest.length + 1
    rw [h.unfinished, hq]
    rfl
  · intro runId
    rw [hperm.mem_iff]
    exact h.runIds runId
  · rw [hperm.nodup_iff]
    exact h.once

theorem taskDone {runId : Int} (h : QueueHolds m [runId]) :
    m.taskDone = some { m with unfinishedTasks := m.queue.length } := by
  unfold MemoryQueue.taskDone
  rw [if_neg (by rw [h.unfinished]; simp), h.unfinished]
  rfl

/-- A job that is retried goes to the end of the queue. -/
theorem retry {job : QueueJob} (h : QueueHolds m [job.runId]) :
    ∃ m', m.retry job = some m' ∧ QueueHolds m' []
      ∧ m'.queue = m.queue ++ [{ job.envelope with attempts := job.envelope.attempts + 1 }]
      ∧ m'.runIds = m.runIds := by
  unfold MemoryQueue.retry
  rw [h.taskDone]
  refine ⟨_, rfl, ⟨?_, ?_, ?_⟩, rfl, rfl⟩
  · simp [MemoryQueue.putNowait]
  · intro runId
    show runId ∈ m.runIds ↔ runId ∈ (m.queue ++ [_]).map envelopeRun ++ []
    rw [List.append_nil, List.map_append]
    exact h.runIds runId
  · show ((m.queue ++ [_]).map envelopeRun ++ []).Nodup
    rw [List.append_nil, List.map_append]
    exact h.once

/-- A job that is acknowledged leaves, and its run may be enqueued again. -/
theorem acknowledge {job : QueueJob} (h : QueueHolds m [job.runId]) :
    ∃ m', m.acknowledge job = some m' ∧ QueueHolds m' [] ∧ m'.queue = m.queue
      ∧ m'.runIds = m.runIds.erase job.runId := by
  unfold MemoryQueue.acknowledge
  rw [h.taskDone]
  have hout : job.runId ∉ m.queue.map envelopeRun := fun hin =>
    (List.nodup_append.mp h.once).2.2 _ hin _ (List.mem_singleton_self _) rfl
  refine ⟨_, rfl, ⟨by simp, ?_, ?_⟩, rfl, rfl⟩
  · intro runId
    show runId ∈ m.runIds.erase job.runId ↔ runId ∈ m.queue.map envelopeRun ++ []
    rw [Finset.mem_erase, h.runIds, List.append_nil, List.mem_append, List.mem_singleton]
    constructor
    · rintro ⟨hne, hin | he⟩
      · exact hin
      · exact absurd he hne
    · intro hin
      refine ⟨?_, Or.inl hin⟩
      rintro rfl
      exact hout hin
  · rw [List.append_nil]
    exact (List.nodup_append.mp h.once).1

end QueueHolds

/-! ## The listing of a startup -/

/-- What a row is enqueued as names the row. -/
theorem queueRequest_runId {row : AnalysisRow} {request : AnalysisRequest}
    (h : CompletedRun.queueRequest row = some request) :
    request.runId = row.runId ∧ row.isQueued = true := by
  unfold CompletedRun.queueRequest at h
  split at h
  · rename_i hstatus
    obtain ⟨installationId, hi, rfl⟩ := Option.map_eq_some_iff.mp h
    exact ⟨rfl, by simp [AnalysisRow.isQueued, hstatus, hi]⟩
  · exact absurd h (by simp)

theorem queueRequest_of_isQueued {row : AnalysisRow} (h : row.isQueued = true) :
    ∃ request, CompletedRun.queueRequest row = some request := by
  unfold AnalysisRow.isQueued at h
  rw [Bool.and_eq_true, beq_iff_eq, Option.isSome_iff_exists] at h
  obtain ⟨hstatus, installationId, hi⟩ := h
  unfold CompletedRun.queueRequest
  rw [if_pos hstatus, hi]
  exact ⟨_, rfl⟩

/-- Requests of rows that are all queued are the requests of these rows, one a row. -/
theorem map_queueRequest {rows : List AnalysisRow} (h : ∀ row ∈ rows, row.isQueued = true) :
    (rows.filterMap CompletedRun.queueRequest).map (·.runId) = rows.map (·.runId) := by
  induction rows with
  | nil => rfl
  | cons row rows ih =>
      obtain ⟨request, hreq⟩ := queueRequest_of_isQueued (h row List.mem_cons_self)
      rw [List.filterMap_cons_some hreq, List.map_cons, List.map_cons, (queueRequest_runId hreq).1,
        ih fun row' hm => h row' (List.mem_cons_of_mem _ hm)]

/-- The rows behind `queued_requests`, in its order. -/
def queuedRows (db : Db) : List AnalysisRow :=
  (db.analyses.select AnalysisRow.isQueued).insertionSort fun a b => a.createdAt ≤ b.createdAt

theorem mem_queuedRows {db : Db} {row : AnalysisRow} :
    row ∈ queuedRows db ↔ db.row? row.runId = some row ∧ row.isQueued = true := by
  unfold queuedRows
  rw [(List.perm_insertionSort ..).mem_iff]
  exact List.mem_filter.trans (and_congr_left fun _ => Table.mem_iff_find?)

theorem queuedRequests_runIds (db : Db) :
    db.queuedRequests.map (·.runId) = (queuedRows db).map (·.runId) :=
  map_queueRequest fun _ hm => (mem_queuedRows.mp hm).2

/-- **The listing names each queued analysis once.** -/
theorem queuedRequests_nodup (db : Db) : (db.queuedRequests.map (·.runId)).Nodup := by
  rw [queuedRequests_runIds]
  have hperm : ((queuedRows db).map (·.runId)).Perm
      ((db.analyses.select AnalysisRow.isQueued).map (·.runId)) :=
    (List.perm_insertionSort ..).map _
  have hsub : ((db.analyses.select AnalysisRow.isQueued).map (·.runId)).Sublist
      (db.analyses.rows.map (·.runId)) := List.filter_sublist.map _
  exact hperm.nodup_iff.mpr (hsub.nodup db.analyses.nodup)

/-- **It lists the analyses that wait, and no other.** -/
theorem mem_queuedRequests {db : Db} {runId : Int} :
    runId ∈ db.queuedRequests.map (·.runId) ↔ Waits db runId := by
  rw [queuedRequests_runIds]
  constructor
  · intro hin
    obtain ⟨row, hm, rfl⟩ := List.mem_map.mp hin
    obtain ⟨hrow, hq⟩ := mem_queuedRows.mp hm
    obtain ⟨request, hreq⟩ := queueRequest_of_isQueued hq
    exact ⟨row, hrow, by rw [hreq]; rfl⟩
  · rintro ⟨row, hrow, hreq⟩
    obtain ⟨request, hreq⟩ := Option.isSome_iff_exists.mp hreq
    have hkey : row.runId = runId := Table.key_of_find? hrow
    have hmem : row ∈ queuedRows db :=
      mem_queuedRows.mpr ⟨by rw [hkey]; exact hrow, (queueRequest_runId hreq).2⟩
    exact List.mem_map.mpr ⟨row, hmem, hkey⟩

/-- The older of two analyses is listed first. -/
theorem queuedRows_ordered (db : Db) :
    (queuedRows db).Pairwise fun a b => a.createdAt ≤ b.createdAt := by
  have htotal : ∀ a b : AnalysisRow, a.createdAt ≤ b.createdAt ∨ b.createdAt ≤ a.createdAt :=
    fun a b => Int.le_total ..
  have htrans : ∀ a b c : AnalysisRow,
      a.createdAt ≤ b.createdAt → b.createdAt ≤ c.createdAt → a.createdAt ≤ c.createdAt :=
    fun a b c => Int.le_trans
  have : Std.Total fun a b : AnalysisRow => a.createdAt ≤ b.createdAt := ⟨htotal⟩
  have : IsTrans AnalysisRow fun a b => a.createdAt ≤ b.createdAt := ⟨htrans⟩
  exact List.pairwise_insertionSort _ _

/-! ## The steps -/

/-- The steps, each with what it needs. -/
inductive LocalStep (backend : Backend) (maxAttempts : Int) (s : LocalWorld) :
    LocalLabel → LocalWorld → Prop where
  | startup (h : s.lifespan = .down) :
      LocalStep backend maxAttempts s .startup
        { s with lifespan := .reconciling s.store.queuedRequests 0 }
  | reconcile (request : AnalysisRequest) (requests : List AnalysisRequest) (reconciled : Nat)
      (h : s.lifespan = .reconciling (request :: requests) reconciled) :
      LocalStep backend maxAttempts s .reconcile
        { s with
          queue := (s.queue.enqueue request).1
          lifespan := .reconciling requests
            (if (s.queue.enqueue request).2 then reconciled + 1 else reconciled) }
  | serve (reconciled : Nat) (h : s.lifespan = .reconciling [] reconciled) :
      LocalStep backend maxAttempts s .serve { s with lifespan := .serving, phase := .head }
  | stop (h : s.lifespan ≠ .down) :
      LocalStep backend maxAttempts s .stop (LocalWorld.stopped s.store s.used)
  | followup (f : FollowupRun) (now : Instant) (h : s.lifespan = .serving) :
      LocalStep backend maxAttempts s (.followup f now)
        { s with store := (s.store.recordFollowupRun backend f now).1 }
  /-- The record is stored; its handler goes on, or ends without knowing. -/
  | create (run : CompletedRun) (deliveryId : String) (clock : HandlingClock) (fate : StoreFate)
      (record : AnalysisRecord) (handlers missed : List Int) (h : s.lifespan = .serving)
      (hrecord : run.newRecord deliveryId clock = some record)
      (hlists : (handlers = run.runId :: s.handlers ∧ missed = s.missed)
        ∨ handlers = s.handlers ∧ missed = run.runId :: s.missed) :
      LocalStep backend maxAttempts s (.create run deliveryId clock fate)
        { s with store := (s.store.createIfAbsent record).1, handlers := handlers, missed := missed }
  | createFails (run : CompletedRun) (deliveryId : String) (clock : HandlingClock)
      (message : String) (h : s.lifespan = .serving) :
      LocalStep backend maxAttempts s (.create run deliveryId clock (.failed message)) s
  | enqueueNothing (runId : Int) (hm : runId ∈ s.handlers) (hw : ¬ Waits s.store runId) :
      LocalStep backend maxAttempts s (.enqueue runId)
        { s with handlers := s.handlers.erase runId }
  | enqueue (runId : Int) (row : AnalysisRow) (request : AnalysisRequest)
      (hm : runId ∈ s.handlers) (hrow : s.store.row? runId = some row)
      (hreq : CompletedRun.queueRequest row = some request) :
      LocalStep backend maxAttempts s (.enqueue runId)
        { s with
          queue := (s.queue.enqueue request).1
          handlers := s.handlers.erase runId }
  | readFails (runId : Int) (hm : runId ∈ s.handlers) :
      LocalStep backend maxAttempts s (.readFails runId)
        { s with handlers := s.handlers.erase runId, missed := runId :: s.missed }
  | dequeueNothing (h : s.phase = .head) (hq : s.queue.queue = []) :
      LocalStep backend maxAttempts s .dequeue { s with phase := .measuringEmpty }
  | dequeue (e : QueueEnvelope) (rest : List QueueEnvelope) (h : s.phase = .head)
      (hq : s.queue.queue = e :: rest) :
      LocalStep backend maxAttempts s .dequeue
        { s with
          queue := { s.queue with queue := rest }
          phase := .measuring { envelope := e } }
  | sizeIdle (h : s.phase = .measuringEmpty ∨ s.phase = .measuringDone) :
      LocalStep backend maxAttempts s .size { s with phase := .head }
  | size (job : QueueJob) (h : s.phase = .measuring job) :
      LocalStep backend maxAttempts s .size { s with phase := .entering job }
  | begin (token : Token) (fate : StoreFate) (now : Instant) (job : QueueJob)
      (h : s.phase = .entering job) (fresh : token ∉ s.used) :
      LocalStep backend maxAttempts s (.begin token fate now)
        { s with
          store := (beginAttempt s.store job.runId token fate now).2
          used := token :: s.used
          phase := World.afterAnalyze job token (beginAttempt s.store job.runId token fate now).1 }
  | advance (event : AnalyzeEvent) (job : QueueJob) (a : Attempt) (p : Progress) (store : Db)
      (h : s.phase = .analyzing job a) (hstep : a.step s.store job.runId event = some (p, store)) :
      LocalStep backend maxAttempts s (.advance event)
        { s with store := store, phase := World.afterAnalyze job a.token p }
  | handle (fate : StoreFate) (now : Instant) (job : QueueJob) (token : Token) (message : String)
      (r : CallResult Unit) (store : Db) (h : s.phase = .handling job token message)
      (hcall : storeCall s.store fate (s.store.update job.runId
        (World.handlerStatus job maxAttempts) { error := some message } none now) = (r, store)) :
      LocalStep backend maxAttempts s (.handle fate now)
        { s with store := store, phase := World.afterHandler job maxAttempts r }
  | retry (job : QueueJob) (h : s.phase = .retrying job) :
      LocalStep backend maxAttempts s .retry (s.settle (s.queue.retry job))
  | acknowledge (job : QueueJob) (h : s.phase = .acknowledging job) :
      LocalStep backend maxAttempts s .acknowledge (s.settle (s.queue.acknowledge job))

/-- What a handler reads back as nothing to enqueue does not wait. -/
theorem not_waits_of_bind {db : Db} {runId : Int}
    (h : (db.row? runId).bind CompletedRun.queueRequest = none) : ¬ Waits db runId := by
  rintro ⟨row, hrow, hsome⟩
  rw [hrow, Option.bind_some] at h
  rw [h] at hsome
  exact absurd hsome (by simp)

variable {backend : Backend} {maxAttempts : Int} {s s' : LocalWorld} {l : LocalLabel}

/-- **Every step is one of these.** -/
theorem localStep (hs : LocalWorld.step backend maxAttempts s l = some s') :
    LocalStep backend maxAttempts s l s' := by
  unfold LocalWorld.step at hs
  cases l with
  | startup =>
      dsimp only at hs
      split at hs
      · rename_i h
        exact Option.some.inj hs ▸ .startup h
      · exact absurd hs (by simp)
  | reconcile =>
      dsimp only at hs
      split at hs
      · rename_i request requests reconciled h
        exact Option.some.inj hs ▸ .reconcile request requests reconciled h
      · exact absurd hs (by simp)
  | serve =>
      dsimp only at hs
      split at hs
      · rename_i reconciled h
        exact Option.some.inj hs ▸ .serve reconciled h
      · exact absurd hs (by simp)
  | stop =>
      dsimp only at hs
      split at hs
      · exact absurd hs (by simp)
      · rename_i h
        exact Option.some.inj hs ▸ .stop h
  | followup f now =>
      dsimp only at hs
      split at hs
      · rename_i h
        exact Option.some.inj hs ▸ .followup f now h
      · exact absurd hs (by simp)
  | create run deliveryId clock fate =>
      dsimp only at hs
      split at hs
      · rename_i record h hrecord
        cases fate with
        | answered =>
            exact Option.some.inj hs ▸ .create run deliveryId clock _ record _ _ h hrecord
              (Or.inl ⟨rfl, rfl⟩)
        | failed message => exact Option.some.inj hs ▸ .createFails run deliveryId clock message h
        | unacknowledged message =>
            exact Option.some.inj hs ▸ .create run deliveryId clock _ record _ _ h hrecord
              (Or.inr ⟨rfl, rfl⟩)
      · exact absurd hs (by simp)
  | enqueue runId =>
      dsimp only at hs
      split at hs
      · rename_i hm
        split at hs
        · rename_i hnone
          exact Option.some.inj hs ▸ .enqueueNothing runId hm (not_waits_of_bind hnone)
        · rename_i request hreq
          obtain ⟨row, hrow, hreq⟩ := Option.bind_eq_some_iff.mp hreq
          exact Option.some.inj hs ▸ .enqueue runId row request hm hrow hreq
      · exact absurd hs (by simp)
  | readFails runId =>
      dsimp only at hs
      split at hs
      · rename_i hm
        exact Option.some.inj hs ▸ .readFails runId hm
      · exact absurd hs (by simp)
  | dequeue =>
      dsimp only at hs
      split at hs
      · rename_i h
        unfold MemoryQueue.dequeue at hs
        cases hq : s.queue.queue with
        | nil =>
            rw [hq] at hs
            exact Option.some.inj hs ▸ .dequeueNothing h hq
        | cons e rest =>
            rw [hq] at hs
            exact Option.some.inj hs ▸ .dequeue e rest h hq
      · exact absurd hs (by simp)
  | size =>
      dsimp only at hs
      split at hs
      · rename_i h
        exact Option.some.inj hs ▸ .sizeIdle (Or.inl h)
      · rename_i job h
        exact Option.some.inj hs ▸ .size job h
      · rename_i h
        exact Option.some.inj hs ▸ .sizeIdle (Or.inr h)
      · exact absurd hs (by simp)
  | begin token fate now =>
      dsimp only at hs
      split at hs
      · rename_i job h
        split at hs
        · exact absurd hs (by simp)
        · rename_i fresh
          exact Option.some.inj hs ▸ .begin token fate now job h fresh
      · exact absurd hs (by simp)
  | advance event =>
      dsimp only at hs
      split at hs
      · rename_i job a h
        split at hs
        · exact absurd hs (by simp)
        · rename_i p store hstep
          exact Option.some.inj hs ▸ .advance event job a p store h hstep
      · exact absurd hs (by simp)
  | handle fate now =>
      dsimp only at hs
      split at hs
      · rename_i job token message h
        exact Option.some.inj hs ▸ .handle fate now job token message _ _ h rfl
      · exact absurd hs (by simp)
  | retry =>
      dsimp only at hs
      split at hs
      · rename_i job h
        exact Option.some.inj hs ▸ .retry job h
      · exact absurd hs (by simp)
  | acknowledge =>
      dsimp only at hs
      split at hs
      · rename_i job h
        exact Option.some.inj hs ▸ .acknowledge job h
      · exact absurd hs (by simp)

end PipeLens.Proof
