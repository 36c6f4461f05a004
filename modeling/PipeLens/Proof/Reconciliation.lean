import PipeLens.Proof.LocalSteps

/-!
# No queued analysis is lost with the process

The in-memory queue dies with its process, and the store does not. What ties the
two together while the process serves: an analysis that waits for a worker has its
run id in the queue's set, or a handler is about to enqueue it, or its handler
failed in between. A startup establishes this from the store alone, because nothing
else runs before it is over; from then on every step keeps it.
-/

namespace PipeLens.Proof

open PipeLens Transition

variable {backend : Backend} {maxAttempts : Int} {s s' : LocalWorld} {l : LocalLabel}

/-! ## Rows -/

/-- What a follow-up leaves of a row: all that the queue and the worker look at. -/
def pendingState (row : AnalysisRow) : AnalysisStatus × Option Token × Option AnalysisRequest :=
  (row.status, row.attemptToken, CompletedRun.queueRequest row)

/-- The row of the run looks the same to the queue and the worker. -/
def SamePending (db db' : Db) (runId : Int) : Prop :=
  (db'.row? runId).map pendingState = (db.row? runId).map pendingState

theorem SamePending.of_eq {db db' : Db} {runId : Int} (h : db'.row? runId = db.row? runId) :
    SamePending db db' runId := by
  unfold SamePending
  rw [h]

theorem SamePending.row {db db' : Db} {runId : Int} (h : SamePending db db' runId)
    {row : AnalysisRow} (hr : db.row? runId = some row) :
    ∃ row', db'.row? runId = some row' ∧ pendingState row' = pendingState row := by
  unfold SamePending at h
  rw [hr, Option.map_some, Option.map_eq_some_iff] at h
  exact h

theorem SamePending.symm {db db' : Db} {runId : Int} (h : SamePending db db' runId) :
    SamePending db' db runId := Eq.symm h

theorem SamePending.startable {db db' : Db} {runId : Int} (h : SamePending db db' runId)
    (hs : Startable db runId) : Startable db' runId := by
  obtain ⟨row, hr, hstatus⟩ := hs
  obtain ⟨row', hr', hclaim⟩ := h.row hr
  have hst : row'.status = row.status := congrArg Prod.fst hclaim
  exact ⟨row', hr', by rw [hst]; exact hstatus⟩

theorem SamePending.current {db db' : Db} {runId : Int} {t : Token} (h : SamePending db db' runId)
    (hc : Current db runId t) : Current db' runId t := by
  obtain ⟨row, hr, ht⟩ := hc
  obtain ⟨row', hr', hclaim⟩ := h.row hr
  have htok : row'.attemptToken = row.attemptToken := congrArg (·.2.1) hclaim
  exact ⟨row', hr', by rw [htok]; exact ht⟩

theorem SamePending.waits {db db' : Db} {runId : Int} (h : SamePending db db' runId)
    (hw : Waits db runId) : Waits db' runId := by
  obtain ⟨row, hr, hreq⟩ := hw
  obtain ⟨row', hr', hclaim⟩ := h.row hr
  have hq : CompletedRun.queueRequest row' = CompletedRun.queueRequest row :=
    congrArg (·.2.2) hclaim
  exact ⟨row', hr', by rw [hq]; exact hreq⟩

theorem startable_of_waits {db : Db} {runId : Int} (h : Waits db runId) :
    Startable db runId := by
  obtain ⟨row, hr, hreq⟩ := h
  obtain ⟨request, hreq⟩ := Option.isSome_iff_exists.mp hreq
  have hq := (queueRequest_runId hreq).2
  unfold AnalysisRow.isQueued at hq
  rw [Bool.and_eq_true, beq_iff_eq] at hq
  exact ⟨row, hr, Or.inl hq.1⟩

theorem not_waits_of_status {db : Db} {runId : Int} {row : AnalysisRow}
    (hr : db.row? runId = some row) (hs : row.status ≠ .queued) : ¬ Waits db runId := by
  rintro ⟨row', hr', hreq⟩
  rw [hr] at hr'
  obtain rfl := Option.some.inj hr'
  unfold CompletedRun.queueRequest at hreq
  rw [if_neg hs] at hreq
  exact absurd hreq (by simp)

theorem newRecord_runId {run : CompletedRun} {deliveryId : String} {clock : HandlingClock}
    {record : AnalysisRecord} (h : run.newRecord deliveryId clock = some record) :
    record.runId = run.runId := by
  unfold CompletedRun.newRecord at h
  split at h
  · rw [← Option.some.inj h]
    rfl
  · exact absurd h (by simp)

/-! ## What the worker holds -/

/-- The run of the job in the worker's hands. -/
def held (phase : Phase) : List Int := (phase.job?.map QueueJob.runId).toList

theorem held_afterAnalyze (job : QueueJob) (token : Token) (p : Progress) :
    held (World.afterAnalyze job token p) = [job.runId] := by
  cases p <;> rfl

theorem held_afterHandler (job : QueueJob) (r : CallResult Unit) :
    World.afterHandler job maxAttempts r = .dead
    ∨ held (World.afterHandler job maxAttempts r) = [job.runId] := by
  cases r with
  | ok value =>
      refine Or.inr ?_
      dsimp only [World.afterHandler]
      split <;> rfl
  | superseded message => exact Or.inl rfl
  | raised message => exact Or.inl rfl

/-- Who can change what the queue and the worker see of a run. -/
inductive LocalRow (s : LocalWorld) (l : LocalLabel) (s' : LocalWorld) (runId : Int) : Prop where
  | keep (h : SamePending s.store s'.store runId)
  | created (run : CompletedRun) (deliveryId : String) (clock : HandlingClock) (fate : StoreFate)
      (label : l = .create run deliveryId clock fate) (id : run.runId = runId)
      (absent : s.store.row? runId = none) (present : ∃ row, s'.store.row? runId = some row)
  | begun (token : Token) (fate : StoreFate) (now : Instant) (job : QueueJob)
      (label : l = .begin token fate now) (phase : s.phase = .entering job)
      (id : job.runId = runId) (startable : Startable s.store runId)
      (h : ∃ row', s'.store.row? runId = some row' ∧ row'.status = .running
        ∧ row'.attemptToken = some token)
  | advanced (event : AnalyzeEvent) (job : QueueJob) (a : Attempt) (status : AnalysisStatus)
      (token : Option Token) (label : l = .advance event) (phase : s.phase = .analyzing job a)
      (id : job.runId = runId) (moved : status ≠ .queued)
      (wrote : WroteAs s.store s'.store runId a.token status token)
  | handled (fate : StoreFate) (now : Instant) (job : QueueJob) (token : Token) (message : String)
      (row : AnalysisRow) (label : l = .handle fate now)
      (phase : s.phase = .handling job token message) (id : job.runId = runId)
      (before : s.store.row? runId = some row)
      (after : s'.store.row? runId = some (updateValues (World.handlerStatus job maxAttempts)
        { error := some message } now row))

/-- Only the writes of an attempt reach a row, and each says which status it leaves. -/
theorem AttemptEffect.wroteAs {db db' : Db} {runId : Int} {a : Attempt} {e : AnalyzeEvent}
    {p : Progress} (h : AttemptEffect db runId a e p db') :
    SameRows db db'
    ∨ ∃ status token, status ≠ .queued ∧ WroteAs db db' runId a.token status token := by
  cases h with
  | quiet a' _ same _ => exact Or.inl same
  | wrote a' _ hw _ => exact Or.inr ⟨_, _, by simp, hw⟩
  | superseded _ same => exact Or.inl same
  | completed hw => exact Or.inr ⟨_, _, by simp, hw⟩
  | failed message hw => exact Or.inr ⟨_, _, by simp, hw⟩
  | broke message _ same => exact Or.inl same
  | brokeFinished message status _ hw done => exact Or.inr ⟨_, _, done.1, hw⟩

/-- **Every step, seen from one row.** -/
theorem localRow (hs : LocalStep backend maxAttempts s l s') (runId : Int) :
    @LocalRow maxAttempts s l s' runId := by
  cases hs with
  | followup f now _ => exact .keep (followup_map pendingState (fun _ => rfl) runId)
  | create run deliveryId clock fate record handlers missed _ hrecord _ =>
      rcases createIfAbsent_row? s.store record runId with he | ⟨hn, hid, hrow⟩
      · exact .keep (.of_eq he)
      · exact .created run deliveryId clock fate rfl ((newRecord_runId hrecord).symm.trans hid) hn
          ⟨_, hrow⟩
  | begin token fate now job h fresh =>
      have heff := beginEffect s.store job.runId token fate now
      generalize hres : beginAttempt s.store job.runId token fate now = res at heff ⊢
      obtain ⟨p, store⟩ := res
      by_cases hid : job.runId = runId
      · subst hid
        cases heff with
        | begun a row' _ _ hw hstatus htok hstart =>
            exact .begun token fate now job rfl h rfl hstart ⟨row', hw.self, hstatus, htok⟩
        | refused _ => exact .keep (.of_eq rfl)
        | broke message _ => exact .keep (.of_eq rfl)
        | brokeBegun message _ row' hw hstatus htok hstart =>
            exact .begun token fate now job rfl h rfl hstart ⟨row', hw.self, hstatus, htok⟩
      · have hne : runId ≠ job.runId := fun he => hid he.symm
        cases heff with
        | begun a row' _ _ hw _ _ _ => exact .keep (.of_eq (hw.other runId hne))
        | refused _ => exact .keep (.of_eq rfl)
        | broke message _ => exact .keep (.of_eq rfl)
        | brokeBegun message _ row' hw _ _ _ => exact .keep (.of_eq (hw.other runId hne))
  | advance event job a p store h hstep =>
      rcases (attemptEffect hstep).wroteAs with same | ⟨status, token, hmoved, hw⟩
      · exact .keep (.of_eq (same runId))
      · by_cases hid : job.runId = runId
        · subst hid
          exact .advanced event job a status token rfl h rfl hmoved hw
        · exact .keep (.of_eq (hw.other fun he => hid he.symm))
  | handle fate now job token message r store h hcall =>
      obtain ⟨hother, hnone, hself⟩ := handler_call hcall
      by_cases hid : job.runId = runId
      · subst hid
        cases hr : s.store.row? job.runId with
        | none => exact .keep (.of_eq ((hnone hr).trans hr.symm))
        | some row =>
            rcases hself row hr with ⟨hk, _⟩ | hw
            · exact .keep (.of_eq (hk.trans hr.symm))
            · exact .handled fate now job token message row rfl h rfl hr hw
      · exact .keep (.of_eq (hother runId fun he => hid he.symm))
  | retry job h =>
      refine .keep (.of_eq ?_)
      unfold LocalWorld.settle
      split <;> rfl
  | acknowledge job h =>
      refine .keep (.of_eq ?_)
      unfold LocalWorld.settle
      split <;> rfl
  | startup | reconcile | serve | stop | createFails | enqueueNothing | enqueue | readFails
  | dequeueNothing | dequeue | sizeIdle | size => exact .keep (.of_eq rfl)

/-- An analysis stays in the store. -/
theorem row_stays_local (hs : LocalStep backend maxAttempts s l s') {runId : Int}
    (h : ∃ row, s.store.row? runId = some row) : ∃ row, s'.store.row? runId = some row := by
  obtain ⟨row, hr⟩ := h
  cases localRow hs runId with
  | keep h =>
      obtain ⟨row', hr', _⟩ := h.row hr
      exact ⟨row', hr'⟩
  | created run deliveryId clock fate _ _ absent _ =>
      rw [hr] at absent
      exact absurd absent (by simp)
  | begun token fate now job _ _ _ _ h =>
      obtain ⟨row', hr', _⟩ := h
      exact ⟨row', hr'⟩
  | advanced event job a status token _ _ _ _ wrote =>
      obtain ⟨_, row', _, _, hw, _⟩ := wrote
      exact ⟨row', hw.self⟩
  | handled fate now job token message row' _ _ _ _ after => exact ⟨_, after⟩

/-! ## The invariant -/

/-- A fresh envelope for a request. -/
def freshEnvelope (request : AnalysisRequest) : QueueEnvelope := { request := request }

structure LocalInv (s : LocalWorld) : Prop where
  queue : ∃ work, QueueHolds s.queue work ∧ (s.phase = .dead ∨ work = held s.phase)
  idle : s.lifespan ≠ .serving → s.phase = .off ∧ s.handlers = []
  down : s.lifespan = .down → s.queue = MemoryQueue.empty
  starting : ∀ requests reconciled, s.lifespan = .reconciling requests reconciled →
    ∃ listed, listed ++ requests = s.store.queuedRequests
      ∧ s.queue.queue = listed.map freshEnvelope ∧ reconciled = listed.length
  stored : ∀ runId, runId ∈ s.queue.runIds → ∃ row, s.store.row? runId = some row
  reached : s.lifespan = .serving → ∀ runId, Waits s.store runId →
    runId ∈ s.queue.runIds ∨ runId ∈ s.handlers ∨ runId ∈ s.missed
  finished : ∀ job, s.phase = .acknowledging job → ¬ Startable s.store job.runId
  /-- The only worker's attempt is always the current one. -/
  attempt : ∀ job a, s.phase = .analyzing job a →
    Current s.store job.runId a.token ∧ ¬ GivenUp a

theorem localInv_stopped (store : Db) (used : List Token) :
    LocalInv (LocalWorld.stopped store used) where
  queue := ⟨[], queueHolds_empty, Or.inr rfl⟩
  idle := fun _ => ⟨rfl, rfl⟩
  down := fun _ => rfl
  starting := fun _ _ h => absurd h (by simp [LocalWorld.stopped])
  stored := fun _ h => absurd h (by simp [LocalWorld.stopped, MemoryQueue.empty])
  reached := fun h => absurd h (by simp [LocalWorld.stopped])
  finished := fun _ h => absurd h (by simp [LocalWorld.stopped])
  attempt := fun _ _ h => absurd h (by simp [LocalWorld.stopped])

section Holding

variable (h : LocalInv s)
include h

/-- What the worker holds is marked in the queue's set. -/
theorem held_marked {job : QueueJob} (hp : s.phase.job? = some job) :
    QueueHolds s.queue [job.runId] := by
  obtain ⟨work, hq, hdead | hwork⟩ := h.queue
  · rw [hdead] at hp
    exact absurd hp (by simp [Phase.job?])
  · rw [hwork, show held s.phase = [job.runId] by simp [held, hp]] at hq
    exact hq

theorem marked_of_job {job : QueueJob} (hp : s.phase.job? = some job) :
    job.runId ∈ s.queue.runIds :=
  ((held_marked h hp).runIds _).mpr (List.mem_append_right _ (List.mem_singleton_self _))

/-- Nothing is in the worker's hands. -/
theorem holds_nothing (hp : s.phase ≠ .dead) (hj : s.phase.job? = none) :
    QueueHolds s.queue [] := by
  obtain ⟨work, hq, hdead | hwork⟩ := h.queue
  · exact absurd hdead hp
  · rw [hwork, show held s.phase = [] by simp [held, hj]] at hq
    exact hq

/-- A worker that is not off belongs to a process that serves. -/
theorem serving_of_phase (hp : s.phase ≠ .off) : s.lifespan = .serving := by
  by_contra hne
  exact hp (h.idle hne).1

end Holding

/-! ## One step -/

theorem settle_some {queue : MemoryQueue} :
    s.settle (some queue) = { s with queue := queue, phase := .measuringDone } := rfl

theorem queue_localStep (h : LocalInv s) (hs : LocalStep backend maxAttempts s l s') :
    ∃ work, QueueHolds s'.queue work ∧ (s'.phase = .dead ∨ work = held s'.phase) := by
  obtain ⟨work, hq, hw⟩ := h.queue
  cases hs with
  | reconcile request requests reconciled _ => exact ⟨work, hq.enqueue request, hw⟩
  | enqueue runId row request _ _ _ => exact ⟨work, hq.enqueue request, hw⟩
  | serve reconciled hl =>
      have hoff := (h.idle (by rw [hl]; simp)).1
      have hnone := holds_nothing h (by rw [hoff]; simp) (by rw [hoff]; rfl)
      exact ⟨[], hnone, Or.inr rfl⟩
  | stop _ => exact ⟨[], queueHolds_empty, Or.inr rfl⟩
  | dequeueNothing hp _ =>
      have hnone := holds_nothing h (by rw [hp]; simp) (by rw [hp]; rfl)
      exact ⟨[], hnone, Or.inr rfl⟩
  | dequeue e rest hp hqueue =>
      have hnone := holds_nothing h (by rw [hp]; simp) (by rw [hp]; rfl)
      exact ⟨_, hnone.dequeue hqueue, Or.inr rfl⟩
  | sizeIdle hp =>
      have hnone : QueueHolds s.queue [] := by
        rcases hp with hp | hp <;>
          exact holds_nothing h (by rw [hp]; simp) (by rw [hp]; rfl)
      exact ⟨[], hnone, Or.inr rfl⟩
  | size job hp =>
      have hheld : QueueHolds s.queue [job.runId] := held_marked h (by rw [hp]; rfl)
      exact ⟨_, hheld, Or.inr rfl⟩
  | begin token fate now job hp _ =>
      have hheld : QueueHolds s.queue [job.runId] := held_marked h (by rw [hp]; rfl)
      exact ⟨_, hheld, Or.inr (held_afterAnalyze job token _).symm⟩
  | advance event job a p store hp _ =>
      have hheld : QueueHolds s.queue [job.runId] := held_marked h (by rw [hp]; rfl)
      exact ⟨_, hheld, Or.inr (held_afterAnalyze job a.token _).symm⟩
  | handle fate now job token message r store hp _ =>
      have hheld : QueueHolds s.queue [job.runId] := held_marked h (by rw [hp]; rfl)
      exact ⟨_, hheld, (held_afterHandler job r).imp id Eq.symm⟩
  | retry job hp =>
      have hheld : QueueHolds s.queue [job.runId] := held_marked h (by rw [hp]; rfl)
      obtain ⟨m', hm, hq', _, _⟩ := hheld.retry
      rw [hm, settle_some]
      exact ⟨[], hq', Or.inr rfl⟩
  | acknowledge job hp =>
      have hheld : QueueHolds s.queue [job.runId] := held_marked h (by rw [hp]; rfl)
      obtain ⟨m', hm, hq', _, _⟩ := hheld.acknowledge
      rw [hm, settle_some]
      exact ⟨[], hq', Or.inr rfl⟩
  | startup | followup | create | createFails | enqueueNothing | readFails => exact ⟨work, hq, hw⟩

/-- A run marked after a step was marked before, or its analysis waits. -/
theorem marked_back (h : LocalInv s) (hs : LocalStep backend maxAttempts s l s') {runId : Int}
    (hm : runId ∈ s'.queue.runIds) : runId ∈ s.queue.runIds ∨ Waits s.store runId := by
  cases hs with
  | reconcile request requests reconciled hl =>
      rcases QueueHolds.marked_enqueue hm with hm | rfl
      · exact Or.inl hm
      · obtain ⟨listed, hlisted, _, _⟩ := h.starting _ _ hl
        have hin : request.runId ∈ s.store.queuedRequests.map (·.runId) := by
          rw [← hlisted, List.map_append, List.map_cons]
          exact List.mem_append_right _ List.mem_cons_self
        exact Or.inr (mem_queuedRequests.mp hin)
  | enqueue runId' row request _ hrow hreq =>
      rcases QueueHolds.marked_enqueue hm with hm | rfl
      · exact Or.inl hm
      · have hid : request.runId = runId' :=
          (queueRequest_runId hreq).1.trans (Table.key_of_find? hrow)
        exact Or.inr ⟨row, by rw [hid]; exact hrow, by rw [hreq]; rfl⟩
  | stop _ => exact absurd hm (by simp [LocalWorld.stopped, MemoryQueue.empty])
  | retry job hp =>
      have hheld : QueueHolds s.queue [job.runId] := held_marked h (by rw [hp]; rfl)
      obtain ⟨m', he, _, _, hids⟩ := hheld.retry
      rw [he, settle_some] at hm
      exact Or.inl (hids ▸ hm)
  | acknowledge job hp =>
      have hheld : QueueHolds s.queue [job.runId] := held_marked h (by rw [hp]; rfl)
      obtain ⟨m', he, _, _, hids⟩ := hheld.acknowledge
      rw [he, settle_some] at hm
      have hm' : runId ∈ s.queue.runIds.erase job.runId := hids ▸ hm
      exact Or.inl (Finset.mem_of_mem_erase hm')
  | startup | serve | followup | create | createFails | enqueueNothing | readFails
  | dequeueNothing | dequeue | sizeIdle | size | begin | advance | handle => exact Or.inl hm

theorem stored_localStep (h : LocalInv s) (hs : LocalStep backend maxAttempts s l s') {runId : Int}
    (hm : runId ∈ s'.queue.runIds) : ∃ row, s'.store.row? runId = some row := by
  rcases marked_back h hs hm with hm | ⟨row, hrow, _⟩
  · exact row_stays_local hs (h.stored runId hm)
  · exact row_stays_local hs ⟨row, hrow⟩

/-- The steps of the lifespan; all others need a process that serves. -/
def OfLifespan (l : LocalLabel) : Prop :=
  l = .startup ∨ l = .reconcile ∨ l = .serve ∨ l = .stop

theorem serving_of_handler (h : LocalInv s) {runId : Int} (hm : runId ∈ s.handlers) :
    s.lifespan = .serving := by
  by_contra hne
  rw [(h.idle hne).2] at hm
  exact absurd hm (by simp)

theorem serving_of_localStep (h : LocalInv s) (hs : LocalStep backend maxAttempts s l s') :
    OfLifespan l ∨ (s.lifespan = .serving ∧ s'.lifespan = .serving) := by
  have hphase : ∀ {phase : Phase}, s.phase = phase → phase ≠ .off → s.lifespan = .serving :=
    fun hp hne => serving_of_phase h (by rw [hp]; exact hne)
  cases hs with
  | startup _ => exact Or.inl (Or.inl rfl)
  | reconcile _ _ _ _ => exact Or.inl (Or.inr (Or.inl rfl))
  | serve _ _ => exact Or.inl (Or.inr (Or.inr (Or.inl rfl)))
  | stop _ => exact Or.inl (Or.inr (Or.inr (Or.inr rfl)))
  | followup _ _ hl => exact Or.inr ⟨hl, hl⟩
  | create _ _ _ _ _ _ _ hl _ _ => exact Or.inr ⟨hl, hl⟩
  | createFails _ _ _ _ hl => exact Or.inr ⟨hl, hl⟩
  | enqueueNothing runId hm _ =>
      have hl := serving_of_handler h hm
      exact Or.inr ⟨hl, hl⟩
  | enqueue runId _ _ hm _ _ =>
      have hl := serving_of_handler h hm
      exact Or.inr ⟨hl, hl⟩
  | readFails runId hm =>
      have hl := serving_of_handler h hm
      exact Or.inr ⟨hl, hl⟩
  | dequeueNothing hp _ =>
      have hl := hphase hp (by simp)
      exact Or.inr ⟨hl, hl⟩
  | dequeue _ _ hp _ =>
      have hl := hphase hp (by simp)
      exact Or.inr ⟨hl, hl⟩
  | sizeIdle hp =>
      have hl : s.lifespan = .serving := by
        rcases hp with hp | hp <;> exact hphase hp (by simp)
      exact Or.inr ⟨hl, hl⟩
  | size _ hp =>
      have hl := hphase hp (by simp)
      exact Or.inr ⟨hl, hl⟩
  | begin _ _ _ _ hp _ =>
      have hl := hphase hp (by simp)
      exact Or.inr ⟨hl, hl⟩
  | advance _ _ _ _ _ hp _ =>
      have hl := hphase hp (by simp)
      exact Or.inr ⟨hl, hl⟩
  | handle _ _ _ _ _ _ _ hp _ =>
      have hl := hphase hp (by simp)
      exact Or.inr ⟨hl, hl⟩
  | retry job hp =>
      have hl := hphase hp (by simp)
      refine Or.inr ⟨hl, ?_⟩
      unfold LocalWorld.settle
      split <;> exact hl
  | acknowledge job hp =>
      have hl := hphase hp (by simp)
      refine Or.inr ⟨hl, ?_⟩
      unfold LocalWorld.settle
      split <;> exact hl

/-! ### The lifespan -/

/-- One more request of the listing is enqueued: it is new, because the listing has no run twice. -/
theorem starting_reconcile (h : LocalInv s) {request : AnalysisRequest}
    {requests : List AnalysisRequest} {reconciled : Nat}
    (hl : s.lifespan = .reconciling (request :: requests) reconciled) :
    ∃ listed, listed ++ requests = s.store.queuedRequests
      ∧ (s.queue.enqueue request).1.queue = listed.map freshEnvelope
      ∧ (if (s.queue.enqueue request).2 then reconciled + 1 else reconciled) = listed.length := by
  obtain ⟨listed, hlisted, hqueue, hcount⟩ := h.starting _ _ hl
  have hoff := (h.idle (by rw [hl]; simp)).1
  have hholds := holds_nothing h (by rw [hoff]; simp) (by rw [hoff]; rfl)
  have hnodup := queuedRequests_nodup s.store
  rw [← hlisted, List.map_append, List.map_cons] at hnodup
  have hmem : request.runId ∉ s.queue.runIds := by
    intro hin
    rw [hholds.runIds, List.append_nil, hqueue, List.map_map] at hin
    exact (List.nodup_append.mp hnodup).2.2 _ hin _ List.mem_cons_self rfl
  obtain ⟨hnew, hadd, _⟩ := hholds.enqueue_new hmem
  refine ⟨listed ++ [request], ?_, ?_, ?_⟩
  · rw [List.append_assoc]
    exact hlisted
  · rw [hadd, hqueue, List.map_append]
    rfl
  · rw [if_pos hnew, hcount, List.length_append]
    rfl

theorem starting_localStep (h : LocalInv s) (hs : LocalStep backend maxAttempts s l s')
    {requests : List AnalysisRequest} {reconciled : Nat}
    (hl' : s'.lifespan = .reconciling requests reconciled) :
    ∃ listed, listed ++ requests = s'.store.queuedRequests
      ∧ s'.queue.queue = listed.map freshEnvelope ∧ reconciled = listed.length := by
  rcases serving_of_localStep h hs with hlife | ⟨_, hserving⟩
  · cases hs with
    | startup hdown =>
        obtain ⟨rfl, rfl⟩ := Lifespan.reconciling.inj hl'
        refine ⟨[], rfl, ?_, rfl⟩
        rw [h.down hdown]
        rfl
    | reconcile request requests' reconciled' hl =>
        obtain ⟨rfl, rfl⟩ := Lifespan.reconciling.inj hl'
        obtain ⟨listed, hlisted, hqueue, hcount⟩ := starting_reconcile h hl
        exact ⟨listed, hlisted, hqueue, hcount⟩
    | serve reconciled' _ => exact absurd hl' (by simp)
    | stop _ => exact absurd hl' (by simp [LocalWorld.stopped])
    | _ => rcases hlife with he | he | he | he <;> exact absurd he (by simp)
  · rw [hserving] at hl'
    exact absurd hl' (by simp)

theorem idle_localStep (h : LocalInv s) (hs : LocalStep backend maxAttempts s l s')
    (hl' : s'.lifespan ≠ .serving) : s'.phase = .off ∧ s'.handlers = [] := by
  rcases serving_of_localStep h hs with hlife | ⟨_, hserving⟩
  · cases hs with
    | startup hdown => exact h.idle (by rw [hdown]; simp)
    | reconcile request requests reconciled hl => exact h.idle (by rw [hl]; simp)
    | serve _ _ => exact absurd rfl hl'
    | stop _ => exact ⟨rfl, rfl⟩
    | _ => rcases hlife with he | he | he | he <;> exact absurd he (by simp)
  · exact absurd hserving hl'

theorem down_localStep (h : LocalInv s) (hs : LocalStep backend maxAttempts s l s')
    (hl' : s'.lifespan = .down) : s'.queue = MemoryQueue.empty := by
  rcases serving_of_localStep h hs with hlife | ⟨_, hserving⟩
  · cases hs with
    | startup _ => exact absurd hl' (by simp)
    | reconcile _ _ _ _ => exact absurd hl' (by simp)
    | serve _ _ => exact absurd hl' (by simp)
    | stop _ => rfl
    | _ => rcases hlife with he | he | he | he <;> exact absurd he (by simp)
  · rw [hserving] at hl'
    exact absurd hl' (by simp)

/-! ### The analyses that wait -/

/-- An analysis waits anew when it is created, or when the worker's handler says so. -/
theorem waits_back (hs : LocalStep backend maxAttempts s l s') {runId : Int}
    (hw : Waits s'.store runId) :
    Waits s.store runId
    ∨ (∃ run deliveryId clock fate, l = .create run deliveryId clock fate ∧ run.runId = runId)
    ∨ ∃ fate now job token message, l = .handle fate now
      ∧ s.phase = .handling job token message ∧ job.runId = runId := by
  cases localRow hs runId with
  | keep h => exact Or.inl (h.symm.waits hw)
  | created run deliveryId clock fate label id _ _ =>
      exact Or.inr (Or.inl ⟨run, deliveryId, clock, fate, label, id⟩)
  | begun token fate now job _ _ _ _ h =>
      obtain ⟨row', hr', hstatus, _⟩ := h
      exact absurd hw (not_waits_of_status hr' (by rw [hstatus]; simp))
  | advanced event job a status token _ _ _ moved wrote =>
      obtain ⟨_, row', _, _, hrow, hstatus, _⟩ := wrote
      exact absurd hw (not_waits_of_status hrow.self (by rw [hstatus]; exact moved))
  | handled fate now job token message row label phase id _ _ =>
      exact Or.inr (Or.inr ⟨fate, now, job, token, message, label, phase, id⟩)

theorem reached_serve (h : LocalInv s) {reconciled : Nat}
    (hl : s.lifespan = .reconciling [] reconciled) {runId : Int} (hw : Waits s.store runId) :
    runId ∈ s.queue.runIds := by
  obtain ⟨listed, hlisted, hqueue, _⟩ := h.starting _ _ hl
  have hoff := (h.idle (by rw [hl]; simp)).1
  have hholds := holds_nothing h (by rw [hoff]; simp) (by rw [hoff]; rfl)
  rw [List.append_nil] at hlisted
  rw [hholds.runIds, List.append_nil, hqueue, List.map_map, hlisted]
  exact mem_queuedRequests.mpr hw

theorem reached_localStep (h : LocalInv s) (hs : LocalStep backend maxAttempts s l s')
    (hl' : s'.lifespan = .serving) {runId : Int} (hw' : Waits s'.store runId) :
    runId ∈ s'.queue.runIds ∨ runId ∈ s'.handlers ∨ runId ∈ s'.missed := by
  rcases serving_of_localStep h hs with hlife | ⟨hserving, _⟩
  · cases hs with
    | startup _ => exact absurd hl' (by simp)
    | reconcile _ _ _ _ => exact absurd hl' (by simp)
    | serve reconciled hl => exact Or.inl (reached_serve h hl hw')
    | stop _ => exact absurd hl' (by simp [LocalWorld.stopped])
    | _ => rcases hlife with he | he | he | he <;> exact absurd he (by simp)
  · -- what is not new was reached before
    rcases waits_back hs hw' with hw | ⟨run, deliveryId, clock, fate, rfl, rfl⟩
      | ⟨fate, now, job, token, message, rfl, hp, rfl⟩
    · have hbefore := h.reached hserving runId hw
      cases hs with
      | create run deliveryId clock fate record handlers missed _ _ hlists =>
          rcases hlists with ⟨rfl, rfl⟩ | ⟨rfl, rfl⟩
          · exact hbefore.imp id (Or.imp (List.mem_cons_of_mem _) id)
          · exact hbefore.imp id (Or.imp id (List.mem_cons_of_mem _))
      | enqueueNothing runId' _ hn =>
          have hne : runId ≠ runId' := by
            rintro rfl
            exact hn hw
          exact hbefore.imp id (Or.imp (List.mem_erase_of_ne hne).mpr id)
      | enqueue runId' row request _ hrow hreq =>
          have hid : request.runId = runId' :=
            (queueRequest_runId hreq).1.trans (Table.key_of_find? hrow)
          by_cases hne : runId = runId'
          · refine Or.inl ?_
            rw [hne, ← hid]
            exact QueueHolds.mark_enqueue
          · exact hbefore.imp QueueHolds.marked_enqueue_of
              (Or.imp (List.mem_erase_of_ne hne).mpr id)
      | readFails runId' _ =>
          by_cases hne : runId = runId'
          · exact Or.inr (Or.inr (hne ▸ List.mem_cons_self))
          · exact hbefore.imp id
              (Or.imp (List.mem_erase_of_ne hne).mpr (List.mem_cons_of_mem _))
      | retry job hp =>
          have hheld : QueueHolds s.queue [job.runId] := held_marked h (by rw [hp]; rfl)
          obtain ⟨m', he, _, _, hids⟩ := hheld.retry
          rw [he, settle_some]
          rw [← hids] at hbefore
          exact hbefore
      | acknowledge job hp =>
          have hheld : QueueHolds s.queue [job.runId] := held_marked h (by rw [hp]; rfl)
          obtain ⟨m', he, _, _, hids⟩ := hheld.acknowledge
          have hne : runId ≠ job.runId := by
            rintro rfl
            exact h.finished job hp (startable_of_waits hw)
          have hkeep : runId ∈ s.queue.runIds → runId ∈ m'.runIds := by
            intro hin
            rw [hids]
            exact Finset.mem_erase.mpr ⟨hne, hin⟩
          rw [he, settle_some]
          exact hbefore.imp hkeep id
      | stop _ => exact absurd hl' (by simp [LocalWorld.stopped])
      | startup hl => exact absurd (hserving.symm.trans hl) (by simp)
      | reconcile _ _ _ hl => exact absurd (hserving.symm.trans hl) (by simp)
      | serve _ hl => exact absurd (hserving.symm.trans hl) (by simp)
      | followup | createFails | dequeueNothing | dequeue | sizeIdle | size | begin | advance
      | handle => exact hbefore
    · cases hs with
      | create run deliveryId clock fate record handlers missed _ _ hlists =>
          rcases hlists with ⟨rfl, rfl⟩ | ⟨rfl, rfl⟩
          · exact Or.inr (Or.inl List.mem_cons_self)
          · exact Or.inr (Or.inr List.mem_cons_self)
      | createFails run deliveryId clock message _ => exact h.reached hserving _ hw'
    · have hm : job.runId ∈ s.queue.runIds := marked_of_job h (by rw [hp]; rfl)
      cases hs with
      | handle _ _ _ _ _ _ _ _ _ => exact Or.inl hm

/-! ### The worker -/

theorem not_startable_of_status {db : Db} {runId : Int} {row : AnalysisRow}
    (hr : db.row? runId = some row) (hq : row.status ≠ .queued) (hrun : row.status ≠ .running) :
    ¬ Startable db runId := by
  rw [startable_iff hr]
  rintro (he | he)
  · exact hq he
  · exact hrun he

/-- While the worker is about to acknowledge a run, nothing makes it startable again. -/
theorem not_startable_kept (h : LocalInv s) (hs : LocalStep backend maxAttempts s l s')
    {job : QueueJob} (hp : s.phase = .acknowledging job) : ¬ Startable s'.store job.runId := by
  have hn := h.finished job hp
  cases localRow hs job.runId with
  | keep hsame => exact fun hst => hn (hsame.symm.startable hst)
  | created run deliveryId clock fate _ _ absent _ =>
      obtain ⟨row, hrow⟩ := h.stored _ (marked_of_job h (by rw [hp]; rfl))
      rw [hrow] at absent
      exact absurd absent (by simp)
  | begun token fate now job' _ phase _ _ _ =>
      rw [hp] at phase
      exact absurd phase (by simp)
  | advanced event job' a status token _ phase _ _ _ =>
      rw [hp] at phase
      exact absurd phase (by simp)
  | handled fate now job' token message row _ phase _ _ _ =>
      rw [hp] at phase
      exact absurd phase (by simp)

/-- A step of the attempt that makes the worker acknowledge has completed the analysis. -/
theorem finished_advance (h : LocalInv s) {event : AnalyzeEvent} {job job' : QueueJob}
    {a : Attempt} {p : Progress} {store : Db} (hp : s.phase = .analyzing job a)
    (hstep : a.step s.store job.runId event = some (p, store))
    (hp' : World.afterAnalyze job a.token p = .acknowledging job') :
    ¬ Startable store job'.runId := by
  obtain ⟨hcurrent, hgiven⟩ := h.attempt job a hp
  have hdone : p = .returned ∧ job = job' := by
    cases p with
    | running a' => exact absurd hp' (by simp [World.afterAnalyze])
    | returned => exact ⟨rfl, Phase.acknowledging.inj hp'⟩
    | raised message => exact absurd hp' (by simp [World.afterAnalyze])
  obtain ⟨rfl, rfl⟩ := hdone
  have heff := attemptEffect hstep
  cases heff with
  | superseded hlost _ =>
      rcases hlost with hlost | hlost
      · exact absurd hcurrent hlost
      · exact absurd hlost hgiven
  | completed hw =>
      obtain ⟨_, row', _, _, hrow, hstatus, _⟩ := hw
      exact not_startable_of_status hrow.self (by rw [hstatus]; simp) (by rw [hstatus]; simp)

/-- A handler that makes the worker acknowledge has written `FAILED`. -/
theorem finished_handle (h : LocalInv s) {fate : StoreFate} {now : Instant}
    {job job' : QueueJob} {token : Token} {message : String} {r : CallResult Unit} {store : Db}
    (hp : s.phase = .handling job token message)
    (hcall : storeCall s.store fate (s.store.update job.runId
      (World.handlerStatus job maxAttempts) { error := some message } none now) = (r, store))
    (hp' : World.afterHandler job maxAttempts r = .acknowledging job') :
    ¬ Startable store job'.runId := by
  have hdone : r = .ok () ∧ job.mayRetry maxAttempts = false ∧ job = job' := by
    cases r with
    | ok value =>
        dsimp only [World.afterHandler] at hp'
        split at hp'
        · exact absurd hp' (by simp)
        · rename_i hmay
          exact ⟨rfl, by simpa using hmay, Phase.acknowledging.inj hp'⟩
    | superseded message => exact absurd hp' (by simp [World.afterHandler])
    | raised message => exact absurd hp' (by simp [World.afterHandler])
  obtain ⟨rfl, hmay, rfl⟩ := hdone
  have hmarked : job.runId ∈ s.queue.runIds := marked_of_job h (by rw [hp]; rfl)
  obtain ⟨row, hrow⟩ := h.stored _ hmarked
  rcases (handler_call hcall).2.2 row hrow with ⟨_, hne⟩ | hw
  · exact absurd rfl hne
  · have hstatus : World.handlerStatus job maxAttempts = .failed := by
      unfold World.handlerStatus
      rw [if_neg (by rw [hmay]; simp)]
    refine not_startable_of_status hw ?_ ?_ <;> simp [updateValues, hstatus]

theorem finished_localStep (h : LocalInv s) (hs : LocalStep backend maxAttempts s l s')
    {job : QueueJob} (hp' : s'.phase = .acknowledging job) : ¬ Startable s'.store job.runId := by
  have hthis := hs
  cases hs with
  | serve _ _ => exact absurd hp' (by simp)
  | stop _ => exact absurd hp' (by simp [LocalWorld.stopped])
  | dequeueNothing _ _ => exact absurd hp' (by simp)
  | dequeue _ _ _ _ => exact absurd hp' (by simp)
  | sizeIdle _ => exact absurd hp' (by simp)
  | size _ _ => exact absurd hp' (by simp)
  | begin token fate now job' hp fresh =>
      have heff := beginEffect s.store job'.runId token fate now
      dsimp only at hp' ⊢
      generalize beginAttempt s.store job'.runId token fate now = res at heff hp' ⊢
      obtain ⟨p, store⟩ := res
      cases heff with
      | begun a row' _ _ _ _ _ _ => exact absurd hp' (by simp [World.afterAnalyze])
      | refused hrefused => exact Phase.acknowledging.inj hp' ▸ hrefused
      | broke message _ => exact absurd hp' (by simp [World.afterAnalyze])
      | brokeBegun message _ row' _ _ _ _ => exact absurd hp' (by simp [World.afterAnalyze])
  | advance event job' a p store hp hstep => exact finished_advance h hp hstep hp'
  | handle fate now job' token message r store hp hcall => exact finished_handle h hp hcall hp'
  | retry job' hp =>
      have hheld : QueueHolds s.queue [job'.runId] := held_marked h (by rw [hp]; rfl)
      obtain ⟨m', he, _, _, _⟩ := hheld.retry
      rw [he, settle_some] at hp'
      exact absurd hp' (by simp)
  | acknowledge job' hp =>
      have hheld : QueueHolds s.queue [job'.runId] := held_marked h (by rw [hp]; rfl)
      obtain ⟨m', he, _, _, _⟩ := hheld.acknowledge
      rw [he, settle_some] at hp'
      exact absurd hp' (by simp)
  | followup _ _ _ => exact not_startable_kept h hthis hp'
  | create _ _ _ _ _ _ _ _ _ _ => exact not_startable_kept h hthis hp'
  | startup | reconcile | createFails | enqueueNothing | enqueue | readFails =>
      exact h.finished job hp'

/-- While the worker is at an attempt, nothing else takes the run from it. -/
theorem attempt_kept (h : LocalInv s) (hs : LocalStep backend maxAttempts s l s')
    {job : QueueJob} {a : Attempt} (hp : s.phase = .analyzing job a)
    (hl : ∀ event, l ≠ .advance event) :
    Current s'.store job.runId a.token ∧ ¬ GivenUp a := by
  obtain ⟨hcurrent, hgiven⟩ := h.attempt job a hp
  refine ⟨?_, hgiven⟩
  cases localRow hs job.runId with
  | keep hsame => exact hsame.current hcurrent
  | created run deliveryId clock fate _ _ absent _ =>
      exact absurd hcurrent (not_current_of_none absent)
  | begun token fate now job' _ phase _ _ _ =>
      rw [hp] at phase
      exact absurd phase (by simp)
  | advanced event job' a' status token label _ _ _ _ => exact absurd label (hl event)
  | handled fate now job' token message row _ phase _ _ _ =>
      rw [hp] at phase
      exact absurd phase (by simp)

theorem attempt_localStep (h : LocalInv s) (hs : LocalStep backend maxAttempts s l s')
    {job : QueueJob} {a : Attempt} (hp' : s'.phase = .analyzing job a) :
    Current s'.store job.runId a.token ∧ ¬ GivenUp a := by
  have hthis := hs
  cases hs with
  | serve _ _ => exact absurd hp' (by simp)
  | stop _ => exact absurd hp' (by simp [LocalWorld.stopped])
  | dequeueNothing _ _ => exact absurd hp' (by simp)
  | dequeue _ _ _ _ => exact absurd hp' (by simp)
  | sizeIdle _ => exact absurd hp' (by simp)
  | size _ _ => exact absurd hp' (by simp)
  | begin token fate now job' hp fresh =>
      have heff := beginEffect s.store job'.runId token fate now
      dsimp only at hp' ⊢
      generalize beginAttempt s.store job'.runId token fate now = res at heff hp' ⊢
      obtain ⟨p, store⟩ := res
      cases heff with
      | begun a' row' htoken hpc hw _ hcurrent _ =>
          obtain ⟨rfl, rfl⟩ := Phase.analyzing.inj hp'
          refine ⟨⟨row', hw.self, by rw [htoken]; exact hcurrent⟩, ?_⟩
          rintro ⟨stage, message, he⟩
          rw [hpc] at he
          exact absurd he (by simp)
      | refused _ => exact absurd hp' (by simp [World.afterAnalyze])
      | broke message _ => exact absurd hp' (by simp [World.afterAnalyze])
      | brokeBegun message _ row' _ _ _ _ => exact absurd hp' (by simp [World.afterAnalyze])
  | advance event job' a' p store hp hstep =>
      obtain ⟨hcurrent, _⟩ := h.attempt job' a' hp
      have heff := attemptEffect hstep
      dsimp only at hp' ⊢
      cases heff with
      | quiet a'' htoken same hgiven =>
          obtain ⟨rfl, rfl⟩ := Phase.analyzing.inj hp'
          rw [htoken]
          exact ⟨(SamePending.of_eq (same job'.runId)).current hcurrent, fun hg => hgiven hg hcurrent⟩
      | wrote a'' htoken hw hgiven =>
          obtain ⟨rfl, rfl⟩ := Phase.analyzing.inj hp'
          obtain ⟨_, row', _, _, hrow, _, htok⟩ := hw
          exact ⟨⟨row', hrow.self, by rw [htoken]; exact htok⟩, hgiven⟩
      | superseded _ _ => exact absurd hp' (by simp [World.afterAnalyze])
      | completed _ => exact absurd hp' (by simp [World.afterAnalyze])
      | failed message _ => exact absurd hp' (by simp [World.afterAnalyze])
      | broke message _ _ => exact absurd hp' (by simp [World.afterAnalyze])
      | brokeFinished message status _ _ _ => exact absurd hp' (by simp [World.afterAnalyze])
  | handle fate now job' token message r store hp hcall =>
      cases r with
      | ok value =>
          dsimp only [World.afterHandler] at hp'
          split at hp' <;> exact absurd hp' (by simp)
      | superseded message => exact absurd hp' (by simp [World.afterHandler])
      | raised message => exact absurd hp' (by simp [World.afterHandler])
  | retry job' hp =>
      have hheld : QueueHolds s.queue [job'.runId] := held_marked h (by rw [hp]; rfl)
      obtain ⟨m', he, _, _, _⟩ := hheld.retry
      rw [he, settle_some] at hp'
      exact absurd hp' (by simp)
  | acknowledge job' hp =>
      have hheld : QueueHolds s.queue [job'.runId] := held_marked h (by rw [hp]; rfl)
      obtain ⟨m', he, _, _, _⟩ := hheld.acknowledge
      rw [he, settle_some] at hp'
      exact absurd hp' (by simp)
  | followup _ _ _ => exact attempt_kept h hthis hp' (by simp)
  | create _ _ _ _ _ _ _ _ _ _ => exact attempt_kept h hthis hp' (by simp)
  | startup | reconcile | createFails | enqueueNothing | enqueue | readFails =>
      exact h.attempt job a hp'

/-- **Preserved by every step.** -/
theorem localInv_step (h : LocalInv s) (hs : LocalStep backend maxAttempts s l s') :
    LocalInv s' where
  queue := queue_localStep h hs
  idle := idle_localStep h hs
  down := down_localStep h hs
  starting := fun _ _ => starting_localStep h hs
  stored := fun _ => stored_localStep h hs
  reached := fun hl _ => reached_localStep h hs hl
  finished := fun _ => finished_localStep h hs
  attempt := fun _ _ => attempt_localStep h hs

theorem localInv_reachable
    (h : Reach (LocalWorld.step backend maxAttempts) anyStep LocalWorld.init s) : LocalInv s :=
  h.invariant (localInv_stopped Db.empty []) fun _ hi _ hs => localInv_step hi (localStep hs)

/-! ## What the invariant gives -/

/--
**What waits is queued once.** Take any webhooks, attempts, failures of the store,
shutdowns, crashes and startups. While the process serves and its worker has not
ended, an analysis that waits is once in the queue or in the worker's hands, unless
its handler has not come to the enqueue yet, or has failed before it.
-/
theorem waiting_is_queued
    (h : Reach (LocalWorld.step backend maxAttempts) anyStep LocalWorld.init s)
    (hserving : s.lifespan = .serving) (halive : s.phase ≠ .dead) {runId : Int}
    (hw : Waits s.store runId) :
    (s.queue.queue.map envelopeRun ++ held s.phase).count runId = 1
    ∨ runId ∈ s.handlers ∨ runId ∈ s.missed := by
  have hinv := localInv_reachable h
  refine (hinv.reached hserving runId hw).imp ?_ id
  intro hmarked
  obtain ⟨work, hholds, hdead | hwork⟩ := hinv.queue
  · exact absurd hdead halive
  · subst hwork
    exact List.count_eq_one_of_mem hholds.once ((hholds.runIds runId).mp hmarked)


/--
**A startup takes up exactly what waits.** Whatever happened before, at the end of
`reconcile_queued_analyses` the queue holds one fresh envelope for each analysis that
waits, the older first, and the count is their number.
-/
theorem startup_reconciles
    (h : Reach (LocalWorld.step backend maxAttempts) anyStep LocalWorld.init s) {reconciled : Nat}
    (hl : s.lifespan = .reconciling [] reconciled) :
    s.queue.queue = s.store.queuedRequests.map freshEnvelope
    ∧ reconciled = s.queue.queue.length
    ∧ (s.queue.queue.map envelopeRun).Nodup
    ∧ (∀ runId, runId ∈ s.queue.queue.map envelopeRun ↔ Waits s.store runId)
    ∧ ∃ rows : List AnalysisRow, rows.map (·.runId) = s.queue.queue.map envelopeRun
      ∧ (∀ row ∈ rows, s.store.row? row.runId = some row)
      ∧ rows.Pairwise fun a b => a.createdAt ≤ b.createdAt := by
  obtain ⟨listed, hlisted, hqueue, hcount⟩ := (localInv_reachable h).starting _ _ hl
  rw [List.append_nil] at hlisted
  subst hlisted
  have hids : s.queue.queue.map envelopeRun = s.store.queuedRequests.map (·.runId) := by
    rw [hqueue, List.map_map]
    rfl
  refine ⟨hqueue, by rw [hcount, hqueue, List.length_map], ?_, ?_, queuedRows s.store, ?_, ?_, ?_⟩
  · rw [hids]
    exact queuedRequests_nodup s.store
  · intro runId
    rw [hids]
    exact mem_queuedRequests
  · rw [hids]
    exact (queuedRequests_runIds s.store).symm
  · intro row hm
    exact (mem_queuedRows.mp hm).1
  · exact queuedRows_ordered s.store

end PipeLens.Proof
