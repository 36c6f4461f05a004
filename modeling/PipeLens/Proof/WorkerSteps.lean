import PipeLens.Proof.Placement
import PipeLens.Worker

/-!
# The steps of the workers

`WorldStep` says once what each step needs and leaves, so that no later proof
unfolds the step function. Seen from Redis, a step of a worker is a step of the
queue or none at all: `queueAction` names it, and whatever holds of the queue
under arbitrary callers holds of it under these workers.
-/

namespace PipeLens.Proof

open PipeLens Transition

variable {ω : Type} [DecidableEq ω] {codec : EnvelopeCodec} {maxAttempts : Int}

/-- The steps, each with what it needs. -/
inductive WorldStep (codec : EnvelopeCodec) (maxAttempts : Int) (s : World ω) :
    Label ω → World ω → Prop where
  | create (record : AnalysisRecord) :
      WorldStep codec maxAttempts s (.create record)
        { s with store := (s.store.createIfAbsent record).1 }
  | enqueue (request : AnalysisRequest) (row : AnalysisRow)
      (hrow : s.store.row? request.runId = some row) :
      WorldStep codec maxAttempts s (.enqueue request)
        { s with
          queue := { s.queue with redis := (s.queue.redis.enqueue codec request).1 }
          enqueued := if (s.queue.redis.enqueue codec request).2 then
            request.runId :: s.enqueued else s.enqueued }
  | expire (w : ω) :
      WorldStep codec maxAttempts s (.expire w)
        { s with queue := { s.queue with redis := s.queue.redis.expire w } }
  | start (w : ω) (h : s.phase w = .off) :
      WorldStep codec maxAttempts s (.start w) (s.setPhase w .startup)
  | crash (w : ω) (h : (s.phase w).alive = true) :
      WorldStep codec maxAttempts s (.crash w) (s.setPhase w .dead)
  | heartbeat (w : ω) (fate : Fate) (h : (s.phase w).alive = true) (hm : s.maintenance w = .idle) :
      WorldStep codec maxAttempts s (.heartbeat w fate)
        ((s.setRedis fate (s.queue.redis.heartbeat w)).setMaintenance w (fate.next .scanning .idle))
  | scan (w : ω) (fate : Fate) (h : (s.phase w).alive = true) (hm : s.maintenance w = .scanning) :
      WorldStep codec maxAttempts s (.scan w fate)
        (s.setMaintenance w (fate.next (.recovering (s.queue.redis.workers.erase w)) .idle))
  | recover (w v : ω) (fate : Fate) (keys : Finset ω) (h : (s.phase w).alive = true)
      (hm : s.maintenance w = .recovering keys) (hv : v ∈ keys) :
      WorldStep codec maxAttempts s (.recover w v fate)
        ((s.setRedis fate (s.queue.redis.recoverScript v).1).setMaintenance w
          (fate.next (.recovering (keys.erase v)) .idle))
  | maintained (w : ω) (h : (s.phase w).alive = true) (hm : s.maintenance w = .recovering ∅) :
      WorldStep codec maxAttempts s (.maintained w)
        ((s.setMaintenance w .idle).setPhase w (World.afterMaintenance (s.phase w)))
  | dequeue (w : ω) (fate : Fate) (h : s.phase w = .head) :
      WorldStep codec maxAttempts s (.dequeue w fate)
        ((s.setRedis fate (s.queue.redis.heartbeat w)).setPhase w (fate.next .popping .head))
  | pop (w : ω) (fate : Fate) (h : s.phase w = .popping) :
      WorldStep codec maxAttempts s (.pop w fate)
        { s with
          queue := fate.apply s.queue (s.queue.pop codec w).1
          phase := Function.update s.phase w
            (fate.next (World.afterPop (s.queue.pop codec w).2) .head) }
  | sizeIdle (w : ω) (fate : Fate) (h : s.phase w = .measuringEmpty ∨ s.phase w = .measuringDone) :
      WorldStep codec maxAttempts s (.size w fate) (s.setPhase w .head)
  | size (w : ω) (fate : Fate) (job : QueueJob) (h : s.phase w = .measuring job) :
      WorldStep codec maxAttempts s (.size w fate)
        (s.setPhase w (fate.next (.entering job) .head))
  | begin (w : ω) (token : Token) (fate : StoreFate) (now : Instant) (job : QueueJob)
      (h : s.phase w = .entering job) (fresh : token ∉ s.used) :
      WorldStep codec maxAttempts s (.begin w token fate now)
        { s with
          store := (beginAttempt s.store job.runId token fate now).2
          used := token :: s.used
          phase := Function.update s.phase w
            (World.afterAnalyze job token (beginAttempt s.store job.runId token fate now).1) }
  | advance (w : ω) (event : AnalyzeEvent) (job : QueueJob) (a : Attempt) (p : Progress)
      (store : Db) (h : s.phase w = .analyzing job a)
      (hs : a.step s.store job.runId event = some (p, store)) :
      WorldStep codec maxAttempts s (.advance w event)
        { s with
          store := store
          phase := Function.update s.phase w (World.afterAnalyze job a.token p) }
  | handle (w : ω) (fate : StoreFate) (now : Instant) (job : QueueJob) (token : Token)
      (message : String) (r : CallResult Unit) (store : Db)
      (h : s.phase w = .handling job token message)
      (hs : storeCall s.store fate (s.store.update job.runId
        (World.handlerStatus job maxAttempts) { error := some message } none now) = (r, store)) :
      WorldStep codec maxAttempts s (.handle w fate now)
        { s with
          store := store
          phase := Function.update s.phase w (World.afterHandler job maxAttempts r) }
  | retry (w : ω) (fate : Fate) (job : QueueJob) (h : s.phase w = .retrying job) :
      WorldStep codec maxAttempts s (.retry w fate)
        ((s.setRedis fate (s.queue.redis.retry codec w job)).setPhase w
          (fate.next .measuringDone .head))
  | acknowledge (w : ω) (fate : Fate) (job : QueueJob) (h : s.phase w = .acknowledging job) :
      WorldStep codec maxAttempts s (.acknowledge w fate)
        ((s.setRedis fate (s.queue.redis.acknowledge w job)).setPhase w
          (fate.next .measuringDone .head))

/-- **Every step is one of these.** -/
theorem worldStep {s s' : World ω} {l : Label ω} (h : s.step codec maxAttempts l = some s') :
    WorldStep codec maxAttempts s l s' := by
  cases l with
  | create record => rw [← Option.some.inj h]; exact .create record
  | enqueue request =>
      simp only [World.step] at h
      split at h
      · exact absurd h (by simp)
      · rename_i row hrow
        rw [← Option.some.inj h]
        exact .enqueue request row hrow
  | expire w => rw [← Option.some.inj h]; exact .expire w
  | start w =>
      simp only [World.step] at h
      split at h
      · rename_i hp
        rw [← Option.some.inj h]
        exact .start w hp
      · exact absurd h (by simp)
  | crash w =>
      simp only [World.step] at h
      split at h
      · rename_i hp
        rw [← Option.some.inj h]
        exact .crash w hp
      · exact absurd h (by simp)
  | heartbeat w fate =>
      simp only [World.step] at h
      split at h
      · rename_i ha hm
        rw [← Option.some.inj h]
        exact .heartbeat w fate ha hm
      · exact absurd h (by simp)
  | scan w fate =>
      simp only [World.step] at h
      split at h
      · rename_i ha hm
        rw [← Option.some.inj h]
        exact .scan w fate ha hm
      · exact absurd h (by simp)
  | recover w v fate =>
      simp only [World.step] at h
      split at h
      · rename_i keys ha hm
        split at h
        · rename_i hv
          rw [← Option.some.inj h]
          exact .recover w v fate keys ha hm hv
        · exact absurd h (by simp)
      · exact absurd h (by simp)
  | maintained w =>
      simp only [World.step] at h
      split at h
      · rename_i keys ha hm
        split at h
        · rename_i hk
          rw [← Option.some.inj h]
          exact .maintained w ha (by rw [hm, hk])
        · exact absurd h (by simp)
      · exact absurd h (by simp)
  | dequeue w fate =>
      simp only [World.step] at h
      split at h
      · rename_i hp
        rw [← Option.some.inj h]
        exact .dequeue w fate hp
      · exact absurd h (by simp)
  | pop w fate =>
      simp only [World.step] at h
      split at h
      · rename_i hp
        rw [← Option.some.inj h]
        exact .pop w fate hp
      · exact absurd h (by simp)
  | size w fate =>
      simp only [World.step] at h
      split at h
      · rename_i hp
        rw [← Option.some.inj h]
        exact .sizeIdle w fate (Or.inl hp)
      · rename_i job hp
        rw [← Option.some.inj h]
        exact .size w fate job hp
      · rename_i hp
        rw [← Option.some.inj h]
        exact .sizeIdle w fate (Or.inr hp)
      · exact absurd h (by simp)
  | begin w token fate now =>
      simp only [World.step] at h
      split at h
      · rename_i job hp
        split at h
        · exact absurd h (by simp)
        · rename_i hfresh
          rw [← Option.some.inj h]
          exact .begin w token fate now job hp hfresh
      · exact absurd h (by simp)
  | advance w event =>
      simp only [World.step] at h
      split at h
      · rename_i job a hp
        split at h
        · exact absurd h (by simp)
        · rename_i p store hs
          rw [← Option.some.inj h]
          exact .advance w event job a p store hp hs
      · exact absurd h (by simp)
  | handle w fate now =>
      simp only [World.step] at h
      split at h
      · rename_i job token message hp
        rw [← Option.some.inj h]
        exact .handle w fate now job token message _ _ hp rfl
      · exact absurd h (by simp)
  | retry w fate =>
      simp only [World.step] at h
      split at h
      · rename_i job hp
        rw [← Option.some.inj h]
        exact .retry w fate job hp
      · exact absurd h (by simp)
  | acknowledge w fate =>
      simp only [World.step] at h
      split at h
      · rename_i job hp
        rw [← Option.some.inj h]
        exact .acknowledge w fate job hp
      · exact absurd h (by simp)

/-! ## Who takes a step -/

/-- The worker that takes a step. -/
def actor : Label ω → Option ω
  | .create _ => none
  | .enqueue _ => none
  | .expire _ => none
  | .start w => some w
  | .crash w => some w
  | .heartbeat w _ => some w
  | .scan w _ => some w
  | .recover w _ _ => some w
  | .maintained w => some w
  | .dequeue w _ => some w
  | .pop w _ => some w
  | .size w _ => some w
  | .begin w _ _ _ => some w
  | .advance w _ => some w
  | .handle w _ _ => some w
  | .retry w _ => some w
  | .acknowledge w _ => some w

theorem phase_of_not_actor {s s' : World ω} {l : Label ω} (h : WorldStep codec maxAttempts s l s')
    {w : ω} (ha : actor l ≠ some w) : s'.phase w = s.phase w := by
  have hset : ∀ {w' : ω} {phase : Phase}, some w' ≠ some w →
      Function.update s.phase w' phase w = s.phase w := by
    intro w' phase hne
    exact Function.update_of_ne (fun he => hne (by rw [he])) ..
  cases h with
  | create | enqueue | expire | heartbeat | scan | recover => rfl
  | start | crash | maintained | dequeue | pop | sizeIdle | size | begin | advance | handle | retry
  | acknowledge => exact hset ha

/-! ## Seen from Redis -/

/-- What a step asks Redis to do, if the server executes it. -/
def queueAction (s : World ω) : Label ω → Option (QueueAction ω)
  | .enqueue request => some (.enqueue request)
  | .expire w => some (.expire w)
  | .heartbeat w fate => fate.apply none (some (.heartbeat w))
  | .dequeue w fate => fate.apply none (some (.heartbeat w))
  | .recover w v fate => fate.apply none (some (.recover w v))
  | .pop w fate => fate.apply none (some (.pop w))
  | .retry w fate =>
      match s.phase w with
      | .retrying job => fate.apply none (some (.retry w job))
      | _ => none
  | .acknowledge w fate =>
      match s.phase w with
      | .acknowledging job => fate.apply none (some (.acknowledge w job))
      | _ => none
  | _ => none

omit [DecidableEq ω] in
/-- An action that the server executes is the one that was asked for. -/
theorem eq_of_apply_eq_some {fate : Fate} {a a' : QueueAction ω}
    (h : fate.apply none (some a') = some a) : a' = a := by
  cases fate with
  | refused => exact absurd h (by simp [Fate.apply])
  | answered => exact Option.some.inj h
  | lost => exact Option.some.inj h

/-- What the two tasks of every worker rely on. -/
structure TaskInv (s : World ω) : Prop where
  /-- A worker processes a job that it was handed. -/
  job : ∀ w job, (s.phase w).job? = some job → job ∈ s.queue.issued w
  /-- Recovery skips the worker's own list. -/
  keys : ∀ w keys, s.maintenance w = .recovering keys → w ∉ keys

omit [DecidableEq ω] in
theorem taskInv_init : TaskInv (World.init : World ω) where
  job := by intro w job h; exact absurd h (by simp [World.init, Phase.job?])
  keys := by intro w keys h; exact absurd h (by simp [World.init])

/-- **A step of a worker is a step of the queue, or none.** -/
theorem queue_step {s s' : World ω} {l : Label ω} (hi : TaskInv s)
    (h : WorldStep codec maxAttempts s l s') :
    match queueAction s l with
    | none => s'.queue = s.queue
    | some a => s.queue.step codec a = some s'.queue := by
  cases h with
  | create record => rfl
  | enqueue request row hrow => rfl
  | expire w => rfl
  | start w h => rfl
  | crash w h => rfl
  | heartbeat w fate h hm => cases fate <;> rfl
  | scan w fate h hm => rfl
  | recover w v fate keys h hm hv =>
      have hne : w ≠ v := by
        rintro rfl
        exact hi.keys w keys hm hv
      cases fate with
      | refused => rfl
      | answered => exact if_neg hne
      | lost => exact if_neg hne
  | maintained w h hm => rfl
  | dequeue w fate h => cases fate <;> rfl
  | pop w fate h => cases fate <;> rfl
  | sizeIdle w fate h => rfl
  | size w fate job h => rfl
  | begin w token fate now job h fresh => rfl
  | advance w event job a p store h hs => rfl
  | handle w fate now job token message r store h hs => rfl
  | retry w fate job h =>
      have hm : job ∈ s.queue.issued w := hi.job w job (by rw [h]; rfl)
      simp only [queueAction, h]
      cases fate with
      | refused => rfl
      | answered => exact if_pos hm
      | lost => exact if_pos hm
  | acknowledge w fate job h =>
      have hm : job ∈ s.queue.issued w := hi.job w job (by rw [h]; rfl)
      simp only [queueAction, h]
      cases fate with
      | refused => rfl
      | answered => exact if_pos hm
      | lost => exact if_pos hm

/-! ## The tasks keep their invariant -/

theorem issued_step {q q' : QueueState ω} {a : QueueAction ω} (h : q.step codec a = some q')
    {w : ω} {job : QueueJob} (hm : job ∈ q.issued w) : job ∈ q'.issued w := by
  cases a with
  | enqueue request => rw [← Option.some.inj h]; exact hm
  | heartbeat v => rw [← Option.some.inj h]; exact hm
  | pop v =>
      rw [← Option.some.inj h]
      unfold QueueState.pop
      dsimp only
      split
      · exact hm
      · split
        · exact hm
        · by_cases he : w = v
          · subst he
            simpa using Or.inr hm
          · simpa [Function.update_of_ne he] using hm
  | acknowledge v job' =>
      simp only [QueueState.step] at h
      split at h
      · rw [← Option.some.inj h]; exact hm
      · exact absurd h (by simp)
  | retry v job' =>
      simp only [QueueState.step] at h
      split at h
      · rw [← Option.some.inj h]; exact hm
      · exact absurd h (by simp)
  | recover v v' =>
      simp only [QueueState.step] at h
      split at h
      · exact absurd h (by simp)
      · rw [← Option.some.inj h]; exact hm
  | expire v => rw [← Option.some.inj h]; exact hm

theorem issued_worldStep {s s' : World ω} {l : Label ω} (hi : TaskInv s)
    (h : WorldStep codec maxAttempts s l s') {w : ω} {job : QueueJob}
    (hm : job ∈ s.queue.issued w) : job ∈ s'.queue.issued w := by
  have hq := queue_step hi h
  split at hq
  · rw [hq]; exact hm
  · exact issued_step hq hm

/-- The job `dequeue` returns is the text it moved, decoded. -/
theorem pop_job {q : QueueState ω} {w : ω} {job : QueueJob} (h : (q.pop codec w).2 = .job job) :
    job ∈ (q.pop codec w).1.issued w
    ∧ ∃ receipt, job.receipt = some receipt ∧ (q.redis.brpoplpush w).2 = some receipt := by
  unfold QueueState.pop at h ⊢
  dsimp only at h ⊢
  split at h
  · exact absurd h (by simp)
  · rename_i receipt hpop
    split at h
    · exact absurd h (by simp)
    · rename_i envelope hdec
      have hjob := Dequeued.job.inj h
      subst hjob
      rw [hpop]
      exact ⟨by simp, receipt, rfl, rfl⟩

theorem afterAnalyze_job? (job : QueueJob) (token : Token) (p : Progress) :
    (World.afterAnalyze job token p).job? = some job := by
  cases p <;> rfl

theorem afterHandler_job? {job job' : QueueJob} {r : CallResult Unit}
    (h : (World.afterHandler job maxAttempts r).job? = some job') : job' = job := by
  unfold World.afterHandler at h
  split at h
  · split at h <;> exact (Option.some.inj h).symm
  · exact absurd h (by simp [Phase.job?])
  · exact absurd h (by simp [Phase.job?])

theorem afterMaintenance_job? (phase : Phase) :
    (World.afterMaintenance phase).job? = phase.job? := by
  cases phase <;> rfl

/-- After a step, a worker processes the job it processed before, or one just popped. -/
theorem job?_worldStep {s s' : World ω} {l : Label ω} (h : WorldStep codec maxAttempts s l s')
    {w : ω} {job : QueueJob} (hj : (s'.phase w).job? = some job) :
    (s.phase w).job? = some job
    ∨ (l = .pop w .answered ∧ (s.queue.pop codec w).2 = .job job
      ∧ s'.queue = (s.queue.pop codec w).1 ∧ s'.phase w = .measuring job) := by
  -- a worker whose phase is set to one without a job, or with the job it had
  have hset : ∀ {w' : ω} {phase : Phase},
      (phase.job? = some job → (s.phase w').job? = some job) →
      (Function.update s.phase w' phase w).job? = some job → (s.phase w).job? = some job := by
    intro w' phase hp hj
    by_cases he : w = w'
    · subst he
      rw [Function.update_self] at hj
      exact hp hj
    · rw [Function.update_of_ne he] at hj
      exact hj
  have hnone : ∀ {phase : Phase} {p : Prop}, phase.job? = none → phase.job? = some job → p := by
    intro phase p hn hs
    rw [hn] at hs
    exact absurd hs (by simp)
  cases h with
  | create record => exact Or.inl hj
  | enqueue request row hrow => exact Or.inl hj
  | expire w' => exact Or.inl hj
  | start w' h => exact Or.inl (hset (hnone rfl) hj)
  | crash w' h => exact Or.inl (hset (hnone rfl) hj)
  | heartbeat w' fate h hm => exact Or.inl hj
  | scan w' fate h hm => exact Or.inl hj
  | recover w' v fate keys h hm hv => exact Or.inl hj
  | maintained w' h hm => exact Or.inl (hset (fun hp => by rwa [afterMaintenance_job?] at hp) hj)
  | dequeue w' fate h => exact Or.inl (hset (hnone (by cases fate <;> rfl)) hj)
  | pop w' fate h =>
      by_cases he : w = w'
      · subst he
        simp only [Function.update_self] at hj
        cases fate with
        | lost => exact hnone rfl hj
        | refused => exact hnone rfl hj
        | answered =>
            cases hd : (s.queue.pop codec w).2 with
            | timeout => rw [hd] at hj; exact hnone rfl hj
            | invalid => rw [hd] at hj; exact hnone rfl hj
            | job job' =>
                rw [hd] at hj
                have heq := Option.some.inj hj
                subst heq
                exact Or.inr ⟨rfl, rfl, rfl, by simp [Fate.next, World.afterPop]⟩
      · simp only [Function.update_of_ne he] at hj
        exact Or.inl hj
  | sizeIdle w' fate h => exact Or.inl (hset (hnone rfl) hj)
  | size w' fate job' h =>
      refine Or.inl (hset (fun hp => ?_) hj)
      cases fate with
      | answered => rw [h]; exact hp
      | lost => exact hnone rfl hp
      | refused => exact hnone rfl hp
  | begin w' token fate now job' h fresh =>
      exact Or.inl (hset (fun hp => by rw [afterAnalyze_job?] at hp; rw [h]; exact hp) hj)
  | advance w' event job' a p store h hs =>
      exact Or.inl (hset (fun hp => by rw [afterAnalyze_job?] at hp; rw [h]; exact hp) hj)
  | handle w' fate now job' token message r store h hs =>
      exact Or.inl (hset (fun hp => by rw [h, afterHandler_job? hp]; rfl) hj)
  | retry w' fate job' h => exact Or.inl (hset (hnone (by cases fate <;> rfl)) hj)
  | acknowledge w' fate job' h => exact Or.inl (hset (hnone (by cases fate <;> rfl)) hj)

/-- Recovery never comes to name the worker itself. -/
theorem keys_worldStep {s s' : World ω} {l : Label ω} (hi : TaskInv s)
    (h : WorldStep codec maxAttempts s l s') (w : ω) (keys : Finset ω)
    (hm' : s'.maintenance w = .recovering keys) : w ∉ keys := by
  have hset : ∀ {w' : ω} {m : Maintenance ω}, (∀ keys, m = .recovering keys → w' ∉ keys) →
      Function.update s.maintenance w' m w = .recovering keys → w ∉ keys := by
    intro w' m hk hu
    by_cases he : w = w'
    · subst he
      rw [Function.update_self] at hu
      exact hk keys hu
    · rw [Function.update_of_ne he] at hu
      exact hi.keys w keys hu
  cases h with
  | heartbeat w' fate h hm => exact hset (by cases fate <;> simp [Fate.next]) hm'
  | scan w' fate h hm =>
      refine hset (fun keys he => ?_) hm'
      cases fate with
      | answered => rw [← Maintenance.recovering.inj he]; exact Finset.notMem_erase w' _
      | lost => exact absurd he (by simp [Fate.next])
      | refused => exact absurd he (by simp [Fate.next])
  | recover w' v fate keys' h hm hv =>
      refine hset (fun keys he => ?_) hm'
      cases fate with
      | answered =>
          rw [← Maintenance.recovering.inj he]
          exact fun hmem => hi.keys w' keys' hm (Finset.mem_of_mem_erase hmem)
      | lost => exact absurd he (by simp [Fate.next])
      | refused => exact absurd he (by simp [Fate.next])
  | maintained w' h hm => exact hset (by simp) hm'
  | create | enqueue | expire | start | crash | dequeue | pop | sizeIdle | size | begin | advance
  | handle | retry | acknowledge => exact hi.keys w keys hm'

theorem taskInv_step {s s' : World ω} {l : Label ω} (hi : TaskInv s)
    (h : WorldStep codec maxAttempts s l s') : TaskInv s' where
  job := by
    intro w job hj
    rcases job?_worldStep h hj with hold | ⟨_, hpop, hq, _⟩
    · exact issued_worldStep hi h (hi.job w job hold)
    · rw [hq]
      exact (pop_job hpop).1
  keys := keys_worldStep hi h

/-! ## The queue under the workers -/

/-- What every run of the workers keeps. -/
structure WorldInv (codec : EnvelopeCodec) (s : World ω) : Prop where
  queue : QueueInv codec s.queue
  task : TaskInv s

omit [DecidableEq ω] in
theorem worldInv_init : WorldInv codec (World.init : World ω) := ⟨queueInv_empty, taskInv_init⟩

theorem worldInv_step {s s' : World ω} {l : Label ω} (hi : WorldInv codec s)
    (h : WorldStep codec maxAttempts s l s') : WorldInv codec s' := by
  refine ⟨?_, taskInv_step hi.task h⟩
  have hq := queue_step hi.task h
  split at hq
  · rw [hq]; exact hi.queue
  · exact queueInv_step hi.queue hq

theorem worldInv_reachable {ok : World ω → Label ω → Prop} {s : World ω}
    (h : Reach (World.step codec maxAttempts) ok World.init s) : WorldInv codec s :=
  h.invariant worldInv_init fun _ hi _ hs => worldInv_step hi (worldStep hs)

end PipeLens.Proof
