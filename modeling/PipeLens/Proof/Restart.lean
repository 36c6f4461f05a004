import PipeLens.Proof.FailureChain
import PipeLens.Proof.Reconciliation

/-!
# What a restart does not take up

`queued_requests` lists what is `QUEUED`. An analysis that was `RUNNING` when the
process stopped has no envelope any more, is not listed, and a handler that meets it
again enqueues nothing. So no process ever starts it again.
-/

namespace PipeLens.Proof

open PipeLens Transition

variable {backend : Backend} {maxAttempts : Int} {s s' : LocalWorld} {l : LocalLabel}

/-- The run is `RUNNING` under `token`, and neither the queue nor the worker has it. -/
structure Orphaned (s : LocalWorld) (runId : Int) (token : Option Token) : Prop where
  running : ∃ row, s.store.row? runId = some row ∧ row.status = .running
    ∧ row.attemptToken = token
  unmarked : runId ∉ s.queue.runIds

theorem Orphaned.not_held {runId : Int} {token : Option Token} (h : LocalInv s)
    (ho : Orphaned s runId token) {job : QueueJob} (hp : s.phase.job? = some job) :
    job.runId ≠ runId := by
  rintro rfl
  exact ho.unmarked (marked_of_job h hp)

theorem Orphaned.not_waits {runId : Int} {token : Option Token} (ho : Orphaned s runId token) :
    ¬ Waits s.store runId := by
  obtain ⟨row, hr, hstatus, _⟩ := ho.running
  exact not_waits_of_status hr (by rw [hstatus]; simp)

/-- **Preserved by every step.** -/
theorem orphaned_step {runId : Int} {token : Option Token} (h : LocalInv s)
    (ho : Orphaned s runId token) (hs : LocalStep backend maxAttempts s l s') :
    Orphaned s' runId token := by
  refine ⟨?_, ?_⟩
  · obtain ⟨row, hr, hstatus, htoken⟩ := ho.running
    cases localRow hs runId with
    | keep hsame =>
        obtain ⟨row', hr', hclaim⟩ := hsame.row hr
        have hst : row'.status = row.status := congrArg Prod.fst hclaim
        have htok : row'.attemptToken = row.attemptToken := congrArg (·.2.1) hclaim
        exact ⟨row', hr', hst.trans hstatus, htok.trans htoken⟩
    | created run deliveryId clock fate _ _ absent _ =>
        rw [hr] at absent
        exact absurd absent (by simp)
    | begun token' fate now job _ phase id _ _ =>
        exact absurd id (ho.not_held h (by rw [phase]; rfl))
    | advanced event job a status token' _ phase id _ _ =>
        exact absurd id (ho.not_held h (by rw [phase]; rfl))
    | handled fate now job token' message row' _ phase id _ _ =>
        exact absurd id (ho.not_held h (by rw [phase]; rfl))
  · intro hm
    rcases marked_back h hs hm with hm | hw
    · exact ho.unmarked hm
    · exact ho.not_waits hw

theorem orphaned_reachable {s₀ : LocalWorld} {runId : Int} {token : Option Token}
    (h₀ : LocalInv s₀) (ho : Orphaned s₀ runId token)
    (h : Reach (LocalWorld.step backend maxAttempts) anyStep s₀ s) : Orphaned s runId token := by
  have hstep : ∀ {s s' : LocalWorld} {l : LocalLabel}, LocalInv s ∧ Orphaned s runId token →
      LocalWorld.step backend maxAttempts s l = some s' → LocalInv s' ∧ Orphaned s' runId token :=
    fun hi hs => ⟨localInv_step hi.1 (localStep hs), orphaned_step hi.1 hi.2 (localStep hs)⟩
  exact (h.invariant (P := fun s => LocalInv s ∧ Orphaned s runId token) ⟨h₀, ho⟩
    fun _ hi _ hs => hstep hi hs).2

/--
**A restart does not take up a running analysis.** Once the process has stopped, an
analysis that is `RUNNING` stays so, under the token it has, whatever comes after:
startups, redelivered webhooks, other analyses. It is never queued, and no worker
gets it.
-/
theorem running_stays_running
    (h : Reach (LocalWorld.step backend maxAttempts) anyStep LocalWorld.init s)
    (hdown : s.lifespan = .down) {runId : Int} {row : AnalysisRow}
    (hrow : s.store.row? runId = some row) (hrunning : row.status = .running)
    (h' : Reach (LocalWorld.step backend maxAttempts) anyStep s s') :
    (∃ row', s'.store.row? runId = some row' ∧ row'.status = .running
      ∧ row'.attemptToken = row.attemptToken)
    ∧ runId ∉ s'.queue.queue.map envelopeRun
    ∧ ∀ job, s'.phase.job? = some job → job.runId ≠ runId := by
  have hinv := localInv_reachable h
  have horphan : Orphaned s runId row.attemptToken := by
    refine ⟨⟨row, hrow, hrunning, rfl⟩, ?_⟩
    rw [hinv.down hdown]
    simp [MemoryQueue.empty]
  have hafter := orphaned_reachable hinv horphan h'
  have hinv' : LocalInv s' :=
    h'.invariant hinv fun _ hi _ hs => localInv_step hi (localStep hs)
  refine ⟨hafter.running, ?_, fun job hp => hafter.not_held hinv' hp⟩
  intro hin
  obtain ⟨work, hholds, _⟩ := hinv'.queue
  exact hafter.unmarked ((hholds.runIds runId).mpr (List.mem_append_left _ hin))

/-! ## A process that stops twice -/

/-- A failed run is stored, and its process stops before the enqueue. -/
def stoppedBeforeEnqueue : List LocalLabel :=
  [.startup, .serve, .create (widgetDelivery 77 .failure 100).run "delivery-77" ⟨100, 100, 100⟩
    .answered, .stop]

/-- The next process takes it up, and stops while it is analyzed. -/
def stoppedWhileRunning : List LocalLabel :=
  stoppedBeforeEnqueue ++ [.startup, .reconcile, .serve, .dequeue, .size, .begin 1 .answered 110,
    .stop]

/-- The process after that has nothing to take up. -/
def servesAgain : List LocalLabel := [.startup, .serve]

/-- The run is `QUEUED` in the store. -/
def isWaiting (s : LocalWorld) (runId : Int) : Bool :=
  (s.store.row? runId).any fun row => (CompletedRun.queueRequest row).isSome

theorem waits_of_isWaiting {runId : Int} (h : isWaiting s runId = true) :
    Waits s.store runId := by
  obtain ⟨row, hr, hq⟩ := (Option.any_eq_true _ _).mp h
  exact ⟨row, hr, hq⟩

theorem startup_reconciles_widget :
    ∃ s, exec (LocalWorld.step .sqlite 3) anyStep LocalWorld.init
        (stoppedBeforeEnqueue ++ [.startup, .reconcile]) = some s
      ∧ s.queue.queue = s.store.queuedRequests.map freshEnvelope ∧ s.queue.queue.length = 1 := by
  have hrun : (exec (LocalWorld.step .sqlite 3) anyStep LocalWorld.init
      (stoppedBeforeEnqueue ++ [.startup, .reconcile])).any
        (fun s => decide (s.lifespan = .reconciling [] 1)) = true := by
    decide
  obtain ⟨s, hs, hl⟩ := (Option.any_eq_true _ _).mp hrun
  obtain ⟨hqueue, hcount, _⟩ :=
    startup_reconciles (reach_of_exec Reach.init hs) (of_decide_eq_true hl)
  exact ⟨s, hs, hqueue, hcount.symm⟩

theorem waiting_is_queued_widget :
    ∃ s, exec (LocalWorld.step .sqlite 3) anyStep LocalWorld.init
        (stoppedBeforeEnqueue ++ [.startup, .reconcile, .serve, .dequeue]) = some s
      ∧ s.queue.queue = [] ∧ (s.queue.queue.map envelopeRun ++ held s.phase).count 77 = 1 := by
  have hrun : (exec (LocalWorld.step .sqlite 3) anyStep LocalWorld.init
      (stoppedBeforeEnqueue ++ [.startup, .reconcile, .serve, .dequeue])).any
        (fun s => decide (s.lifespan = .serving) && decide (s.phase ≠ .dead) && isWaiting s 77
          && decide (s.handlers = []) && decide (s.missed = []) && decide (s.queue.queue = []))
      = true := by
    decide
  obtain ⟨s, hs, hend⟩ := (Option.any_eq_true _ _).mp hrun
  simp only [Bool.and_eq_true, decide_eq_true_eq] at hend
  obtain ⟨⟨⟨⟨⟨hserving, halive⟩, hw⟩, hhandlers⟩, hmissed⟩, hqueue⟩ := hend
  rcases waiting_is_queued (reach_of_exec Reach.init hs) hserving halive (waits_of_isWaiting hw) with
    hone | hin | hin
  · exact ⟨s, hs, hqueue, hone⟩
  · rw [hhandlers] at hin
    exact absurd hin (by simp)
  · rw [hmissed] at hin
    exact absurd hin (by simp)

theorem running_stays_running_widget :
    ∃ s s', exec (LocalWorld.step .sqlite 3) anyStep LocalWorld.init stoppedWhileRunning = some s
      ∧ exec (LocalWorld.step .sqlite 3) anyStep s servesAgain = some s'
      ∧ s'.lifespan = .serving
      ∧ ∃ row', s'.store.row? 77 = some row' ∧ row'.status = .running := by
  have hrun : (exec (LocalWorld.step .sqlite 3) anyStep LocalWorld.init stoppedWhileRunning).any
      (fun s => decide (s.lifespan = .down)
        && (s.store.row? 77).any (fun row => decide (row.status = .running))
        && (exec (LocalWorld.step .sqlite 3) anyStep s servesAgain).any
          (fun s' => decide (s'.lifespan = .serving))) = true := by
    decide
  obtain ⟨s, hs, hend⟩ := (Option.any_eq_true _ _).mp hrun
  simp only [Bool.and_eq_true, Option.any_eq_true, decide_eq_true_eq] at hend
  obtain ⟨⟨hdown, row, hrow, hrunning⟩, s', hs', hserving⟩ := hend
  obtain ⟨⟨row', hrow', hrunning', _⟩, _⟩ := running_stays_running (reach_of_exec Reach.init hs)
    hdown hrow hrunning (reach_of_exec Reach.init hs')
  exact ⟨s, s', hs, hs', hserving, row', hrow', hrunning'⟩

end PipeLens.Proof
