import PipeLens.Proof.WorkerLists

/-!
# A live worker and its own list

Between taking a job and giving it up, `process_next` makes three Redis calls: the
pop itself, a `size` for the gauge, and the script that acknowledges or retries. A
`RedisError` from any of them sends the worker back to the head of its loop. If the
job is still in its list by then, nobody will ever take it out: the worker skips
its own list in recovery, and its heartbeat keeps the others away.
-/

namespace PipeLens.Proof

open PipeLens RedisList Transition

variable {ω : Type} [DecidableEq ω] {codec : EnvelopeCodec} {maxAttempts : Int}

/-! ## Other workers leave a list alone, or empty it -/

/-- The worker whose own list an action of the queue takes from or adds to. -/
def listOwner : QueueAction ω → Option ω
  | .pop w => some w
  | .acknowledge w _ => some w
  | .retry w _ => some w
  | _ => none

/-- The worker whose own list a step may touch. -/
def listActor : Label ω → Option ω
  | .pop w _ => some w
  | .acknowledge w _ => some w
  | .retry w _ => some w
  | _ => none

omit [DecidableEq ω] in
theorem listOwner_queueAction {s : World ω} {l : Label ω} {a : QueueAction ω} {w : ω}
    (h : queueAction s l = some a) (ha : listOwner a = some w) : listActor l = some w := by
  cases l with
  | enqueue request => rw [← Option.some.inj h] at ha; exact absurd ha (by simp [listOwner])
  | expire v => rw [← Option.some.inj h] at ha; exact absurd ha (by simp [listOwner])
  | heartbeat v fate => rw [← eq_of_apply_eq_some h] at ha; exact absurd ha (by simp [listOwner])
  | dequeue v fate => rw [← eq_of_apply_eq_some h] at ha; exact absurd ha (by simp [listOwner])
  | recover v v' fate => rw [← eq_of_apply_eq_some h] at ha; exact absurd ha (by simp [listOwner])
  | pop v fate => rw [← eq_of_apply_eq_some h] at ha; exact ha
  | retry v fate =>
      simp only [queueAction] at h
      split at h
      · rw [← eq_of_apply_eq_some h] at ha; exact ha
      · exact absurd h (by simp)
  | acknowledge v fate =>
      simp only [queueAction] at h
      split at h
      · rw [← eq_of_apply_eq_some h] at ha; exact ha
      · exact absurd h (by simp)
  | create | start | crash | scan | maintained | size | begin | advance | handle =>
      exact absurd h (by simp [queueAction])

/-- Whoever else takes a step leaves the list of `w` alone, or drains it. -/
theorem list_worldStep {s s' : World ω} {l : Label ω} (hi : TaskInv s)
    (h : WorldStep codec maxAttempts s l s') {w : ω} (hne : listActor l ≠ some w) :
    s'.queue.redis.processing w = s.queue.redis.processing w
    ∨ s'.queue.redis.processing w = [] := by
  have hq := queue_step hi h
  split at hq
  · exact Or.inl (by rw [hq])
  · rename_i a hact
    generalize hlist : s'.queue.redis.processing w = list
    have hstep := listStep hq w
    rw [hlist] at hstep
    cases hstep with
    | keep => exact Or.inl rfl
    | take raw ha _ => exact absurd (listOwner_queueAction hact (by rw [ha]; rfl)) hne
    | drop job ha =>
        refine absurd (listOwner_queueAction hact ?_) hne
        rcases ha with ha | ha <;> (rw [ha]; rfl)
    | drain v _ _ => exact Or.inr rfl

/-! ## The invariant -/

/-- The list is empty, or holds the job that the worker is processing. -/
def OwnJob (job : Option QueueJob) (list : List String) : Prop :=
  list = [] ∨ ∃ j receipt, job = some j ∧ j.receipt = some receipt ∧ list = [receipt]

/-- Every worker that is not dead has nothing else in its list. -/
def ListsOwn (s : World ω) : Prop :=
  ∀ w, s.phase w ≠ .dead → OwnJob (s.phase w).job? (s.queue.redis.processing w)

/-- No live worker is at the head of its loop with a job in its list. -/
def NoneStranded (s : World ω) : Prop :=
  ∀ w, s.phase w = .head → s.queue.redis.processing w = []

/--
No `RedisError` reaches `process_next` while the worker has a job in its list: the
reply of a pop that took a job arrives, the `size` after it goes through, and the
script that acknowledges or retries the job is executed. Once another worker has
recovered the job, all of these may fail.
-/
def NoErrorWithJob (s : World ω) : Label ω → Prop
  | .pop _ .lost => s.queue.redis.pending = []
  | .size w fate =>
      fate = .answered ∨ (s.phase w).job? = none ∨ s.queue.redis.processing w = []
  | .retry w .refused => s.queue.redis.processing w = []
  | .acknowledge w .refused => s.queue.redis.processing w = []
  | _ => True

instance (s : World ω) (l : Label ω) : Decidable (NoErrorWithJob s l) :=
  match l with
  | .pop _ .lost => inferInstanceAs (Decidable (s.queue.redis.pending = []))
  | .size w fate => inferInstanceAs (Decidable
      (fate = .answered ∨ (s.phase w).job? = none ∨ s.queue.redis.processing w = []))
  | .retry w .refused | .acknowledge w .refused =>
      inferInstanceAs (Decidable (s.queue.redis.processing w = []))
  | .pop _ .answered | .pop _ .refused | .retry _ .answered | .retry _ .lost
  | .acknowledge _ .answered | .acknowledge _ .lost | .create _ | .enqueue _ | .expire _
  | .start _ | .crash _ | .heartbeat _ _ | .scan _ _ | .recover _ _ _ | .maintained _
  | .dequeue _ _ | .begin _ _ _ _ | .advance _ _ | .handle _ _ _ => isTrue trivial

omit [DecidableEq ω] in
theorem listsOwn_init : ListsOwn (World.init : World ω) := fun _ _ => Or.inl rfl

omit [DecidableEq ω] in
theorem noneStranded_of_listsOwn {s : World ω} (h : ListsOwn s) : NoneStranded s := by
  intro w hw
  rcases h w (by simp [hw]) with he | ⟨j, receipt, hj, _⟩
  · exact he
  · rw [hw] at hj
    exact absurd hj (by simp [Phase.job?])

/-- A worker that keeps its job, or never had one, while its list is left alone or drained. -/
theorem OwnJob.frame {job : Option QueueJob} {list list' : List String} (h : OwnJob job list)
    (hl : list' = list ∨ list' = []) : OwnJob job list' := by
  rcases hl with he | he
  · rw [he]; exact h
  · exact Or.inl he

theorem OwnJob.nil {list : List String} (h : OwnJob none list) : list = [] := by
  rcases h with he | ⟨_, _, hj, _⟩
  · exact he
  · exact absurd hj (by simp)

/-- Removing the worker's own receipt empties its list. -/
theorem OwnJob.dropReceipt {job : QueueJob} {list : List String} (h : OwnJob (some job) list) :
    dropReceipt job list = [] := by
  rcases h with he | ⟨j, receipt, hj, hr, he⟩
  · rw [he, dropReceipt_nil]
  · rw [← Option.some.inj hj] at hr
    unfold Proof.dropReceipt
    rw [he, hr]
    dsimp only
    rw [lrem_of_mem (by simp)]
    simp

theorem brpoplpush_of_nil {r : Redis ω} (w : ω) (h : r.pending = []) : (r.brpoplpush w).1 = r := by
  unfold Redis.brpoplpush
  rw [h, rpop_nil]

/-- A pop into an empty list leaves the job it returns, and nothing else, in it. -/
theorem ownJob_pop {q : QueueState ω} {w : ω} (h : q.redis.processing w = [])
    (hlive : World.afterPop (q.pop codec w).2 ≠ .dead) :
    OwnJob (World.afterPop (q.pop codec w).2).job? ((q.pop codec w).1.redis.processing w) := by
  rw [pop_redis]
  rcases brpoplpush_processing q.redis w w with he | ⟨_, raw, hraw, he⟩
  · exact Or.inl (by rw [he]; exact h)
  · cases hd : (q.pop codec w).2 with
    | timeout =>
        -- something was popped, so this was no timeout
        unfold QueueState.pop at hd
        dsimp only at hd
        rw [hraw] at hd
        dsimp only at hd
        split at hd <;> exact absurd hd (by simp)
    | invalid => rw [hd] at hlive; exact absurd rfl hlive
    | job job =>
        obtain ⟨_, receipt, hr, hpop⟩ := pop_job hd
        rw [hraw] at hpop
        refine Or.inr ⟨job, receipt, rfl, hr, ?_⟩
        rw [he, h, Option.some.inj hpop]

/-! ## Preservation -/

omit [DecidableEq ω] in
theorem actor_of_listActor {l : Label ω} {w : ω} (h : listActor l = some w) : actor l = some w := by
  cases l <;> first | exact h | exact absurd h (by simp [listActor])

/-- The acting worker keeps to its own job. -/
theorem ownJob_actor {s s' : World ω} {l : Label ω} {w : ω} (hi : TaskInv s) (h : ListsOwn s)
    (hok : NoErrorWithJob s l) (hs : WorldStep codec maxAttempts s l s') (ha : actor l = some w)
    (hdead : s'.phase w ≠ .dead) :
    OwnJob (s'.phase w).job? (s'.queue.redis.processing w) := by
  -- where only the phase changes, it is enough that the job stays the same
  have hsame : ∀ phase : Phase, s.phase w ≠ .dead → phase.job? = (s.phase w).job? →
      s'.phase w = phase → listActor l ≠ some w →
      OwnJob (s'.phase w).job? (s'.queue.redis.processing w) := by
    intro phase hlive hjob hphase hne
    rw [hphase, hjob]
    exact (h w hlive).frame (list_worldStep hi hs hne)
  cases hs with
  | create | enqueue | expire => exact absurd ha (by simp [actor])
  | start v hp =>
      obtain rfl := Option.some.inj ha
      exact hsame .startup (by simp [hp]) (by simp [hp, Phase.job?])
        (Function.update_self ..) (by simp [listActor])
  | crash v hp =>
      obtain rfl := Option.some.inj ha
      exact absurd (Function.update_self ..) hdead
  | heartbeat v fate hp hm => exact hsame _ hdead rfl rfl (by simp [listActor])
  | scan v fate hp hm => exact hsame _ hdead rfl rfl (by simp [listActor])
  | recover v v' fate keys hp hm hv => exact hsame _ hdead rfl rfl (by simp [listActor])
  | maintained v hp hm =>
      obtain rfl := Option.some.inj ha
      exact hsame _ (by rintro he; rw [he] at hp; exact absurd hp (by simp [Phase.alive]))
        (afterMaintenance_job? _) (Function.update_self ..) (by simp [listActor])
  | dequeue v fate hp =>
      obtain rfl := Option.some.inj ha
      refine hsame _ (by simp [hp]) ?_ (Function.update_self ..) (by simp [listActor])
      rw [hp]
      cases fate <;> rfl
  | pop v fate hp =>
      obtain rfl := Option.some.inj ha
      have hnil : s.queue.redis.processing v = [] := by
        have hown := h v (by simp [hp])
        rw [hp] at hown
        exact OwnJob.nil hown
      simp only [Function.update_self] at hdead ⊢
      cases fate with
      | refused => exact Or.inl hnil
      | lost =>
          -- the condition: a reply may be lost only if there was nothing to pop
          refine Or.inl ?_
          show (s.queue.pop codec v).1.redis.processing v = []
          rw [pop_redis, brpoplpush_of_nil v hok]
          exact hnil
      | answered => exact ownJob_pop hnil hdead
  | sizeIdle v fate hp =>
      obtain rfl := Option.some.inj ha
      refine hsame .head ?_ ?_ (Function.update_self ..) (by simp [listActor])
      · rcases hp with hp | hp <;> simp [hp]
      · rcases hp with hp | hp <;> simp [hp, Phase.job?]
  | size v fate job hp =>
      obtain rfl := Option.some.inj ha
      by_cases hf : fate = .answered
      · subst hf
        exact hsame (.entering job) (by simp [hp]) (by simp [hp, Phase.job?])
          (Function.update_self ..) (by simp [listActor])
      · refine Or.inl ?_
        rcases hok with he | he | he
        · exact absurd he hf
        · rw [hp] at he; exact absurd he (by simp [Phase.job?])
        · exact he
  | begin v token fate now job hp fresh =>
      obtain rfl := Option.some.inj ha
      exact hsame _ (by simp [hp]) (by rw [afterAnalyze_job?, hp]; rfl) (Function.update_self ..)
        (by simp [listActor])
  | advance v event job a p store hp hs =>
      obtain rfl := Option.some.inj ha
      exact hsame _ (by simp [hp]) (by rw [afterAnalyze_job?, hp]; rfl) (Function.update_self ..)
        (by simp [listActor])
  | handle v fate now job token message r store hp hs =>
      obtain rfl := Option.some.inj ha
      simp only [Function.update_self] at hdead
      refine hsame _ (by simp [hp]) ?_ (Function.update_self ..) (by simp [listActor])
      rw [hp]
      -- a worker that survives its handler goes on with the same job
      unfold World.afterHandler at hdead ⊢
      split at hdead
      · split <;> rfl
      · exact absurd rfl hdead
      · exact absurd rfl hdead
  | retry v fate job hp =>
      obtain rfl := Option.some.inj ha
      have hown := h v (by simp [hp])
      rw [hp] at hown
      refine Or.inl ?_
      cases fate with
      | refused => exact hok
      | answered =>
          show (s.queue.redis.retry codec v job).processing v = []
          rw [retry_processing, if_pos rfl]
          exact hown.dropReceipt
      | lost =>
          show (s.queue.redis.retry codec v job).processing v = []
          rw [retry_processing, if_pos rfl]
          exact hown.dropReceipt
  | acknowledge v fate job hp =>
      obtain rfl := Option.some.inj ha
      have hown := h v (by simp [hp])
      rw [hp] at hown
      refine Or.inl ?_
      cases fate with
      | refused => exact hok
      | answered =>
          show (s.queue.redis.acknowledge v job).processing v = []
          rw [acknowledge_processing, if_pos rfl]
          exact hown.dropReceipt
      | lost =>
          show (s.queue.redis.acknowledge v job).processing v = []
          rw [acknowledge_processing, if_pos rfl]
          exact hown.dropReceipt

theorem listsOwn_step {s s' : World ω} {l : Label ω} (hi : TaskInv s) (h : ListsOwn s)
    (hok : NoErrorWithJob s l) (hs : WorldStep codec maxAttempts s l s') : ListsOwn s' := by
  intro w hdead
  by_cases ha : actor l = some w
  · exact ownJob_actor hi h hok hs ha hdead
  · rw [phase_of_not_actor hs ha] at hdead ⊢
    exact (h w hdead).frame (list_worldStep hi hs fun hl => ha (actor_of_listActor hl))

/-- **An error with a job in the list strands it.** -/
theorem stranded_of_error {s s' : World ω} {l : Label ω}
    (hs : WorldStep codec maxAttempts s l s') (h : NoneStranded s') : NoErrorWithJob s l := by
  cases hs with
  | pop v fate hp =>
      cases fate with
      | lost =>
          by_contra hne
          obtain ⟨raw, _, hlist⟩ := brpoplpush_some v hne
          have hnil : (s.queue.pop codec v).1.redis.processing v = [] :=
            h v (Function.update_self ..)
          rw [pop_redis, hlist] at hnil
          exact absurd hnil (by simp)
      | answered => trivial
      | refused => trivial
  | sizeIdle v fate hp =>
      exact Or.inr (Or.inl (by rcases hp with hp | hp <;> simp [hp, Phase.job?]))
  | size v fate job hp =>
      cases fate with
      | answered => exact Or.inl rfl
      | lost => exact Or.inr (Or.inr (h v (Function.update_self ..)))
      | refused => exact Or.inr (Or.inr (h v (Function.update_self ..)))
  | retry v fate job hp =>
      cases fate with
      | refused => exact h v (Function.update_self ..)
      | answered => trivial
      | lost => trivial
  | acknowledge v fate job hp =>
      cases fate with
      | refused => exact h v (Function.update_self ..)
      | answered => trivial
      | lost => trivial
  | create | enqueue | expire | start | crash | heartbeat | scan | recover | maintained | dequeue
  | begin | advance | handle => trivial

/--
**A live worker strands no job, as long as no `RedisError` finds it with one.**

Along every run in which no `RedisError` reaches `process_next` while the worker has
a job in its list, every worker at the head of its loop has an empty list; and the
next step keeps that exactly if it meets the condition as well.
-/
theorem live_worker_strands_none {s : World ω}
    (h : Reach (World.step codec maxAttempts) NoErrorWithJob World.init s) :
    NoneStranded s
    ∧ ∀ l s', s.step codec maxAttempts l = some s' → (NoneStranded s' ↔ NoErrorWithJob s l) := by
  have hown : ListsOwn s := h.invariant listsOwn_init fun hr hi hok hs =>
    listsOwn_step (worldInv_reachable hr).task hi hok (worldStep hs)
  refine ⟨noneStranded_of_listsOwn hown, fun l s' hs => ⟨stranded_of_error (worldStep hs), ?_⟩⟩
  intro hok
  exact noneStranded_of_listsOwn
    (listsOwn_step (worldInv_reachable h).task hown hok (worldStep hs))

/-- The `size` for the gauge fails right after the worker has taken a job. -/
def sizeFails : List (Label Duo) :=
  List.flatten [[.create widgetRecord, .enqueue widgetRequest], comesUp .first,
    [.dequeue .first .answered, .pop .first .answered, .size .first .refused,
      .heartbeat .first .answered]]

theorem live_worker_strands_job :
    ∃ s : World Duo, Reach (World.step jsonCodec 3) anyStep World.init s
      ∧ s.queue.redis.lease .first = true ∧ ¬ NoneStranded s := by
  have hrun : (exec (World.step jsonCodec 3) anyStep World.init sizeFails).any (fun s =>
      s.queue.redis.lease .first && decide (s.phase .first = .head)
        && decide (s.queue.redis.processing .first ≠ [])) = true := by decide +kernel
  obtain ⟨s, hs, hbad⟩ := (Option.any_eq_true _ _).mp hrun
  simp only [Bool.and_eq_true, decide_eq_true_eq] at hbad
  exact ⟨s, reach_of_exec Reach.init hs, hbad.1.1, fun h => hbad.2 (h .first hbad.1.2)⟩

/-- Errors before the pop, after the acknowledgement, and with the reply to it lost. -/
def harmlessErrors : List (Label Duo) :=
  List.flatten [
    [.create { widgetRecord with status := .completed }, .enqueue widgetRequest], comesUp .first,
    [.dequeue .first .lost, .dequeue .first .answered, .pop .first .refused,
      .dequeue .first .answered, .pop .first .answered, .size .first .answered,
      .begin .first 1 .answered 5, .acknowledge .first .lost, .dequeue .first .answered,
      .pop .first .answered, .size .first .refused]]

theorem live_worker_harmlessErrors :
    ∃ s, exec (World.step jsonCodec 3) NoErrorWithJob World.init harmlessErrors = some s
      ∧ NoneStranded s := by
  have hrun : (exec (World.step jsonCodec 3) NoErrorWithJob World.init harmlessErrors).isSome
      = true := by decide +kernel
  obtain ⟨s, hs⟩ := Option.isSome_iff_exists.mp hrun
  exact ⟨s, hs, (live_worker_strands_none (reach_of_exec Reach.init hs)).1⟩

end PipeLens.Proof
