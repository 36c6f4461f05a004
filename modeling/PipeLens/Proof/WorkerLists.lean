import PipeLens.Proof.WorkerSteps

/-!
# Processing lists: who can still recover them

A job in a processing list is safe as long as somebody will deal with it: the
worker itself while it is processing the job, another worker once the lease of the
first is gone. Two things can go wrong.

* `dequeue` registers the worker and pops in a second command. If the lease runs
  out in between and another worker's recovery takes the worker out of the set, the
  job lands in a list that no recovery will ever look at.
* A `RedisError` sends the worker back to the head of its loop. If it still has a
  job in its list at that point, it forgets the job, while its own heartbeat keeps
  the others away from it.

In both cases the step that goes wrong is the only way to go wrong: a run keeps the
property exactly as long as it avoids that step.
-/

namespace PipeLens.Proof

open PipeLens RedisList Transition

variable {ω : Type} [DecidableEq ω] {codec : EnvelopeCodec} {maxAttempts : Int}

/-! ## What a step of the queue does to one processing list -/

/-- What the scripts that give a job up leave of a list. -/
def dropReceipt (job : QueueJob) (list : List String) : List String :=
  match job.receipt with
  | none => list
  | some receipt => (lrem receipt list).2

/-- The ways a processing list changes. -/
inductive ListStep (q : QueueState ω) (a : QueueAction ω) (w : ω) : List String → Prop where
  | keep : ListStep q a w (q.redis.processing w)
  /-- The worker took a job. -/
  | take (raw : String) (h : a = .pop w) (hpop : (q.redis.brpoplpush w).2 = some raw) :
      ListStep q a w (raw :: q.redis.processing w)
  /-- The worker acknowledged or retried a job. -/
  | drop (job : QueueJob) (h : a = .acknowledge w job ∨ a = .retry w job) :
      ListStep q a w (dropReceipt job (q.redis.processing w))
  /-- Another worker recovered the list. -/
  | drain (v : ω) (h : a = .recover v w) (hl : q.redis.lease w = false) : ListStep q a w []

theorem acknowledge_processing (r : Redis ω) (w v : ω) (job : QueueJob) :
    (r.acknowledge v job).processing w
      = if w = v then dropReceipt job (r.processing w) else r.processing w := by
  unfold Redis.acknowledge Redis.acknowledgeScript dropReceipt
  cases job.receipt with
  | none => simp
  | some receipt =>
      dsimp only
      by_cases he : w = v
      · subst he
        split <;> simp
      · split <;> simp [he]

theorem retry_processing (r : Redis ω) (w v : ω) (job : QueueJob) :
    (r.retry codec v job).processing w
      = if w = v then dropReceipt job (r.processing w) else r.processing w := by
  unfold Redis.retry Redis.retryScript dropReceipt
  cases job.receipt with
  | none => simp
  | some receipt =>
      dsimp only
      by_cases he : w = v
      · subst he
        split <;> simp
      · split <;> simp [he]

theorem recoverScript_processing (r : Redis ω) (w v : ω) :
    (r.recoverScript v).1.processing w = r.processing w
    ∨ (w = v ∧ r.lease w = false ∧ (r.recoverScript v).1.processing w = []) := by
  unfold Redis.recoverScript
  split
  · exact Or.inl rfl
  · rename_i hl
    by_cases he : w = v
    · subst he
      exact Or.inr ⟨rfl, by simpa using hl, by simp [drain_eq]⟩
    · exact Or.inl (by simp [Function.update_of_ne he])

theorem brpoplpush_processing (r : Redis ω) (w v : ω) :
    (r.brpoplpush v).1.processing w = r.processing w
    ∨ (w = v ∧ ∃ raw, (r.brpoplpush v).2 = some raw
      ∧ (r.brpoplpush v).1.processing w = raw :: r.processing w) := by
  unfold Redis.brpoplpush
  split
  · exact Or.inl rfl
  · rename_i raw rest hp
    by_cases he : w = v
    · subst he
      exact Or.inr ⟨rfl, raw, rfl, by simp [lpush]⟩
    · exact Or.inl (by simp [Function.update_of_ne he])

theorem listStep {q q' : QueueState ω} {a : QueueAction ω} (h : q.step codec a = some q') (w : ω) :
    ListStep q a w (q'.redis.processing w) := by
  cases a with
  | enqueue request =>
      rw [← Option.some.inj h]
      have he : (q.redis.enqueue codec request).1.processing w = q.redis.processing w := by
        unfold Redis.enqueue Redis.enqueueScript
        dsimp only
        split <;> rfl
      show ListStep q _ w ((q.redis.enqueue codec request).1.processing w)
      rw [he]
      exact .keep
  | heartbeat v => rw [← Option.some.inj h]; exact .keep
  | pop v =>
      rw [← Option.some.inj h, pop_redis]
      rcases brpoplpush_processing q.redis w v with he | ⟨rfl, raw, hp, he⟩
      · rw [he]; exact .keep
      · rw [he]; exact .take raw rfl hp
  | acknowledge v job =>
      simp only [QueueState.step] at h
      split at h
      · rw [← Option.some.inj h]
        dsimp only
        rw [acknowledge_processing]
        split
        · rename_i he
          exact .drop job (Or.inl (by rw [he]))
        · exact .keep
      · exact absurd h (by simp)
  | retry v job =>
      simp only [QueueState.step] at h
      split at h
      · rw [← Option.some.inj h]
        dsimp only
        rw [retry_processing]
        split
        · rename_i he
          exact .drop job (Or.inr (by rw [he]))
        · exact .keep
      · exact absurd h (by simp)
  | recover v v' =>
      simp only [QueueState.step] at h
      split at h
      · exact absurd h (by simp)
      · rw [← Option.some.inj h]
        rcases recoverScript_processing q.redis w v' with he | ⟨rfl, hl, he⟩
        · dsimp only; rw [he]; exact .keep
        · dsimp only; rw [he]; exact .drain v rfl hl
  | expire v => rw [← Option.some.inj h]; exact .keep

/-! ## Every list in use is registered -/

/-- Every non-empty processing list is in the workers set. -/
def Registered (r : Redis ω) : Prop := ∀ w, r.processing w ≠ [] → w ∈ r.workers

/-- Only recovery takes a worker out of the set, and it leaves the list empty. -/
theorem workers_step {q q' : QueueState ω} {a : QueueAction ω} (h : q.step codec a = some q')
    {w : ω} (hw : w ∈ q.redis.workers) :
    w ∈ q'.redis.workers ∨ q'.redis.processing w = [] := by
  cases a with
  | enqueue request =>
      rw [← Option.some.inj h]
      refine Or.inl ?_
      show w ∈ (q.redis.enqueue codec request).1.workers
      unfold Redis.enqueue Redis.enqueueScript
      dsimp only
      split <;> exact hw
  | heartbeat v => rw [← Option.some.inj h]; exact Or.inl (Finset.mem_insert_of_mem hw)
  | pop v =>
      rw [← Option.some.inj h, pop_redis]
      refine Or.inl ?_
      unfold Redis.brpoplpush
      split <;> exact hw
  | acknowledge v job =>
      simp only [QueueState.step] at h
      split at h
      · rw [← Option.some.inj h]
        refine Or.inl ?_
        show w ∈ (q.redis.acknowledge v job).workers
        unfold Redis.acknowledge Redis.acknowledgeScript
        dsimp only
        split
        · exact hw
        · split <;> exact hw
      · exact absurd h (by simp)
  | retry v job =>
      simp only [QueueState.step] at h
      split at h
      · rw [← Option.some.inj h]
        refine Or.inl ?_
        show w ∈ (q.redis.retry codec v job).workers
        unfold Redis.retry Redis.retryScript
        dsimp only
        split
        · exact hw
        · split <;> exact hw
      · exact absurd h (by simp)
  | recover v v' =>
      simp only [QueueState.step] at h
      split at h
      · exact absurd h (by simp)
      · rw [← Option.some.inj h]
        show w ∈ (q.redis.recoverScript v').1.workers
          ∨ (q.redis.recoverScript v').1.processing w = []
        unfold Redis.recoverScript
        split
        · exact Or.inl hw
        · by_cases he : w = v'
          · subst he
            exact Or.inr (by simp [drain_eq])
          · exact Or.inl (Finset.mem_erase.mpr ⟨he, hw⟩)
  | expire v => rw [← Option.some.inj h]; exact Or.inl hw

theorem brpoplpush_workers (r : Redis ω) (w : ω) : (r.brpoplpush w).1.workers = r.workers := by
  unfold Redis.brpoplpush
  split <;> rfl

theorem brpoplpush_some {r : Redis ω} (w : ω) (h : r.pending ≠ []) :
    ∃ raw, (r.brpoplpush w).2 = some raw
      ∧ (r.brpoplpush w).1.processing w = raw :: r.processing w := by
  unfold Redis.brpoplpush
  split
  · rename_i hp
    exact absurd (rpop_eq_none hp) h
  · exact ⟨_, rfl, by simp [lpush]⟩

theorem pending_of_brpoplpush {r : Redis ω} {w : ω} {raw : String}
    (h : (r.brpoplpush w).2 = some raw) : r.pending ≠ [] := by
  intro he
  unfold Redis.brpoplpush at h
  rw [he, rpop_nil] at h
  exact absurd h (by simp)

theorem dropReceipt_nil (job : QueueJob) : dropReceipt job [] = [] := by
  unfold dropReceipt
  split <;> rfl

/-- **A step keeps every list registered exactly when it pops into a registered one.** -/
theorem registered_step {q q' : QueueState ω} {a : QueueAction ω} (h : Registered q.redis)
    (hs : q.step codec a = some q') :
    Registered q'.redis ↔
      ∀ w, a = .pop w → q.redis.pending = [] ∨ w ∈ q.redis.workers := by
  constructor
  · rintro h' w rfl
    by_cases hp : q.redis.pending = []
    · exact Or.inl hp
    · obtain ⟨raw, _, hlist⟩ := brpoplpush_some w hp
      have hmem := h' w
      rw [← Option.some.inj hs, pop_redis, hlist, brpoplpush_workers] at hmem
      exact Or.inr (hmem (by simp))
  · intro hok w hne
    -- whoever is removed from the set has an empty list, and this one is not empty
    have hstay : w ∈ q.redis.workers → w ∈ q'.redis.workers := fun hw =>
      (workers_step hs hw).resolve_right hne
    generalize hlist : q'.redis.processing w = list at hne
    have hstep := listStep hs w
    rw [hlist] at hstep
    cases hstep with
    | keep => exact hstay (h w hne)
    | take raw ha hpop =>
        exact hstay ((hok w ha).resolve_left (pending_of_brpoplpush hpop))
    | drop job ha =>
        refine hstay (h w fun he => hne ?_)
        rw [he, dropReceipt_nil]
    | drain v ha hl => exact absurd rfl hne

/-- Every `BRPOPLPUSH` that finds a job runs while its worker is still registered. -/
def PopsRegistered (s : World ω) : Label ω → Prop
  | .pop w fate =>
      fate = .refused ∨ s.queue.redis.pending = [] ∨ w ∈ s.queue.redis.workers
  | _ => True

instance (s : World ω) (l : Label ω) : Decidable (PopsRegistered s l) := by
  apply Label.casesOn (motive := fun l => Decidable (PopsRegistered s l)) l <;> intros <;>
    dsimp only [PopsRegistered] <;> infer_instance

omit [DecidableEq ω] in
theorem popsRegistered_iff {s : World ω} {l : Label ω} :
    PopsRegistered s l ↔
      ∀ w, queueAction s l = some (.pop w) →
        s.queue.redis.pending = [] ∨ w ∈ s.queue.redis.workers := by
  cases l with
  | pop v fate =>
      cases fate with
      | refused => simp [PopsRegistered, queueAction, Fate.apply]
      | answered => simp [PopsRegistered, queueAction, Fate.apply]
      | lost => simp [PopsRegistered, queueAction, Fate.apply]
  | heartbeat v fate => cases fate <;> simp [PopsRegistered, queueAction, Fate.apply]
  | dequeue v fate => cases fate <;> simp [PopsRegistered, queueAction, Fate.apply]
  | recover v v' fate => cases fate <;> simp [PopsRegistered, queueAction, Fate.apply]
  | retry v fate =>
      simp only [PopsRegistered, queueAction, true_iff]
      intro w h
      split at h
      · cases fate <;> exact absurd h (by simp [Fate.apply])
      · exact absurd h (by simp)
  | acknowledge v fate =>
      simp only [PopsRegistered, queueAction, true_iff]
      intro w h
      split at h
      · cases fate <;> exact absurd h (by simp [Fate.apply])
      · exact absurd h (by simp)
  | create | enqueue | expire | start | crash | scan | maintained | size | begin | advance
  | handle => simp [PopsRegistered, queueAction]

theorem registered_worldStep {s s' : World ω} {l : Label ω} (hi : TaskInv s)
    (h : Registered s.queue.redis) (hs : WorldStep codec maxAttempts s l s') :
    Registered s'.queue.redis ↔ PopsRegistered s l := by
  rw [popsRegistered_iff]
  have hq := queue_step hi hs
  split at hq
  · rename_i ha
    rw [hq, ha]
    simpa using h
  · rename_i a ha
    rw [registered_step h hq, ha]
    simp

/-! ### What recovery does with a registered list -/

theorem recoverScript_lease (r : Redis ω) (w : ω) : (r.recoverScript w).1.lease = r.lease := by
  unfold Redis.recoverScript
  split <;> rfl

/-- Recovery moves texts to the pending list and loses none. -/
theorem recoverScript_keeps (r : Redis ω) (w v : ω) {raw : String}
    (h : raw ∈ r.pending ∨ raw ∈ r.processing w) :
    raw ∈ (r.recoverScript v).1.pending ∨ raw ∈ (r.recoverScript v).1.processing w := by
  unfold Redis.recoverScript
  split
  · exact h
  · simp only [drain_eq]
    rcases h with hp | hp
    · exact Or.inl (List.mem_append_right _ hp)
    · by_cases he : w = v
      · subst he
        exact Or.inl (List.mem_append_left _ hp)
      · exact Or.inr (by simpa [Function.update_of_ne he] using hp)

/-- `recover_orphaned` without its count. -/
def recoverRound (v : ω) (keys : List ω) (r : Redis ω) : Redis ω :=
  keys.foldl (fun r w => if w = v then r else (r.recoverScript w).1) r

theorem recoverOrphaned_fst (r : Redis ω) (v : ω) (keys : List ω) :
    (r.recoverOrphaned v keys).1 = recoverRound v keys r := by
  unfold Redis.recoverOrphaned recoverRound
  -- the induction runs over the keys from any database and any count
  generalize (0 : Nat) = n
  induction keys generalizing r n with
  | nil => rfl
  | cons k keys ih =>
      simp only [List.foldl_cons]
      by_cases hk : k = v
      · rw [if_pos hk, if_pos hk]
        exact ih r n
      · rw [if_neg hk, if_neg hk]
        exact ih _ _

/-- A round of recovery by `v` empties the list of every expired worker it is told of. -/
theorem recoverRound_drains {v w : ω} (hne : v ≠ w) (keys : List ω) :
    ∀ r : Redis ω, r.lease w = false → (w ∈ keys ∨ r.processing w = []) →
      ∀ raw, (raw ∈ r.pending ∨ raw ∈ r.processing w) →
        (recoverRound v keys r).processing w = [] ∧ raw ∈ (recoverRound v keys r).pending := by
  induction keys with
  | nil =>
      intro r hl hw raw hraw
      rcases hw with hw | hw
      · exact absurd hw (by simp)
      · rw [hw] at hraw
        exact ⟨hw, hraw.resolve_right (by simp)⟩
  | cons k keys ih =>
      intro r hl hw raw hraw
      unfold recoverRound
      rw [List.foldl_cons]
      by_cases hkv : k = v
      · -- the recovering worker skips itself, and it is not `w`
        rw [if_pos hkv]
        refine ih r hl ?_ raw hraw
        rcases hw with hw | hw
        · rcases List.mem_cons.mp hw with he | hm
          · exact absurd (hkv.symm.trans he.symm) hne
          · exact Or.inl hm
        · exact Or.inr hw
      · rw [if_neg hkv]
        refine ih _ (by rw [recoverScript_lease]; exact hl) ?_ raw (recoverScript_keeps r w k hraw)
        rcases recoverScript_processing r w k with he | ⟨_, _, he⟩
        · by_cases hkw : k = w
          · -- the lease of `w` is gone, so the script does drain its list
            subst hkw
            refine Or.inr ?_
            unfold Redis.recoverScript
            rw [if_neg (by simp [hl])]
            simp [drain_eq]
          · rcases hw with hw | hw
            · exact Or.inl ((List.mem_cons.mp hw).resolve_left (Ne.symm hkw))
            · exact Or.inr (by rw [he]; exact hw)
        · exact Or.inr he

/--
**In-flight jobs stay recoverable, as long as no job lands in an unregistered list.**

Along every run of any number of workers, with crashes, expiring leases and failing
Redis calls anywhere, in which each `BRPOPLPUSH` that finds a job runs while its
worker is still registered: every non-empty processing list is registered, and the
next step keeps that exactly if it meets the condition as well. Once the lease of a
worker is gone, a round of recovery by any other worker moves its jobs back to the
pending list.
-/
theorem inFlight_recoverable {s : World ω}
    (h : Reach (World.step codec maxAttempts) PopsRegistered World.init s) :
    Registered s.queue.redis
    ∧ (∀ l s', s.step codec maxAttempts l = some s' →
      (Registered s'.queue.redis ↔ PopsRegistered s l))
    ∧ ∀ v w keys, v ≠ w → s.queue.redis.lease w = false →
      (∀ k, k ∈ s.queue.redis.workers → k ∈ keys) →
      ∀ raw ∈ s.queue.redis.processing w,
        (s.queue.redis.recoverOrphaned v keys).1.processing w = []
        ∧ raw ∈ (s.queue.redis.recoverOrphaned v keys).1.pending := by
  have hreg : Registered s.queue.redis := by
    refine h.invariant (P := fun s => Registered s.queue.redis) ?_ ?_
    · intro w hne
      exact absurd rfl hne
    · intro s s' l hr hi hok hs
      exact (registered_worldStep (worldInv_reachable hr).task hi (worldStep hs)).mpr hok
  refine ⟨hreg, ?_, ?_⟩
  · intro l s' hs
    exact registered_worldStep (worldInv_reachable h).task hreg (worldStep hs)
  · intro v w keys hne hl hkeys raw hraw
    rw [recoverOrphaned_fst]
    have hw : w ∈ keys := hkeys w (hreg w (List.ne_nil_of_mem hraw))
    exact recoverRound_drains hne keys _ hl (Or.inl hw) raw (Or.inr hraw)

/-- What the API stores and enqueues before any of the schedules below. -/
def widgetRecord : AnalysisRecord :=
  { runId := 77, deliveryId := "delivery-77", repository := "acme/widgets", workflowName := "CI",
    headSha := "abc123", htmlUrl := "https://github.com/acme/widgets/actions/runs/77",
    installationId := some 5, createdAt := 0, updatedAt := 0 }

/-- A worker comes up while no other is registered. -/
def comesUp (w : Duo) : List (Label Duo) :=
  [.start w, .heartbeat w .answered, .scan w .answered, .maintained w]

/--
The first worker is registered when it starts to dequeue. Its lease runs out, the
second takes it out of the set, and only then its `BRPOPLPUSH` is executed.
-/
def popsAfterRemoval : List (Label Duo) :=
  List.flatten [[.create widgetRecord, .enqueue widgetRequest], comesUp .first,
    [.dequeue .first .answered, .expire .first,
      .start .second, .heartbeat .second .answered, .scan .second .answered,
      .recover .second .first .answered, .pop .first .answered]]

theorem inFlight_unregistered :
    ∃ s : World Duo, Reach (World.step jsonCodec 3) anyStep World.init s
      ∧ ¬ Registered s.queue.redis := by
  have hrun : (exec (World.step jsonCodec 3) anyStep World.init popsAfterRemoval).any (fun s =>
      decide (s.queue.redis.processing .first ≠ [])
        && decide (.first ∉ s.queue.redis.workers)) = true := by
    decide +kernel
  obtain ⟨s, hs, hbad⟩ := (Option.any_eq_true _ _).mp hrun
  rw [Bool.and_eq_true, decide_eq_true_eq, decide_eq_true_eq] at hbad
  exact ⟨s, reach_of_exec Reach.init hs, fun h => hbad.2 (h .first hbad.1)⟩

/-- The same, but the `BRPOPLPUSH` is executed first; recovery then finds the job. -/
def popsBeforeRemoval : List (Label Duo) :=
  List.flatten [[.create widgetRecord, .enqueue widgetRequest], comesUp .first,
    [.dequeue .first .answered, .pop .first .answered, .crash .first, .expire .first,
      .start .second, .heartbeat .second .answered, .scan .second .answered]]

theorem inFlight_recovered :
    ∃ s, exec (World.step jsonCodec 3) PopsRegistered World.init popsBeforeRemoval = some s
      ∧ Registered s.queue.redis
      ∧ ∀ raw ∈ s.queue.redis.processing .first,
        raw ∈ (s.queue.redis.recoverOrphaned .second [.first, .second]).1.pending := by
  have hrun : (exec (World.step jsonCodec 3) PopsRegistered World.init popsBeforeRemoval).any
      (fun s => decide (s.queue.redis.lease .first = false)) = true := by decide +kernel
  obtain ⟨s, hs, hl⟩ := (Option.any_eq_true _ _).mp hrun
  have h := inFlight_recoverable (reach_of_exec Reach.init hs)
  refine ⟨s, hs, h.1, fun raw hraw => ?_⟩
  exact (h.2.2 .second .first [.first, .second] (by decide) (by simpa using hl)
    (fun k _ => by cases k <;> decide) raw hraw).2

end PipeLens.Proof
