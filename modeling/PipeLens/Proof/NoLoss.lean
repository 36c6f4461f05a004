import PipeLens.Proof.Handler

/-!
# No job is lost

The envelope of a run lives in Redis and its status in the store, and no step
changes both. Two facts tie them together, for every run that may still be started:

* it has an envelope, or some worker *attends* to it: it runs the current attempt,
  or it is about to write the status of a failed one;
* a worker that is *bound* to acknowledge the envelope in its own list, because its
  attempt has been superseded or is over, leaves the run to another that attends.

The second is what makes an acknowledgement harmless. It survives everything but
the write of a failure handler: that one makes a run startable again whose envelope
may be gone, or may be in the list of a worker that is bound to acknowledge it.
-/

namespace PipeLens.Proof

open PipeLens RedisList Transition

variable {ω : Type} {codec : EnvelopeCodec} {maxAttempts : Int}

/-! ## Where a run stands -/

/-- The run has an envelope in the list at `loc`. -/
def Queued (codec : EnvelopeCodec) (s : World ω) (loc : Loc ω) (runId : Int) : Prop :=
  runId ∈ codec.runIds (s.queue.redis.list loc)

instance (s : World ω) (loc : Loc ω) (runId : Int) : Decidable (Queued codec s loc runId) :=
  inferInstanceAs (Decidable (runId ∈ codec.runIds (s.queue.redis.list loc)))

/-- The run has an envelope somewhere. -/
def InQueue (codec : EnvelopeCodec) (s : World ω) (runId : Int) : Prop :=
  ∃ loc, Queued codec s loc runId

/-- The worker runs the current attempt of the run, or handles the failure of one. -/
def Attends (db : Db) (runId : Int) : Phase → Prop
  | .analyzing job a => job.runId = runId ∧ Current db runId a.token
  | .handling job _ _ => job.runId = runId
  | _ => False

/-- The worker will acknowledge the run: its attempt is over, or another is current. -/
def AckBound (db : Db) (runId : Int) : Phase → Prop
  | .analyzing job a => job.runId = runId ∧ ¬ Current db runId a.token
  | .acknowledging job => job.runId = runId
  | _ => False

instance (db : Db) (runId : Int) (phase : Phase) : Decidable (AckBound db runId phase) := by
  apply Phase.casesOn (motive := fun phase => Decidable (AckBound db runId phase)) phase <;>
    intros <;> dsimp only [AckBound] <;> infer_instance

/-- A phase in which a worker neither attends to any run nor is bound to acknowledge one. -/
def bystander : Phase → Bool
  | .analyzing _ _ => false
  | .handling _ _ _ => false
  | .acknowledging _ => false
  | _ => true

theorem not_attends_of_bystander {db : Db} {runId : Int} {phase : Phase}
    (h : bystander phase = true) : ¬ Attends db runId phase := by
  cases phase <;> first | exact id | exact absurd h (by simp [bystander])

theorem not_ackBound_of_bystander {db : Db} {runId : Int} {phase : Phase}
    (h : bystander phase = true) : ¬ AckBound db runId phase := by
  cases phase <;> first | exact id | exact absurd h (by simp [bystander])

theorem job?_of_attends {db : Db} {runId : Int} {phase : Phase} (h : Attends db runId phase) :
    ∃ job, phase.job? = some job ∧ job.runId = runId := by
  cases phase with
  | analyzing job a => exact ⟨job, rfl, h.1⟩
  | handling job token message => exact ⟨job, rfl, h⟩
  | _ => exact absurd h id

theorem job?_of_ackBound {db : Db} {runId : Int} {phase : Phase} (h : AckBound db runId phase) :
    ∃ job, phase.job? = some job ∧ job.runId = runId := by
  cases phase with
  | analyzing job a => exact ⟨job, rfl, h.1⟩
  | acknowledging job => exact ⟨job, rfl, h⟩
  | _ => exact absurd h id

/-- All of this depends on the row of the run only. -/
theorem current_congr {db db' : Db} {runId : Int} {t : Token}
    (h : db'.row? runId = db.row? runId) : Current db' runId t ↔ Current db runId t := by
  unfold Current
  rw [h]

theorem startable_congr {db db' : Db} {runId : Int} (h : db'.row? runId = db.row? runId) :
    Startable db' runId ↔ Startable db runId := by
  unfold Startable
  rw [h]

theorem attends_congr {db db' : Db} {runId : Int} {phase : Phase}
    (h : db'.row? runId = db.row? runId) : Attends db' runId phase ↔ Attends db runId phase := by
  cases phase with
  | analyzing job a => exact and_congr_right fun _ => current_congr h
  | _ => exact Iff.rfl

/-- An attempt that stays current is not bound to acknowledge. -/
theorem ackBound_mono {db db' : Db} {runId : Int} {phase : Phase}
    (h : ∀ t, Current db runId t → Current db' runId t) (hb : AckBound db' runId phase) :
    AckBound db runId phase := by
  cases phase with
  | analyzing job a => exact ⟨hb.1, fun hc => hb.2 (h a.token hc)⟩
  | _ => exact hb

theorem ackBound_congr {db db' : Db} {runId : Int} {phase : Phase}
    (h : db'.row? runId = db.row? runId) : AckBound db' runId phase ↔ AckBound db runId phase := by
  cases phase with
  | analyzing job a => exact and_congr_right fun _ => not_congr (current_congr h)
  | _ => exact Iff.rfl

/-! ## The invariant -/

/-- The two facts about one run. -/
structure RunKept (codec : EnvelopeCodec) (s : World ω) (runId : Int) : Prop where
  kept : runId ∈ s.enqueued → Startable s.store runId →
    InQueue codec s runId ∨ ∃ w, Attends s.store runId (s.phase w)
  bound : ∀ w, AckBound s.store runId (s.phase w) → Queued codec s (.processing w) runId →
    Startable s.store runId → ∃ v, v ≠ w ∧ Attends s.store runId (s.phase v)

structure NoLossInv (codec : EnvelopeCodec) (s : World ω) : Prop where
  runs : ∀ runId, RunKept codec s runId
  /-- A run is stored before it is enqueued. -/
  stored : ∀ runId, runId ∈ s.enqueued ∨ InQueue codec s runId →
    ∃ row, s.store.row? runId = some row
  /-- Attempts hold tokens that were drawn for them, and one that has given up lost its run. -/
  stale : ∀ w job a, s.phase w = .analyzing job a →
    a.token ∈ s.used ∧ (GivenUp a → ¬ Current s.store job.runId a.token)

theorem noLossInv_init : NoLossInv codec (World.init : World ω) where
  runs := by
    intro runId
    refine ⟨fun h => absurd h (by simp [World.init]), fun w h => absurd h id⟩
  stored := by
    rintro runId (h | ⟨loc, h⟩)
    · exact absurd h (by simp [World.init])
    · cases loc <;> exact absurd h (by
        simp [Queued, World.init, QueueState.empty, Redis.empty, Redis.list, EnvelopeCodec.runIds])
  stale := by intro w job a h; exact absurd h (by simp [World.init])

/-- Whoever attends keeps the run, unless it is bound to acknowledge it as well. -/
theorem runKept_of_attends {s : World ω} {runId : Int} {w : ω} {phase : Phase}
    (hw : s.phase w = phase) (h : Attends s.store runId phase)
    (hn : ¬ AckBound s.store runId phase) : RunKept codec s runId where
  kept := fun _ _ => Or.inr ⟨w, by rw [hw]; exact h⟩
  bound := by
    intro v hv _ _
    refine ⟨w, ?_, by rw [hw]; exact h⟩
    rintro rfl
    rw [hw] at hv
    exact hn hv

/-- A run that cannot be started needs no envelope. -/
theorem runKept_of_not_startable {s : World ω} {runId : Int} (h : ¬ Startable s.store runId) :
    RunKept codec s runId :=
  ⟨fun _ hs => absurd hs h, fun _ _ _ hs => absurd hs h⟩

/-- Carries the two facts across a step that leaves the row of the run alone. -/
theorem RunKept.frame {s s' : World ω} {runId : Int} (h : RunKept codec s runId)
    (hrow : s'.store.row? runId = s.store.row? runId)
    (hattends : ∀ v, Attends s.store runId (s.phase v) → Attends s.store runId (s'.phase v))
    (hbound : ∀ v, AckBound s.store runId (s'.phase v) → AckBound s.store runId (s.phase v))
    (hqueue : InQueue codec s runId → InQueue codec s' runId
      ∨ ∃ w, AckBound s.store runId (s.phase w) ∧ Queued codec s (.processing w) runId)
    (hback : ∀ w, AckBound s.store runId (s'.phase w) → Queued codec s' (.processing w) runId →
      Queued codec s (.processing w) runId)
    (henqueued : runId ∈ s'.enqueued → runId ∈ s.enqueued ∨ InQueue codec s' runId) :
    RunKept codec s' runId where
  kept := by
    intro he hs
    rw [startable_congr hrow] at hs
    rcases henqueued he with he' | hq
    · rcases h.kept he' hs with hq | ⟨w, hw⟩
      · rcases hqueue hq with hq' | ⟨w, hb, hl⟩
        · exact Or.inl hq'
        · -- the envelope was acknowledged: the run is left to another worker
          obtain ⟨v, _, hv⟩ := h.bound w hb hl hs
          exact Or.inr ⟨v, (attends_congr hrow).mpr (hattends v hv)⟩
      · exact Or.inr ⟨w, (attends_congr hrow).mpr (hattends w hw)⟩
    · exact Or.inl hq
  bound := by
    intro w hb hl hs
    rw [startable_congr hrow] at hs
    rw [ackBound_congr hrow] at hb
    obtain ⟨v, hne, hv⟩ := h.bound w (hbound w hb) (hback w hb hl) hs
    exact ⟨v, hne, (attends_congr hrow).mpr (hattends v hv)⟩

/-! ## Envelopes under the steps of the workers -/

/-- The label behind each action that fills or clears an entry, or gives it to a worker. -/
def AskedBy (s : World ω) (l : Label ω) : QueueAction ω → Prop
  | .enqueue request => l = .enqueue request
  | .pop w => ∃ fate, l = .pop w fate
  | .acknowledge w job => (∃ fate, l = .acknowledge w fate) ∧ s.phase w = .acknowledging job
  | _ => True

section Envelopes

variable [DecidableEq ω] {s s' : World ω} {l : Label ω}

/-- The placements before and after a step. -/
theorem place_worldStep (hi : WorldInv codec s) (h : WorldStep codec maxAttempts s l s') :
    ∃ place place' : Placement ω,
      (∀ loc runId, Queued codec s loc runId ↔ place runId = some loc)
      ∧ (∀ loc runId, Queued codec s' loc runId ↔ place' runId = some loc)
      ∧ (place' = place ∨ ∃ a, queueAction s l = some a ∧ PlaceStep a place place') := by
  obtain ⟨place, hp⟩ := hi.queue.placed
  have hq := queue_step hi.task h
  cases ha : queueAction s l with
  | none =>
      rw [ha] at hq
      refine ⟨place, place, hp.mem, fun loc runId => ?_, Or.inl rfl⟩
      unfold Queued
      rw [show s'.queue = s.queue from hq]
      exact hp.mem loc runId
  | some a =>
      rw [ha] at hq
      obtain ⟨⟨place', hstep, hp'⟩, _⟩ := placed_step hp hi.queue.receipts hq
      exact ⟨place, place', hp.mem, hp'.mem, Or.inr ⟨a, rfl, hstep⟩⟩

omit [DecidableEq ω] in
theorem queueAction_label {a : QueueAction ω} (h : queueAction s l = some a) : AskedBy s l a := by
  cases l with
  | enqueue request => rw [← Option.some.inj h]; exact rfl
  | expire w => rw [← Option.some.inj h]; trivial
  | heartbeat w fate => rw [← eq_of_apply_eq_some h]; trivial
  | dequeue w fate => rw [← eq_of_apply_eq_some h]; trivial
  | recover w v fate => rw [← eq_of_apply_eq_some h]; trivial
  | pop w fate => rw [← eq_of_apply_eq_some h]; exact ⟨fate, rfl⟩
  | retry w fate =>
      simp only [queueAction] at h
      split at h
      · rw [← eq_of_apply_eq_some h]; trivial
      · exact absurd h (by simp)
  | acknowledge w fate =>
      simp only [queueAction] at h
      split at h
      · rename_i job hp
        rw [← eq_of_apply_eq_some h]
        exact ⟨⟨fate, rfl⟩, hp⟩
      · exact absurd h (by simp)
  | _ => exact absurd h (by simp [queueAction])

/-- **Only an acknowledgement takes an envelope away.** -/
theorem inQueue_step (hi : WorldInv codec s) (h : WorldStep codec maxAttempts s l s')
    {runId : Int} (hq : InQueue codec s runId) :
    InQueue codec s' runId
    ∨ ∃ w fate job, l = .acknowledge w fate ∧ s.phase w = .acknowledging job
      ∧ job.runId = runId ∧ Queued codec s (.processing w) runId := by
  obtain ⟨place, place', hp, hp', hstep⟩ := place_worldStep hi h
  obtain ⟨loc, hloc⟩ := hq
  have hat := (hp loc runId).mp hloc
  have hkeep : ∀ loc', place' runId = some loc' → InQueue codec s' runId :=
    fun loc' he => ⟨loc', (hp' loc' runId).mpr he⟩
  rcases hstep with rfl | ⟨a, ha, hstep⟩
  · exact Or.inl (hkeep loc hat)
  cases hstep with
  | keep => exact Or.inl (hkeep loc hat)
  | enqueue request _ hfree =>
      refine Or.inl (hkeep loc ?_)
      rw [Function.update_of_ne, hat]
      rintro rfl
      rw [hat] at hfree
      exact absurd hfree (by simp)
  | take w taken _ _ =>
      by_cases he : runId = taken
      · exact Or.inl (hkeep (.processing w) (by rw [he, Function.update_self]))
      · exact Or.inl (hkeep loc (by rw [Function.update_of_ne he, hat]))
  | release w job _ hown =>
      by_cases he : runId = job.envelope.request.runId
      · obtain ⟨⟨fate, hl⟩, hphase⟩ := queueAction_label ha
        refine Or.inr ⟨w, fate, job, hl, hphase, he.symm, ?_⟩
        rw [hp, he, hown]
      · exact Or.inl (hkeep loc (by rw [Function.update_of_ne he, hat]))
  | giveBack w job _ _ =>
      by_cases he : runId = job.envelope.request.runId
      · exact Or.inl (hkeep .pending (by rw [he, Function.update_self]))
      · exact Or.inl (hkeep loc (by rw [Function.update_of_ne he, hat]))
  | recover v w =>
      by_cases he : place runId = some (.processing w)
      · exact Or.inl (hkeep .pending (if_pos he))
      · exact Or.inl (hkeep loc ((if_neg he).trans hat))

/-- A run comes into a processing list by a `BRPOPLPUSH` of that worker. -/
theorem processing_back (hi : WorldInv codec s) (h : WorldStep codec maxAttempts s l s') {w : ω}
    {runId : Int} (hq : Queued codec s' (.processing w) runId) :
    Queued codec s (.processing w) runId ∨ ∃ fate, l = .pop w fate := by
  obtain ⟨place, place', hp, hp', hstep⟩ := place_worldStep hi h
  rw [hp'] at hq
  rw [hp]
  rcases hstep with rfl | ⟨a, ha, hstep⟩
  · exact Or.inl hq
  -- an entry that is updated to something else than this list
  have hset : ∀ {updated : Int} {entry : Option (Loc ω)}, entry ≠ some (.processing w) →
      Function.update place updated entry runId = some (.processing w) →
      place runId = some (.processing w) := by
    intro updated entry hne hu
    by_cases he : runId = updated
    · rw [he, Function.update_self] at hu
      exact absurd hu hne
    · rwa [Function.update_of_ne he] at hu
  cases hstep with
  | keep => exact Or.inl hq
  | enqueue request _ _ => exact Or.inl (hset (by simp) hq)
  | take w' taken _ _ =>
      by_cases hw : w' = w
      · subst hw
        exact Or.inr (queueAction_label ha)
      · exact Or.inl (hset (by simpa using hw) hq)
  | release w' job _ _ => exact Or.inl (hset (by simp) hq)
  | giveBack w' job _ _ => exact Or.inl (hset (by simp) hq)
  | recover v w' =>
      refine Or.inl ?_
      dsimp only at hq
      split at hq
      · exact absurd hq (by simp)
      · exact hq

/-- Nothing is queued that was not enqueued. -/
theorem inQueue_back (hi : WorldInv codec s) (h : WorldStep codec maxAttempts s l s')
    {runId : Int} (hq : InQueue codec s' runId) :
    InQueue codec s runId ∨ ∃ request, l = .enqueue request ∧ request.runId = runId := by
  obtain ⟨place, place', hp, hp', hstep⟩ := place_worldStep hi h
  obtain ⟨loc, hloc⟩ := hq
  rw [hp'] at hloc
  have hback : ∀ loc', place runId = some loc' → InQueue codec s runId :=
    fun loc' he => ⟨loc', (hp loc' runId).mpr he⟩
  -- an entry that is updated where there was one
  have hset : ∀ {updated : Int} {loc' : Loc ω} {entry : Option (Loc ω)},
      place updated = some loc' → Function.update place updated entry runId = some loc →
      InQueue codec s runId := by
    intro updated loc' entry hold hu
    by_cases he : runId = updated
    · exact hback loc' (by rw [he, hold])
    · exact hback loc (by rwa [Function.update_of_ne he] at hu)
  rcases hstep with rfl | ⟨a, ha, hstep⟩
  · exact Or.inl (hback loc hloc)
  cases hstep with
  | keep => exact Or.inl (hback loc hloc)
  | enqueue request _ _ =>
      by_cases he : runId = request.runId
      · exact Or.inr ⟨request, queueAction_label ha, he.symm⟩
      · exact Or.inl (hback loc (by rwa [Function.update_of_ne he] at hloc))
  | take w taken _ hold => exact Or.inl (hset hold hloc)
  | release w job _ hold => exact Or.inl (hset hold hloc)
  | giveBack w job _ hold => exact Or.inl (hset hold hloc)
  | recover v w =>
      by_cases he : place runId = some (.processing w)
      · exact Or.inl (hback (.processing w) he)
      · exact Or.inl (hback loc ((if_neg he).symm.trans hloc))

/-- A run that `enqueue` accepts is pending. -/
theorem enqueued_step (h : WorldStep codec maxAttempts s l s') {runId : Int}
    (he : runId ∈ s'.enqueued) : runId ∈ s.enqueued ∨ InQueue codec s' runId := by
  cases h with
  | enqueue request row hrow =>
      dsimp only at he
      split at he
      · rename_i hacc
        rcases List.mem_cons.mp he with rfl | he'
        · refine Or.inr ⟨.pending, ?_⟩
          unfold Queued Redis.enqueue Redis.enqueueScript at *
          split at hacc
          · exact absurd hacc (by simp)
          · rename_i hd
            simp [hd, Redis.list, lpush]
        · exact Or.inl he'
      · exact Or.inl he
  | create | expire | start | crash | heartbeat | scan | recover | maintained | dequeue | pop
  | sizeIdle | size | begin | advance | handle | retry | acknowledge => exact Or.inl he

end Envelopes

/-! ## The discipline -/

/-- No worker dies: none crashes, and the write of a failure handler goes through. -/
def NoCrash : Label ω → Prop
  | .crash _ => False
  | .handle _ fate _ => fate = .answered
  | _ => True

instance (l : Label ω) : Decidable (NoCrash l) := by
  apply Label.casesOn (motive := fun l => Decidable (NoCrash l)) l <;> intros <;>
    dsimp only [NoCrash] <;> infer_instance

/-- The run has an envelope that no worker is bound to acknowledge. -/
def SafelyQueued (codec : EnvelopeCodec) (s : World ω) (runId : Int) : Prop :=
  Queued codec s .pending runId
  ∨ ∃ w, Queued codec s (.processing w) runId ∧ ¬ AckBound s.store runId (s.phase w)

/-- A failure handler makes its run startable again only if the run is safely queued. -/
def RetrySafe (codec : EnvelopeCodec) (maxAttempts : Int) (s : World ω) : Phase → Prop
  | .handling job _ _ => job.mayRetry maxAttempts = true → SafelyQueued codec s job.runId
  | _ => True

/-- No failure handler writes `QUEUED` for a run that is not safely queued. -/
def StillQueued (codec : EnvelopeCodec) (maxAttempts : Int) (s : World ω) : Label ω → Prop
  | .handle w _ _ => RetrySafe codec maxAttempts s (s.phase w)
  | _ => True

section Decidable

variable [Fintype ω]

instance (s : World ω) (runId : Int) : Decidable (SafelyQueued codec s runId) :=
  inferInstanceAs (Decidable (Queued codec s .pending runId
    ∨ ∃ w, Queued codec s (.processing w) runId ∧ ¬ AckBound s.store runId (s.phase w)))

instance (s : World ω) (phase : Phase) : Decidable (RetrySafe codec maxAttempts s phase) := by
  apply Phase.casesOn (motive := fun phase => Decidable (RetrySafe codec maxAttempts s phase))
    phase <;> intros <;> dsimp only [RetrySafe] <;> infer_instance

instance (s : World ω) (l : Label ω) : Decidable (StillQueued codec maxAttempts s l) := by
  apply Label.casesOn (motive := fun l => Decidable (StillQueued codec maxAttempts s l)) l <;>
    intros <;> dsimp only [StillQueued] <;> infer_instance

end Decidable

/-! ## One step -/

section Step

variable [DecidableEq ω] {s s' : World ω} {l : Label ω} {runId : Int}

/-- The labels that touch the store. -/
def storeLabel : Label ω → Bool
  | .begin _ _ _ _ => true
  | .advance _ _ => true
  | .handle _ _ _ => true
  | _ => false

/-- A worker that does not touch the store does not come to attend or to be bound. -/
theorem phase_quiet (hs : WorldStep codec maxAttempts s l s') (hok : NoCrash l)
    (hl : storeLabel l = false) (w : ω) :
    s'.phase w = s.phase w
    ∨ (bystander (s'.phase w) = true ∧ ∀ db runId, ¬ Attends db runId (s.phase w)) := by
  -- a worker whose phase is set to one that no run depends on
  have hset : ∀ {w' : ω} {phase : Phase}, bystander phase = true →
      (∀ db runId, ¬ Attends db runId (s.phase w')) →
      Function.update s.phase w' phase w = s.phase w
      ∨ (bystander (Function.update s.phase w' phase w) = true
        ∧ ∀ db runId, ¬ Attends db runId (s.phase w)) := by
    intro w' phase hb hn
    by_cases he : w = w'
    · subst he
      rw [Function.update_self]
      exact Or.inr ⟨hb, hn⟩
    · exact Or.inl (Function.update_of_ne he ..)
  have hfrom : ∀ {w' : ω} {phase : Phase}, s.phase w' = phase → bystander phase = true →
      ∀ db runId, ¬ Attends db runId (s.phase w') := by
    intro w' phase hp hb db runId
    rw [hp]
    exact not_attends_of_bystander hb
  cases hs with
  | create | enqueue | expire | heartbeat | scan | recover => exact Or.inl rfl
  | start w' h => exact hset rfl (hfrom h rfl)
  | crash w' h => exact absurd hok id
  | maintained w' h hm =>
      by_cases he : w = w'
      · subst he
        simp only [World.setPhase, World.setMaintenance, Function.update_self]
        cases s.phase w with
        | startup => exact Or.inr ⟨rfl, fun db runId => id⟩
        | _ => exact Or.inl rfl
      · exact Or.inl (Function.update_of_ne he ..)
  | dequeue w' fate h => exact hset (by cases fate <;> rfl) (hfrom h rfl)
  | pop w' fate h =>
      refine hset ?_ (hfrom h rfl)
      cases fate with
      | answered => cases (s.queue.pop codec w').2 <;> rfl
      | lost => rfl
      | refused => rfl
  | sizeIdle w' fate h =>
      rcases h with h | h
      · exact hset rfl (hfrom h rfl)
      · exact hset rfl (hfrom h rfl)
  | size w' fate job h => exact hset (by cases fate <;> rfl) (hfrom h rfl)
  | begin | advance | handle => exact absurd hl (by simp [storeLabel])
  | retry w' fate job h => exact hset (by cases fate <;> rfl) (hfrom h rfl)
  | acknowledge w' fate job h =>
      exact hset (by cases fate <;> rfl) fun db runId => by rw [h]; exact id

theorem store_quiet (hs : WorldStep codec maxAttempts s l s') (hl : storeLabel l = false)
    {row : AnalysisRow} (hr : s.store.row? runId = some row) :
    s'.store.row? runId = s.store.row? runId := by
  rw [hr]
  cases rowStep hs hr with
  | keep h => exact h
  | begin _ _ _ _ _ he => rw [he] at hl; exact absurd hl (by simp [storeLabel])
  | advance _ _ _ _ _ he => rw [he] at hl; exact absurd hl (by simp [storeLabel])
  | handle _ _ _ _ _ _ he => rw [he] at hl; exact absurd hl (by simp [storeLabel])

/-- Steps that do not touch the store. -/
theorem runKept_quiet (hi : WorldInv codec s) (h : RunKept codec s runId)
    (hs : WorldStep codec maxAttempts s l s') (hok : NoCrash l) (hl : storeLabel l = false)
    {row : AnalysisRow} (hr : s.store.row? runId = some row) : RunKept codec s' runId := by
  have hphase := phase_quiet hs hok hl
  refine h.frame (store_quiet hs hl hr) ?_ ?_ ?_ ?_ (fun he => enqueued_step hs he)
  · intro v hv
    rcases hphase v with he | ⟨_, hn⟩
    · rwa [he]
    · exact absurd hv (hn s.store runId)
  · intro v hv
    rcases hphase v with he | ⟨hb, _⟩
    · rwa [← he]
    · exact absurd hv (not_ackBound_of_bystander hb)
  · intro hq
    rcases inQueue_step hi hs hq with hq' | ⟨w, fate, job, _, hp, hid, hown⟩
    · exact Or.inl hq'
    · exact Or.inr ⟨w, by rw [hp]; exact hid, hown⟩
  · intro w hb hq
    rcases processing_back hi hs hq with hq' | ⟨fate, rfl⟩
    · exact hq'
    · -- a worker that has just popped is not bound to acknowledge anything
      cases hs with
      | pop _ _ hp =>
          rcases hphase w with he | ⟨hby, _⟩
          · rw [he, hp] at hb
            exact absurd hb id
          · exact absurd hb (not_ackBound_of_bystander hby)

/-- A step of a worker inside a job does not concern the other runs. -/
theorem runKept_other (h : RunKept codec s runId) {w : ω} {job : QueueJob}
    (hne : job.runId ≠ runId) (hj : (s.phase w).job? = some job)
    (hj' : ∀ job', (s'.phase w).job? = some job' → job' = job)
    (hphase : ∀ v, v ≠ w → s'.phase v = s.phase v) (hqueue : s'.queue = s.queue)
    (henqueued : s'.enqueued = s.enqueued)
    (hrow : s'.store.row? runId = s.store.row? runId) : RunKept codec s' runId := by
  have hq : ∀ loc, Queued codec s' loc runId ↔ Queued codec s loc runId := by
    intro loc
    unfold Queued
    rw [hqueue]
  refine h.frame hrow ?_ ?_ ?_ (fun v _ hl => (hq _).mp hl) (fun he => Or.inl (henqueued ▸ he))
  · intro v hv
    by_cases he : v = w
    · subst he
      obtain ⟨job', hj'', hid⟩ := job?_of_attends hv
      rw [hj] at hj''
      rw [← Option.some.inj hj''] at hid
      exact absurd hid hne
    · rwa [hphase v he]
  · intro v hv
    by_cases he : v = w
    · subst he
      obtain ⟨job', hp, hid⟩ := job?_of_ackBound hv
      rw [hj' job' hp] at hid
      exact absurd hid hne
    · rwa [← hphase v he]
  · rintro ⟨loc, hl⟩
    exact Or.inl ⟨loc, (hq loc).mpr hl⟩

theorem runKept_begin (h : RunKept codec s runId) {w : ω} {token : Token} {fate : StoreFate}
    {now : Instant} {job : QueueJob} (hp : s.phase w = .entering job) :
    RunKept codec
      { s with
        store := (beginAttempt s.store job.runId token fate now).2
        used := token :: s.used
        phase := Function.update s.phase w
          (World.afterAnalyze job token (beginAttempt s.store job.runId token fate now).1) }
      runId := by
  have heff := beginEffect s.store job.runId token fate now
  generalize beginAttempt s.store job.runId token fate now = res at heff ⊢
  obtain ⟨p, store⟩ := res
  by_cases hid : job.runId = runId
  · subst hid
    cases heff with
    | begun a row' htoken _ hw _ hcur _ =>
        have hc : Current store job.runId a.token := ⟨row', hw.self, by rw [htoken]; exact hcur⟩
        exact runKept_of_attends (Function.update_self ..) ⟨rfl, hc⟩ fun hb => hb.2 hc
    | refused hn => exact runKept_of_not_startable hn
    -- `analyze` raises: whatever the row says, the worker is in its handler now
    | broke message _ => exact runKept_of_attends (Function.update_self ..) rfl id
    | brokeBegun message _ row' _ _ _ _ =>
        exact runKept_of_attends (Function.update_self ..) rfl id
  · refine runKept_other h (w := w) hid (by rw [hp]; rfl) ?_
      (fun v hne => Function.update_of_ne hne ..) rfl rfl ?_
    · intro job' hj
      simp only [Function.update_self, afterAnalyze_job?] at hj
      exact (Option.some.inj hj).symm
    · cases heff with
      | begun a row' _ _ hw _ _ _ => exact hw.other runId (Ne.symm hid)
      | refused _ => rfl
      | broke message _ => rfl
      | brokeBegun message _ row' hw _ _ _ => exact hw.other runId (Ne.symm hid)

theorem runKept_advance (h : NoLossInv codec s) {w : ω} {event : AnalyzeEvent} {job : QueueJob}
    {a : Attempt} {p : Progress} {store : Db} (hp : s.phase w = .analyzing job a)
    (heff : AttemptEffect s.store job.runId a event p store) :
    RunKept codec
      { s with
        store := store
        phase := Function.update s.phase w (World.afterAnalyze job a.token p) } runId := by
  by_cases hid : job.runId = runId
  · subst hid
    -- an attempt that finishes leaves a status that no begin accepts
    have hover : ∀ {status}, (status ≠ .queued ∧ status ≠ .running) →
        WroteAs s.store store job.runId a.token status none → ¬ Startable store job.runId := by
      rintro status hdone ⟨_, row', _, _, hw, hstatus, _⟩
      rw [startable_iff hw.self, hstatus]
      exact fun hor => hor.elim hdone.1 hdone.2
    cases heff with
    | quiet a' htoken same _ =>
        -- the attempt is current, or superseded, exactly as before
        refine (h.runs job.runId).frame (same job.runId) ?_ ?_ Or.inl (fun _ _ hl => hl) Or.inl
        · intro v hv
          by_cases he : v = w
          · subst he
            rw [hp] at hv
            simp only [Function.update_self]
            exact ⟨rfl, by rw [htoken]; exact hv.2⟩
          · simpa only [Function.update_of_ne he] using hv
        · intro v hv
          by_cases he : v = w
          · subst he
            simp only [Function.update_self] at hv
            rw [hp]
            exact ⟨rfl, by rw [← htoken]; exact hv.2⟩
          · simpa only [Function.update_of_ne he] using hv
    | wrote a' htoken hw _ =>
        have hc : Current store job.runId a'.token := by
          obtain ⟨_, row', _, _, hwrote, _, htok⟩ := hw
          exact ⟨row', hwrote.self, by rw [htoken]; exact htok⟩
        exact runKept_of_attends (Function.update_self ..) ⟨rfl, hc⟩ fun hb => hb.2 hc
    | superseded hsup same =>
        -- it is bound to acknowledge from here on, but it was before as well
        have hn : ¬ Current s.store job.runId a.token := by
          rcases hsup with hn | hgiven
          · exact hn
          · exact (h.stale w job a hp).2 hgiven
        refine (h.runs job.runId).frame (same job.runId) ?_ ?_ Or.inl (fun _ _ hl => hl) Or.inl
        · intro v hv
          by_cases he : v = w
          · subst he
            rw [hp] at hv
            exact absurd hv.2 hn
          · simpa only [Function.update_of_ne he] using hv
        · intro v hv
          by_cases he : v = w
          · subst he
            rw [hp]
            exact ⟨rfl, hn⟩
          · simpa only [Function.update_of_ne he] using hv
    | completed hw => exact runKept_of_not_startable (hover (by simp) hw)
    | failed message hw => exact runKept_of_not_startable (hover (by simp) hw)
    | broke message _ same => exact runKept_of_attends (Function.update_self ..) rfl id
    | brokeFinished message status _ hw hdone => exact runKept_of_not_startable (hover hdone hw)
  · refine runKept_other (h.runs runId) (w := w) hid (by rw [hp]; rfl) ?_
      (fun v hne => Function.update_of_ne hne ..) rfl rfl ?_
    · intro job' hj
      simp only [Function.update_self, afterAnalyze_job?] at hj
      exact (Option.some.inj hj).symm
    · rcases heff.row runId with he | ⟨rfl, _⟩
      · exact he
      · exact absurd rfl hid

omit [DecidableEq ω] in
/-- A run has one place, so a safely queued one is in no list that will be acknowledged. -/
theorem not_ackBound_of_safelyQueued (hi : WorldInv codec s) (h : SafelyQueued codec s runId)
    {w : ω} (hq : Queued codec s (.processing w) runId) : ¬ AckBound s.store runId (s.phase w) := by
  obtain ⟨place, hp⟩ := hi.queue.placed
  have hw := (hp.mem (.processing w) runId).mp hq
  rcases h with hpend | ⟨v, hv, hn⟩
  · rw [(hp.mem .pending runId).mp hpend] at hw
    exact absurd hw (by simp)
  · rw [(hp.mem (.processing v) runId).mp hv] at hw
    cases hw
    exact hn

omit [DecidableEq ω] in
theorem SafelyQueued.inQueue (h : SafelyQueued codec s runId) : InQueue codec s runId := by
  rcases h with h | ⟨w, h, _⟩
  · exact ⟨.pending, h⟩
  · exact ⟨.processing w, h⟩

/-- A handler that retries its job is not bound to acknowledge it. -/
theorem bystander_afterHandler {job : QueueJob} {r : CallResult Unit}
    (h : job.mayRetry maxAttempts = true) :
    bystander (World.afterHandler job maxAttempts r) = true := by
  unfold World.afterHandler
  split
  · rw [if_pos h]; rfl
  · rfl
  · rfl

/-- The write of a handler keeps the token of the row. -/
theorem handler_keeps_current {db db' : Db} {status : AnalysisStatus} {values : UpdateValues}
    {fate : StoreFate} {now : Instant} {r : CallResult Unit} {t : Token}
    (hcall : storeCall db fate (db.update runId status values none now) = (r, db'))
    (h : Current db runId t) : Current db' runId t := by
  obtain ⟨row, hr, ht⟩ := h
  rcases (handler_call hcall).2.2 row hr with ⟨hk, _⟩ | hw
  · exact ⟨row, hk, ht⟩
  · exact ⟨_, hw, ht⟩

theorem runKept_handle (hi : WorldInv codec s) (h : NoLossInv codec s) {w : ω}
    {now : Instant} {job : QueueJob} {token : Token} {message : String} {r : CallResult Unit}
    {store : Db} (hp : s.phase w = .handling job token message)
    (hcall : storeCall s.store .answered (s.store.update job.runId
      (World.handlerStatus job maxAttempts) { error := some message } none now) = (r, store))
    (hok : StillQueued codec maxAttempts s (.handle w .answered now)) :
    RunKept codec
      { s with
        store := store
        phase := Function.update s.phase w (World.afterHandler job maxAttempts r) } runId := by
  by_cases hid : job.runId = runId
  · subst hid
    by_cases hretry : job.mayRetry maxAttempts = true
    · have hsafe : SafelyQueued codec s job.runId := by
        have hphase : RetrySafe codec maxAttempts s (s.phase w) := hok
        rw [hp] at hphase
        exact hphase hretry
      -- the write changes no token, so no list with the envelope becomes bound by it
      refine ⟨fun _ _ => Or.inl hsafe.inQueue, fun v hb hq _ => ?_⟩
      by_cases he : v = w
      · subst he
        simp only [Function.update_self] at hb
        exact absurd hb (not_ackBound_of_bystander (bystander_afterHandler hretry))
      · simp only [Function.update_of_ne he] at hb
        exact absurd (ackBound_mono (fun t hc => handler_keeps_current hcall hc) hb)
          (not_ackBound_of_safelyQueued hi hsafe hq)
    · refine runKept_of_not_startable ?_
      have hfailed : World.handlerStatus job maxAttempts = .failed := if_neg hretry
      cases hr : s.store.row? job.runId with
      | none => exact not_startable_of_none ((handler_call hcall).2.1 hr)
      | some row =>
          rcases (handler_call hcall).2.2 row hr with ⟨_, hne⟩ | hw
          · exact absurd (congrArg Prod.fst hcall).symm hne
          · rw [hfailed] at hw
            rw [startable_iff hw]
            simp [updateValues]
  · refine runKept_other (h.runs runId) (w := w) hid (by rw [hp]; rfl) ?_
      (fun v hne => Function.update_of_ne hne ..) rfl rfl
      ((handler_call hcall).1 runId (Ne.symm hid))
    intro job' hj
    simp only [Function.update_self] at hj
    exact afterHandler_job? hj

/-- Only stored runs are enqueued. -/
theorem stored_back (hi : WorldInv codec s) (h : NoLossInv codec s)
    (hs : WorldStep codec maxAttempts s l s')
    (hin : runId ∈ s'.enqueued ∨ InQueue codec s' runId) :
    ∃ row, s.store.row? runId = some row := by
  have hqueue : InQueue codec s' runId → ∃ row, s.store.row? runId = some row := by
    intro hq
    rcases inQueue_back hi hs hq with hold | ⟨request, rfl, rfl⟩
    · exact h.stored runId (Or.inr hold)
    · cases hs with
      | enqueue _ row hrow => exact ⟨row, hrow⟩
  rcases hin with he | hq
  · rcases enqueued_step hs he with hold | hq
    · exact h.stored runId (Or.inl hold)
    · exact hqueue hq
  · exact hqueue hq

theorem runKept_step (hi : WorldInv codec s) (h : NoLossInv codec s) (hok : NoCrash l)
    (hsafe : StillQueued codec maxAttempts s l) (hs : WorldStep codec maxAttempts s l s') :
    RunKept codec s' runId := by
  cases hr : s.store.row? runId with
  | none =>
      -- what is not stored was never enqueued, so there is nothing to keep
      have hnot : ¬ (runId ∈ s'.enqueued ∨ InQueue codec s' runId) := by
        intro hin
        obtain ⟨row, hrow⟩ := stored_back hi h hs hin
        rw [hr] at hrow
        exact absurd hrow (by simp)
      exact ⟨fun he _ => absurd (Or.inl he) hnot, fun w _ hl _ => absurd (Or.inr ⟨_, hl⟩) hnot⟩
  | some row =>
      by_cases hl : storeLabel l = false
      · exact runKept_quiet hi (h.runs runId) hs hok hl hr
      cases hs with
      | begin w token fate now job hp _ => exact runKept_begin (h.runs runId) hp
      | advance w event job a p store hp hstep => exact runKept_advance h hp (attemptEffect hstep)
      | handle w fate now job token message r store hp hcall =>
          have hfate : fate = .answered := hok
          subst hfate
          exact runKept_handle hi h hp hcall hsafe
      | _ => exact absurd rfl hl

theorem used_step (hs : WorldStep codec maxAttempts s l s') {t : Token} (h : t ∈ s.used) :
    t ∈ s'.used := by
  cases hs with
  | begin => exact List.mem_cons_of_mem _ h
  | _ => exact h

/-- A token that has been drawn does not become current again. -/
theorem not_current_step (hs : WorldStep codec maxAttempts s l s') {t : Token} (hu : t ∈ s.used)
    (hn : ¬ Current s.store runId t) : ¬ Current s'.store runId t := by
  intro hc
  rcases current_step hs hc with hold | ⟨w, fate, now, rfl⟩
  · exact hn hold
  · cases hs with
    | begin _ _ _ _ job hp fresh => exact fresh hu

theorem stale_step (h : NoLossInv codec s) (hok : NoCrash l)
    (hs : WorldStep codec maxAttempts s l s') (w : ω) (job : QueueJob) (a : Attempt)
    (hp' : s'.phase w = .analyzing job a) :
    a.token ∈ s'.used ∧ (GivenUp a → ¬ Current s'.store job.runId a.token) := by
  have hold : s.phase w = .analyzing job a →
      a.token ∈ s'.used ∧ (GivenUp a → ¬ Current s'.store job.runId a.token) := by
    intro hp
    obtain ⟨hused, hgiven⟩ := h.stale w job a hp
    exact ⟨used_step hs hused, fun hg => not_current_step hs hused (hgiven hg)⟩
  by_cases hl : storeLabel l = false
  · rcases phase_quiet hs hok hl w with he | ⟨hb, _⟩
    · exact hold (by rw [← he]; exact hp')
    · rw [hp'] at hb
      exact absurd hb (by simp [bystander])
  by_cases ha : actor l = some w
  · cases hs with
    | begin v token fate now job' hp fresh =>
        cases ha
        have heff := beginEffect s.store job'.runId token fate now
        simp only [Function.update_self] at hp'
        generalize beginAttempt s.store job'.runId token fate now = res at heff hp' hold ⊢
        obtain ⟨p, store⟩ := res
        cases heff with
        | begun a' row' htoken hpc _ _ _ _ =>
            cases hp'
            refine ⟨by simp [htoken], fun ⟨stage, message, hg⟩ => ?_⟩
            rw [hpc] at hg
            exact absurd hg (by simp)
        | refused _ => exact absurd hp' (by simp [World.afterAnalyze])
        | broke message _ => exact absurd hp' (by simp [World.afterAnalyze])
        | brokeBegun message _ row' _ _ _ _ => exact absurd hp' (by simp [World.afterAnalyze])
    | advance v event job' a' p store hp hstep =>
        cases ha
        simp only [Function.update_self] at hp'
        cases attemptEffect hstep with
        | quiet a'' htoken same hgiven =>
            cases hp'
            refine ⟨by rw [htoken]; exact (h.stale w _ a' hp).1, fun hg => ?_⟩
            rw [htoken, current_congr (same _)]
            exact hgiven hg
        | wrote a'' htoken _ hgiven =>
            cases hp'
            exact ⟨by rw [htoken]; exact (h.stale w _ a' hp).1, fun hg => absurd hg hgiven⟩
        | superseded _ _ => exact absurd hp' (by simp [World.afterAnalyze])
        | completed _ => exact absurd hp' (by simp [World.afterAnalyze])
        | failed _ _ => exact absurd hp' (by simp [World.afterAnalyze])
        | broke _ _ _ => exact absurd hp' (by simp [World.afterAnalyze])
        | brokeFinished _ _ _ _ _ => exact absurd hp' (by simp [World.afterAnalyze])
    | handle v fate now job' token message r store hp hcall =>
        cases ha
        simp only [Function.update_self] at hp'
        unfold World.afterHandler at hp'
        split at hp'
        · split at hp' <;> exact absurd hp' (by simp)
        · exact absurd hp' (by simp)
        · exact absurd hp' (by simp)
    | _ => exact absurd rfl hl
  · exact hold (by rw [← phase_of_not_actor hs ha]; exact hp')

theorem noLossInv_step (hi : WorldInv codec s) (h : NoLossInv codec s) (hok : NoCrash l)
    (hsafe : StillQueued codec maxAttempts s l) (hs : WorldStep codec maxAttempts s l s') :
    NoLossInv codec s' where
  runs := fun _ => runKept_step hi h hok hsafe hs
  stored := by
    intro runId hin
    obtain ⟨row, hr⟩ := stored_back hi h hs hin
    exact row_stays hs hr
  stale := stale_step h hok hs

end Step

/-! ## Every run -/

/-- Every run that was enqueued and is not finished has an envelope. -/
def NoJobLost (codec : EnvelopeCodec) (s : World ω) : Prop :=
  ∀ runId ∈ s.enqueued, Startable s.store runId → InQueue codec s runId

/--
**No job is lost, as long as no failure handler reopens a run that is not safely queued.**

Along every run of any number of workers that do not crash, with leases expiring,
Redis calls failing and stages raising anywhere, in which a failure handler writes
`QUEUED` only while the run has an envelope that no worker is bound to acknowledge:
whenever no worker is inside `process_next`, every enqueued run that is `QUEUED` or
`RUNNING` has an envelope.
-/
theorem no_job_lost [DecidableEq ω] {s : World ω}
    (h : Reach (World.step codec maxAttempts)
      (fun s l => NoCrash l ∧ StillQueued codec maxAttempts s l) World.init s)
    (hrest : ∀ w, (s.phase w).inside = false) : NoJobLost codec s := by
  have hinv : NoLossInv codec s := h.invariant noLossInv_init fun hr hi hok hs =>
    noLossInv_step (worldInv_reachable hr) hi hok.1 hok.2 (worldStep hs)
  intro runId he hstart
  rcases (hinv.runs runId).kept he hstart with hq | ⟨w, hw⟩
  · exact hq
  · -- whoever attends to a run is inside `process_next`
    have hin := hrest w
    cases hp : s.phase w <;> rw [hp] at hw hin <;>
      first | exact absurd hw id | exact absurd hin (by simp [Phase.inside])

/-- The store call of an attempt goes through. -/
def EventAnswered : AnalyzeEvent → Prop
  | .store fate _ _ => fate = .answered
  | _ => True

/-- Nothing fails but the stages themselves. -/
def Faultless : Label ω → Prop
  | .crash _ => False
  | .heartbeat _ fate => fate = .answered
  | .scan _ fate => fate = .answered
  | .recover _ _ fate => fate = .answered
  | .dequeue _ fate => fate = .answered
  | .pop _ fate => fate = .answered
  | .size _ fate => fate = .answered
  | .begin _ _ fate _ => fate = .answered
  | .advance _ event => EventAnswered event
  | .handle _ fate _ => fate = .answered
  | .retry _ fate => fate = .answered
  | .acknowledge _ fate => fate = .answered
  | _ => True

instance (event : AnalyzeEvent) : Decidable (EventAnswered event) := by
  apply AnalyzeEvent.casesOn (motive := fun event => Decidable (EventAnswered event)) event <;>
    intros <;> dsimp only [EventAnswered] <;> infer_instance

instance (l : Label ω) : Decidable (Faultless l) := by
  apply Label.casesOn (motive := fun l => Decidable (Faultless l)) l <;> intros <;>
    dsimp only [Faultless] <;> infer_instance

/--
The second worker recovers the job of the first, which is still at it and fails. So
the begin of the second is refused and it acknowledges the envelope; then the first
writes `QUEUED`, and its retry finds no receipt.
-/
def reopensAcknowledged : List (Label Duo) :=
  List.flatten [[.create widgetRecord, .enqueue widgetRequest], comesUp .first,
    [.dequeue .first .answered, .pop .first .answered, .size .first .answered,
      .begin .first 1 .answered 10, .expire .first,
      .start .second, .heartbeat .second .answered, .scan .second .answered,
      .recover .second .first .answered, .maintained .second],
    firstStageFails .first,
    [.dequeue .second .answered, .pop .second .answered, .size .second .answered,
      .begin .second 2 .answered 24, .acknowledge .second .answered, .size .second .answered,
      .handle .first .answered 25, .retry .first .answered, .size .first .answered]]

theorem job_lost_by_late_handler :
    ∃ s : World Duo, Reach (World.step jsonCodec 3) (fun _ l => Faultless l) World.init s
      ∧ (∀ w, (s.phase w).inside = false) ∧ ¬ NoJobLost jsonCodec s := by
  have hrun : (exec (World.step jsonCodec 3) (fun _ l => Faultless l) World.init
      reopensAcknowledged).any (fun s =>
        decide (∀ w, (s.phase w).inside = false) && decide (77 ∈ s.enqueued)
        && (s.store.row? 77).any (fun row => decide (row.status = .queued))
        && decide (s.queue.redis.pending = [])
        && decide (∀ w, s.queue.redis.processing w = [])) = true := by decide +kernel
  obtain ⟨s, hs, hbad⟩ := (Option.any_eq_true _ _).mp hrun
  simp only [Bool.and_eq_true, Option.any_eq_true, decide_eq_true_eq] at hbad
  obtain ⟨⟨⟨⟨hrest, he⟩, row, hr, hstatus⟩, hpend⟩, hproc⟩ := hbad
  refine ⟨s, reach_of_exec Reach.init hs, hrest, fun h => ?_⟩
  obtain ⟨loc, hq⟩ := h 77 he ⟨row, hr, Or.inl hstatus⟩
  cases loc with
  | pending => exact absurd hq (by simp [Queued, Redis.list, hpend])
  | processing w => exact absurd hq (by simp [Queued, Redis.list, hproc w])

/-- A worker fails alone: its envelope is in its own list when the handler writes. -/
def retriesOwnJob : List (Label Duo) :=
  List.flatten [[.create widgetRecord, .enqueue widgetRequest], comesUp .first,
    [.dequeue .first .answered, .pop .first .answered, .size .first .answered,
      .begin .first 1 .answered 10],
    firstStageFails .first,
    [.handle .first .answered 25, .retry .first .answered, .size .first .answered]]

theorem no_job_lost_retry :
    ∃ s, exec (World.step jsonCodec 3)
        (fun s l => NoCrash l ∧ StillQueued jsonCodec 3 s l) World.init retriesOwnJob = some s
      ∧ 77 ∈ s.enqueued ∧ Startable s.store 77 ∧ NoJobLost jsonCodec s := by
  have hrun : (exec (World.step jsonCodec 3)
      (fun s l => NoCrash l ∧ StillQueued jsonCodec 3 s l) World.init retriesOwnJob).any (fun s =>
        decide (∀ w, (s.phase w).inside = false) && decide (77 ∈ s.enqueued)
        && (s.store.row? 77).any (fun row => decide (row.status = .queued))) = true := by
    decide +kernel
  obtain ⟨s, hs, hend⟩ := (Option.any_eq_true _ _).mp hrun
  simp only [Bool.and_eq_true, Option.any_eq_true, decide_eq_true_eq] at hend
  obtain ⟨⟨hrest, he⟩, row, hr, hstatus⟩ := hend
  exact ⟨s, hs, he, ⟨row, hr, Or.inl hstatus⟩, no_job_lost (reach_of_exec Reach.init hs) hrest⟩

end PipeLens.Proof
