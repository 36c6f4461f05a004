import PipeLens.EnvelopeJson

/-!
# Every queued run has exactly one place

Seen from outside, the queue is a partial map from run ids to places: a run is
pending, or in the processing list of one worker, or not queued at all. `Placed`
says that the five Redis keys represent such a map. Each script then becomes a
small change of the map: `enqueue` fills a free entry, `BRPOPLPUSH` and `recover`
move entries, `acknowledge` clears one, `retry` sends one back.

The map is a function, so "no run has two envelopes" needs no argument of its
own. What has to be shown is that the scripts keep representing a map, also when
a stale worker comes back with a receipt from long ago: its script matches on the
encoded envelope, hence on the run id, hence on the one entry of that run.
-/

namespace PipeLens.Proof

open PipeLens RedisList Transition

variable {ω : Type} {codec : EnvelopeCodec}

/-! ## Run ids of encoded envelopes -/

@[simp] theorem runIdOf_dump (e : QueueEnvelope) :
    codec.runIdOf (codec.modelDumpJson e) = some e.request.runId := by
  unfold EnvelopeCodec.runIdOf
  rw [codec.validate_dump]
  rfl

@[simp] theorem runIds_nil : codec.runIds [] = [] := rfl

@[simp] theorem runIds_cons_dump (e : QueueEnvelope) (raws : List String) :
    codec.runIds (codec.modelDumpJson e :: raws) = e.request.runId :: codec.runIds raws := by
  unfold EnvelopeCodec.runIds
  rw [List.filterMap_cons_some (runIdOf_dump e)]

theorem runIds_append (xs ys : List String) :
    codec.runIds (xs ++ ys) = codec.runIds xs ++ codec.runIds ys := by
  unfold EnvelopeCodec.runIds
  rw [List.filterMap_append]

theorem runIds_perm {xs ys : List String} (h : xs.Perm ys) :
    (codec.runIds xs).Perm (codec.runIds ys) := h.filterMap _

/-! ## The abstract queue -/

/-- The place of every queued run. -/
abbrev Placement (ω : Type) := Int → Option (Loc ω)

/-- The Redis keys represent `place`. -/
structure Placed (codec : EnvelopeCodec) (r : Redis ω) (place : Placement ω) : Prop where
  /-- Every stored text is an encoded envelope. -/
  encoded : ∀ loc raw, raw ∈ r.list loc → ∃ e, raw = codec.modelDumpJson e
  /-- No list holds two envelopes of one run. -/
  once : ∀ loc, (codec.runIds (r.list loc)).Nodup
  /-- A list holds exactly the runs placed there. -/
  mem : ∀ loc runId, runId ∈ codec.runIds (r.list loc) ↔ place runId = some loc
  /-- The dedupe set holds exactly the placed runs. -/
  dedupe : ∀ runId, runId ∈ r.dedupe ↔ place runId ≠ none

/-- Every job ever handed out carries the encoding of its own envelope. -/
def Receipts (codec : EnvelopeCodec) (q : QueueState ω) : Prop :=
  ∀ w job, job ∈ q.issued w →
    ∃ e, job = { envelope := e, receipt := some (codec.modelDumpJson e) }

theorem placed_empty : Placed codec (Redis.empty : Redis ω) (fun _ => none) where
  encoded := by
    intro loc raw h
    cases loc <;> exact absurd h (by simp [Redis.list, Redis.empty])
  once := by intro loc; cases loc <;> simp [Redis.list, Redis.empty]
  mem := by intro loc runId; cases loc <;> simp [Redis.list, Redis.empty]
  dedupe := by intro runId; simp [Redis.empty]

/-- Only the lists and the dedupe set matter. -/
theorem Placed.congr {r r' : Redis ω} {place : Placement ω} (h : Placed codec r place)
    (hl : ∀ loc, r'.list loc = r.list loc) (hd : r'.dedupe = r.dedupe) :
    Placed codec r' place where
  encoded := by intro loc raw hm; rw [hl] at hm; exact h.encoded loc raw hm
  once := by intro loc; rw [hl]; exact h.once loc
  mem := by intro loc runId; rw [hl]; exact h.mem loc runId
  dedupe := by intro runId; rw [hd]; exact h.dedupe runId

variable [DecidableEq ω]

/-- What each atomic step may do to the abstract queue. -/
inductive PlaceStep : QueueAction ω → Placement ω → Placement ω → Prop where
  | keep (a : QueueAction ω) (place : Placement ω) : PlaceStep a place place
  | enqueue (request : AnalysisRequest) (place : Placement ω) (h : place request.runId = none) :
      PlaceStep (.enqueue request) place (Function.update place request.runId (some .pending))
  | take (w : ω) (runId : Int) (place : Placement ω) (h : place runId = some .pending) :
      PlaceStep (.pop w) place (Function.update place runId (some (.processing w)))
  | release (w : ω) (job : QueueJob) (place : Placement ω)
      (h : place job.envelope.request.runId = some (.processing w)) :
      PlaceStep (.acknowledge w job) place
        (Function.update place job.envelope.request.runId none)
  | giveBack (w : ω) (job : QueueJob) (place : Placement ω)
      (h : place job.envelope.request.runId = some (.processing w)) :
      PlaceStep (.retry w job) place
        (Function.update place job.envelope.request.runId (some .pending))
  | recover (v w : ω) (place : Placement ω) :
      PlaceStep (.recover v w) place
        (fun runId => if place runId = some (.processing w) then some .pending else place runId)

/-! ## Adding and removing one envelope

Every script but `recover` is built from these two changes of a single list.
-/

/-- The database with the list at `loc` and the dedupe set replaced. -/
def setList (r : Redis ω) (loc : Loc ω) (raws : List String) (ids : Finset Int) : Redis ω :=
  match loc with
  | .pending => { r with pending := raws, dedupe := ids }
  | .processing w =>
      { r with processing := Function.update r.processing w raws, dedupe := ids }

@[simp] theorem setList_dedupe (r : Redis ω) (loc : Loc ω) (raws : List String)
    (ids : Finset Int) : (setList r loc raws ids).dedupe = ids := by
  cases loc <;> rfl

@[simp] theorem setList_list (r : Redis ω) (loc loc' : Loc ω) (raws : List String)
    (ids : Finset Int) :
    (setList r loc raws ids).list loc' = if loc' = loc then raws else r.list loc' := by
  cases loc with
  | pending => cases loc' <;> simp [setList, Redis.list]
  | processing w =>
      cases loc' with
      | pending => simp [setList, Redis.list]
      | processing w' => simp [setList, Redis.list, Function.update_apply]

/-- An envelope of a free run may be added at the head of any list. -/
theorem Placed.add {r : Redis ω} {place : Placement ω} (h : Placed codec r place) (loc : Loc ω)
    (e : QueueEnvelope) (hfree : place e.request.runId = none) :
    Placed codec
      (setList r loc (codec.modelDumpJson e :: r.list loc) (insert e.request.runId r.dedupe))
      (Function.update place e.request.runId (some loc)) where
  encoded := by
    intro loc' raw hm
    rw [setList_list] at hm
    split at hm
    · rcases List.mem_cons.mp hm with he | hm'
      · exact ⟨e, he⟩
      · exact h.encoded loc raw hm'
    · exact h.encoded loc' raw hm
  once := by
    intro loc'
    rw [setList_list]
    split
    · rw [runIds_cons_dump]
      refine List.nodup_cons.mpr ⟨?_, h.once loc⟩
      intro hm
      rw [h.mem, hfree] at hm
      exact absurd hm (by simp)
    · exact h.once loc'
  mem := by
    intro loc' runId
    rw [setList_list, Function.update_apply]
    by_cases hl : loc' = loc
    · rw [if_pos hl, runIds_cons_dump, List.mem_cons, h.mem, hl]
      by_cases he : runId = e.request.runId <;> simp [he]
    · rw [if_neg hl, h.mem]
      by_cases he : runId = e.request.runId
      · simp [he, hfree, Ne.symm hl]
      · simp [he]
  dedupe := by
    intro runId
    rw [setList_dedupe, Finset.mem_insert, h.dedupe, Function.update_apply]
    by_cases he : runId = e.request.runId <;> simp [he]

/-- Removing an envelope from its list frees its run. -/
theorem Placed.remove {r : Redis ω} {place : Placement ω} (h : Placed codec r place) (loc : Loc ω)
    {e : QueueEnvelope} {raws : List String}
    (hp : (r.list loc).Perm (codec.modelDumpJson e :: raws)) :
    place e.request.runId = some loc ∧
    Placed codec (setList r loc raws (r.dedupe.erase e.request.runId))
      (Function.update place e.request.runId none) := by
  have hids : (codec.runIds (r.list loc)).Perm (codec.runIds (codec.modelDumpJson e :: raws)) :=
    runIds_perm hp
  rw [runIds_cons_dump] at hids
  have hnd := hids.nodup_iff.mp (h.once loc)
  rw [List.nodup_cons] at hnd
  -- the list holds the envelope, so the map sends its run here
  have hat : place e.request.runId = some loc := by
    rw [← h.mem, hids.mem_iff]
    exact List.mem_cons_self
  refine ⟨hat, ?_, ?_, ?_, ?_⟩
  · intro loc' raw hm
    rw [setList_list] at hm
    split at hm
    · exact h.encoded loc raw (hp.mem_iff.mpr (List.mem_cons_of_mem _ hm))
    · exact h.encoded loc' raw hm
  · intro loc'
    rw [setList_list]
    split
    · exact hnd.2
    · exact h.once loc'
  · intro loc' runId
    rw [setList_list, Function.update_apply]
    by_cases he : runId = e.request.runId
    · subst he
      by_cases hl : loc' = loc
      · simp [hl, hnd.1]
      · rw [if_neg hl, h.mem, hat]
        simp [Ne.symm hl]
    · by_cases hl : loc' = loc
      · have hm := h.mem loc runId
        rw [hids.mem_iff, List.mem_cons] at hm
        simp only [he, false_or] at hm
        rw [if_pos hl, if_neg he, hm, hl]
      · rw [if_neg hl, if_neg he, h.mem]
  · intro runId
    rw [setList_dedupe, Finset.mem_erase, h.dedupe, Function.update_apply]
    by_cases he : runId = e.request.runId <;> simp [he]

/-- Replacing an envelope by one of the same run, in the same or another list. -/
theorem Placed.move {r : Redis ω} {place : Placement ω} (h : Placed codec r place)
    (src dst : Loc ω) {e : QueueEnvelope} {raws : List String}
    (hp : (r.list src).Perm (codec.modelDumpJson e :: raws)) (e' : QueueEnvelope)
    (hid : e'.request.runId = e.request.runId) (hne : src ≠ dst) :
    place e.request.runId = some src ∧
    Placed codec
      (setList (setList r src raws r.dedupe) dst (codec.modelDumpJson e' :: r.list dst) r.dedupe)
      (Function.update place e.request.runId (some dst)) := by
  obtain ⟨hat, hrem⟩ := h.remove src hp
  refine ⟨hat, ?_⟩
  -- removed there and added here; the dedupe set has the run before and after
  have hadd := hrem.add dst e' (by rw [hid, Function.update_self])
  rw [hid, Function.update_idem] at hadd
  have hin : e.request.runId ∈ r.dedupe := by
    rw [h.dedupe, hat]
    simp
  refine hadd.congr ?_ ?_
  · intro loc
    simp only [setList_list]
    split
    · rw [if_neg (Ne.symm hne)]
    · rfl
  · rw [setList_dedupe, setList_dedupe, setList_dedupe, Finset.insert_erase hin]

/-! ## The scripts -/

/-- **Enqueueing fills a free entry or changes nothing.** -/
theorem placed_enqueue {r : Redis ω} {place : Placement ω} (h : Placed codec r place)
    (request : AnalysisRequest) :
    ((r.enqueue codec request).2 = true ↔ place request.runId = none) ∧
    ∃ place', PlaceStep (.enqueue request) place place'
      ∧ Placed codec (r.enqueue codec request).1 place' := by
  unfold Redis.enqueue Redis.enqueueScript
  by_cases hd : request.runId ∈ r.dedupe
  · rw [if_pos hd]
    exact ⟨by simp [(h.dedupe _).mp hd], place, .keep _ place, h⟩
  · have hfree : place request.runId = none := by
      by_contra hne
      exact hd ((h.dedupe _).mpr hne)
    rw [if_neg hd]
    refine ⟨by simp [hfree], _, .enqueue request place hfree, ?_⟩
    refine (h.add .pending { request := request } hfree).congr ?_ rfl
    intro loc
    cases loc <;> rfl

/-- **Acknowledging clears the entry of the receipt's run, if this worker still has it.** -/
theorem placed_acknowledge {r : Redis ω} {place : Placement ω} (h : Placed codec r place)
    (w : ω) (e : QueueEnvelope) :
    ∃ place', PlaceStep
        (.acknowledge w { envelope := e, receipt := some (codec.modelDumpJson e) }) place place' ∧
      Placed codec
        (r.acknowledge w { envelope := e, receipt := some (codec.modelDumpJson e) }) place' := by
  unfold Redis.acknowledge Redis.acknowledgeScript
  by_cases hm : codec.modelDumpJson e ∈ r.processing w
  · -- the receipt is still in the list, and it is the envelope of this run
    obtain ⟨hat, hrem⟩ := h.remove (.processing w) (List.perm_cons_erase hm)
    refine ⟨_, .release w _ place hat, hrem.congr ?_ ?_⟩
    · intro loc
      simp only [lrem_of_mem hm]
      cases loc <;> rfl
    · simp only [lrem_of_mem hm]
      rfl
  · refine ⟨place, .keep _ place, h.congr ?_ ?_⟩
    · intro loc
      simp only [lrem_of_not_mem hm]
      cases loc <;> simp [Redis.list]
    · simp only [lrem_of_not_mem hm]
      rfl

/-- **Retrying sends the entry back to pending, if this worker still has it.** -/
theorem placed_retry {r : Redis ω} {place : Placement ω} (h : Placed codec r place)
    (w : ω) (e : QueueEnvelope) :
    ∃ place', PlaceStep
        (.retry w { envelope := e, receipt := some (codec.modelDumpJson e) }) place place' ∧
      Placed codec
        (r.retry codec w { envelope := e, receipt := some (codec.modelDumpJson e) }) place' := by
  unfold Redis.retry Redis.retryScript
  by_cases hm : codec.modelDumpJson e ∈ r.processing w
  · obtain ⟨hat, hmove⟩ := h.move (.processing w) .pending (List.perm_cons_erase hm)
      { e with attempts := e.attempts + 1 } rfl (by simp)
    refine ⟨_, .giveBack w _ place hat, hmove.congr ?_ ?_⟩
    · intro loc
      simp only [lrem_of_mem hm]
      cases loc <;> rfl
    · simp only [lrem_of_mem hm]
      rfl
  · refine ⟨place, .keep _ place, h.congr ?_ ?_⟩
    · intro loc
      simp only [lrem_of_not_mem hm]
      cases loc <;> simp [Redis.list]
    · simp only [lrem_of_not_mem hm]
      rfl

/-- **Popping moves the oldest pending entry to the worker, and decodes to its run.** -/
theorem placed_brpoplpush {r : Redis ω} {place : Placement ω} (h : Placed codec r place) (w : ω) :
    (∃ place', PlaceStep (.pop w) place place' ∧ Placed codec (r.brpoplpush w).1 place') ∧
    (∀ raw, (r.brpoplpush w).2 = some raw → ∃ e, raw = codec.modelDumpJson e) := by
  unfold Redis.brpoplpush
  cases hp : rpop r.pending with
  | none => exact ⟨⟨place, .keep _ place, h⟩, by simp⟩
  | some pair =>
      obtain ⟨raw, rest⟩ := pair
      have heq : r.list .pending = rest ++ [raw] := rpop_eq_some hp
      obtain ⟨e, he⟩ := h.encoded .pending raw (by rw [heq]; simp)
      refine ⟨?_, fun raw' hr => ⟨e, by rw [← Option.some.inj hr]; exact he⟩⟩
      have hperm : (r.list .pending).Perm (codec.modelDumpJson e :: rest) := by
        rw [heq, ← he]
        exact List.perm_append_singleton raw rest
      obtain ⟨hat, hmove⟩ := h.move .pending (.processing w) hperm e rfl (by simp)
      refine ⟨_, .take w _ place hat, hmove.congr ?_ rfl⟩
      intro loc
      rw [he]
      cases loc <;> rfl

/-- **Recovering moves every entry of one worker back to pending.** -/
theorem placed_recoverScript {r : Redis ω} {place : Placement ω} (h : Placed codec r place)
    (v w : ω) :
    ∃ place', PlaceStep (.recover v w) place place'
      ∧ Placed codec (r.recoverScript w).1 place' := by
  unfold Redis.recoverScript
  split
  · exact ⟨place, .keep _ place, h⟩
  · refine ⟨_, .recover v w place, ?_⟩
    rw [drain_eq]
    -- the new pending list is the drained list in front of the old one
    have hpend : ∀ runId, runId ∈ codec.runIds (r.processing w ++ r.pending) ↔
        place runId = some (.processing w) ∨ place runId = some .pending := by
      intro runId
      rw [runIds_append, List.mem_append, ← h.mem, ← h.mem]
      rfl
    refine ⟨?_, ?_, ?_, ?_⟩
    · intro loc raw hm
      cases loc with
      | pending =>
          rcases List.mem_append.mp hm with hm' | hm'
          · exact h.encoded (.processing w) raw hm'
          · exact h.encoded .pending raw hm'
      | processing w' =>
          simp only [Redis.list, Function.update_apply] at hm
          split at hm
          · exact absurd hm (by simp)
          · exact h.encoded (.processing w') raw hm
    · intro loc
      cases loc with
      | pending =>
          show (codec.runIds (r.processing w ++ r.pending)).Nodup
          rw [runIds_append]
          refine List.Nodup.append (h.once (.processing w)) (h.once .pending) ?_
          -- a run in both lists would have two places
          intro runId h₁ h₂
          rw [show r.processing w = r.list (.processing w) from rfl, h.mem] at h₁
          rw [show r.pending = r.list .pending from rfl, h.mem, h₁] at h₂
          exact absurd h₂ (by simp)
      | processing w' =>
          simp only [Redis.list, Function.update_apply]
          split
          · simp
          · exact h.once (.processing w')
    · intro loc runId
      cases loc with
      | pending =>
          show runId ∈ codec.runIds (r.processing w ++ r.pending) ↔ _
          rw [hpend]
          split <;> simp_all
      | processing w' =>
          simp only [Redis.list, Function.update_apply]
          by_cases hw : w' = w
          · subst hw
            by_cases hat : place runId = some (.processing w') <;> simp [hat]
          · rw [if_neg hw, show r.processing w' = r.list (.processing w') from rfl, h.mem]
            by_cases hat : place runId = some (.processing w) <;> simp [hat, Ne.symm hw]
    · intro runId
      rw [h.dedupe]
      split <;> simp_all

/-! ## Every step, every reachable state -/

theorem pop_redis (q : QueueState ω) (w : ω) :
    (q.pop codec w).1.redis = (q.redis.brpoplpush w).1 := by
  unfold QueueState.pop
  dsimp only
  split
  · rfl
  · split <;> rfl

theorem pop_receipts {q : QueueState ω} {place : Placement ω} (h : Placed codec q.redis place)
    (hr : Receipts codec q) (w : ω) : Receipts codec (q.pop codec w).1 := by
  intro w' job hj
  unfold QueueState.pop at hj
  dsimp only at hj
  split at hj
  · exact hr w' job hj
  · rename_i raw hraw
    -- what was popped is an encoded envelope, so it decodes to the job of its own receipt
    obtain ⟨e, he⟩ := (placed_brpoplpush h w).2 raw hraw
    subst he
    rw [codec.validate_dump] at hj
    dsimp only at hj
    rw [Function.update_apply] at hj
    split at hj
    · rcases List.mem_cons.mp hj with hj' | hj'
      · exact ⟨e, hj'⟩
      · exact hr w job hj'
    · exact hr w' job hj

/-- **Each atomic step is a step of the abstract queue.** -/
theorem placed_step {q q' : QueueState ω} {place : Placement ω} {a : QueueAction ω}
    (h : Placed codec q.redis place) (hr : Receipts codec q) (hs : q.step codec a = some q') :
    (∃ place', PlaceStep a place place' ∧ Placed codec q'.redis place') ∧ Receipts codec q' := by
  cases a with
  | enqueue request =>
      rw [QueueState.step] at hs
      rw [← Option.some.inj hs]
      exact ⟨(placed_enqueue h request).2, hr⟩
  | heartbeat w =>
      rw [QueueState.step] at hs
      rw [← Option.some.inj hs]
      exact ⟨⟨place, .keep _ place, h.congr (fun loc => by cases loc <;> rfl) rfl⟩, hr⟩
  | pop w =>
      rw [QueueState.step] at hs
      rw [← Option.some.inj hs]
      exact ⟨by rw [pop_redis]; exact (placed_brpoplpush h w).1, pop_receipts h hr w⟩
  | acknowledge w job =>
      rw [QueueState.step] at hs
      split at hs
      · rename_i hj
        obtain ⟨e, he⟩ := hr w job hj
        rw [← Option.some.inj hs]
        exact ⟨by rw [he]; exact placed_acknowledge h w e, hr⟩
      · exact absurd hs (by simp)
  | retry w job =>
      rw [QueueState.step] at hs
      split at hs
      · rename_i hj
        obtain ⟨e, he⟩ := hr w job hj
        rw [← Option.some.inj hs]
        exact ⟨by rw [he]; exact placed_retry h w e, hr⟩
      · exact absurd hs (by simp)
  | recover v w =>
      rw [QueueState.step] at hs
      split at hs
      · exact absurd hs (by simp)
      · rw [← Option.some.inj hs]
        exact ⟨placed_recoverScript h v w, hr⟩
  | expire w =>
      rw [QueueState.step] at hs
      rw [← Option.some.inj hs]
      exact ⟨⟨place, .keep _ place, h.congr (fun loc => by cases loc <;> rfl) rfl⟩, hr⟩

/-- The queue represents some placement and knows its receipts. -/
structure QueueInv (codec : EnvelopeCodec) (q : QueueState ω) : Prop where
  placed : ∃ place, Placed codec q.redis place
  receipts : Receipts codec q

omit [DecidableEq ω] in
theorem queueInv_empty : QueueInv codec (QueueState.empty : QueueState ω) where
  placed := ⟨_, placed_empty⟩
  receipts := by intro w job h; exact absurd h (by simp [QueueState.empty])

theorem queueInv_step {q q' : QueueState ω} {a : QueueAction ω} (h : QueueInv codec q)
    (hs : q.step codec a = some q') : QueueInv codec q' := by
  obtain ⟨place, hp⟩ := h.placed
  obtain ⟨⟨place', _, hp'⟩, hr'⟩ := placed_step hp h.receipts hs
  exact ⟨⟨place', hp'⟩, hr'⟩

theorem queueInv_reachable {q : QueueState ω}
    (h : Reach (QueueState.step codec) anyStep QueueState.empty q) : QueueInv codec q :=
  h.invariant queueInv_empty fun _ hi _ hs => queueInv_step hi hs

/-- The dedupe set and the lists agree, and every queued run has one envelope. -/
structure UniqueEnvelopes (codec : EnvelopeCodec) (r : Redis ω) : Prop where
  /-- Everything stored decodes. -/
  decodes : ∀ loc, ∀ raw ∈ r.list loc, ∃ e, codec.modelValidateJson raw = some e
  /-- The dedupe set is the set of run ids of all stored envelopes. -/
  dedupe : ∀ runId, runId ∈ r.dedupe ↔ ∃ loc, runId ∈ codec.runIds (r.list loc)
  /-- A queued run has an envelope in exactly one of the lists ... -/
  oneList : ∀ runId ∈ r.dedupe, ∃! loc, runId ∈ codec.runIds (r.list loc)
  /-- ... and exactly one envelope there. -/
  oneEnvelope : ∀ loc, ∀ runId ∈ codec.runIds (r.list loc),
    (codec.runIds (r.list loc)).count runId = 1
  /-- `enqueue` accepts a run exactly when it has no envelope. -/
  enqueue : ∀ request, (r.enqueue codec request).2 = true ↔
    ∀ loc, request.runId ∉ codec.runIds (r.list loc)

theorem Placed.unique {r : Redis ω} {place : Placement ω} (h : Placed codec r place) :
    UniqueEnvelopes codec r where
  decodes := by
    intro loc raw hm
    obtain ⟨e, he⟩ := h.encoded loc raw hm
    exact ⟨e, by rw [he]; exact codec.validate_dump e⟩
  dedupe := by
    intro runId
    rw [h.dedupe, Option.ne_none_iff_exists']
    exact exists_congr fun loc => (h.mem loc runId).symm
  oneList := by
    intro runId hd
    obtain ⟨loc, hl⟩ := Option.ne_none_iff_exists'.mp ((h.dedupe runId).mp hd)
    refine ⟨loc, (h.mem loc runId).mpr hl, ?_⟩
    intro loc' hl'
    rw [h.mem, hl] at hl'
    exact (Option.some.inj hl').symm
  oneEnvelope := by
    intro loc runId hm
    exact List.count_eq_one_of_mem (h.once loc) hm
  enqueue := by
    intro request
    rw [(placed_enqueue h request).1]
    constructor
    · intro hn loc hm
      rw [h.mem, hn] at hm
      exact absurd hm (by simp)
    · intro hn
      by_contra hne
      obtain ⟨loc, hl⟩ := Option.ne_none_iff_exists'.mp hne
      exact hn loc ((h.mem loc _).mpr hl)

/--
**Queue uniqueness.**

Whatever the workers do, and whatever old receipts they do it with, the dedupe set
is exactly the set of queued run ids and no run ever has a second envelope.
-/
theorem uniqueEnvelopes_reachable {q : QueueState ω}
    (h : Reach (QueueState.step codec) anyStep QueueState.empty q) :
    UniqueEnvelopes codec q.redis := by
  obtain ⟨place, hp⟩ := (queueInv_reachable h).placed
  exact hp.unique

/-- A job of `acme/widgets`, and the receipt its first delivery carries. -/
def widgetRequest : AnalysisRequest :=
  { runId := 77, repository := "acme/widgets", installationId := 5, headSha := "abc123" }

def widgetJob : QueueJob :=
  { envelope := { request := widgetRequest }
    receipt := some (jsonCodec.modelDumpJson { request := widgetRequest }) }

/--
The first worker loses its lease, the second takes the job over and retries it, and
only then the first comes back to acknowledge and retry with its old receipt.
-/
def staleReceipts : List (QueueAction Duo) :=
  [.enqueue widgetRequest, .heartbeat .first, .pop .first, .expire .first,
    .recover .second .first, .heartbeat .second, .pop .second, .retry .second widgetJob,
    .acknowledge .first widgetJob, .retry .first widgetJob, .enqueue widgetRequest]

theorem uniqueEnvelopes_staleReceipts :
    ∃ q, exec (QueueState.step jsonCodec) anyStep QueueState.empty staleReceipts = some q
      ∧ UniqueEnvelopes jsonCodec q.redis := by
  have hrun : (exec (QueueState.step jsonCodec) anyStep QueueState.empty
      staleReceipts).isSome = true := by decide +kernel
  obtain ⟨q, hq⟩ := Option.isSome_iff_exists.mp hrun
  exact ⟨q, hq, uniqueEnvelopes_reachable (reach_of_exec Reach.init hq)⟩

end PipeLens.Proof
