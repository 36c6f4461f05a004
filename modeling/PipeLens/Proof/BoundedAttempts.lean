import Mathlib.Data.Finset.Card
import PipeLens.Proof.Handler
import PipeLens.Proof.QueueEquivalence
import PipeLens.Proof.WorkerLists

/-!
# Attempts are bounded

`retry` is the only script that counts, and a recovery puts an envelope back as it
was. So the number of calls of `analyze` is kept in the envelope only in part: with
`attempts` at `a`, a pending envelope has been dequeued at most `a` times since the
run was enqueued, not counting the times a recovery undid, and one in a processing
list at most `a + 1` times. `retry` moves an envelope from the second case into the
first and keeps this number; only a dequeue and a recovery change it.

A worker calls `analyze` once for each job it dequeues, but it may take its time: the
run may have been recovered, dealt with elsewhere and enqueued anew in between. Such
a call falls into the time of an enqueue it does not stem from. `Tally` keeps the
workers that make one apart.
-/

namespace PipeLens.Proof

open PipeLens RedisList Transition

/-! ## What is counted -/

/-- What happened to one run since `enqueue` last accepted it. -/
structure Tally (ω : Type) where
  /-- The calls of `analyze` for the run. -/
  calls : Nat
  /-- How often a recover script moved its envelope back. -/
  recoveries : Nat
  /-- The workers that dequeued it since, and have not called `analyze` yet. -/
  due : Finset ω
  /-- The workers that called `analyze` with a job they had dequeued before. -/
  late : Finset ω

namespace Tally

variable {ω : Type} [DecidableEq ω]

def start : Tally ω where
  calls := 0
  recoveries := 0
  due := ∅
  late := ∅

/-- Worker `w` calls `analyze`. -/
def call (t : Tally ω) (w : ω) : Tally ω where
  calls := t.calls + 1
  recoveries := t.recoveries
  due := t.due.erase w
  late := if w ∈ t.due then t.late else insert w t.late

/-- The tally of `runId` after a step that is taken in `s`. -/
def next (codec : EnvelopeCodec) (runId : Int) (t : Tally ω) (s : World ω) : Label ω → Tally ω
  | .enqueue request =>
      if request.runId = runId ∧ (s.queue.redis.enqueue codec request).2 = true then start else t
  | .pop w fate =>
      match fate, (s.queue.pop codec w).2 with
      | .answered, .job job =>
          if job.runId = runId then { t with due := insert w t.due } else t
      | _, _ => t
  | .recover _ v fate =>
      -- the script looks at the lease before it moves anything
      if fate ≠ .refused ∧ s.queue.redis.lease v = false
          ∧ runId ∈ codec.runIds (s.queue.redis.processing v) then
        { t with recoveries := t.recoveries + 1 }
      else t
  | .size w fate =>
      match fate, s.phase w with
      -- `process_next` goes on to `analyze` as soon as it has the size
      | .answered, .measuring job => if job.runId = runId then t.call w else t
      | _, _ => t
  | _ => t

end Tally

section

variable {ω : Type} [DecidableEq ω]

/-- The workers, with the tally of one run kept beside them. -/
def tallyStep (codec : EnvelopeCodec) (maxAttempts runId : Int) (p : World ω × Tally ω)
    (l : Label ω) : Option (World ω × Tally ω) :=
  (p.1.step codec maxAttempts l).map fun s => (s, p.2.next codec runId p.1 l)

end

variable {ω : Type} [DecidableEq ω] {codec : EnvelopeCodec} {maxAttempts runId : Int}

/-! ## Where envelopes come from -/

/-- How an envelope came to be where it is after a step of the queue. -/
inductive EnvelopeFrom (codec : EnvelopeCodec) (q : QueueState ω) (a : QueueAction ω) :
    Loc ω → QueueEnvelope → Prop where
  | kept (loc : Loc ω) (e : QueueEnvelope) (h : codec.modelDumpJson e ∈ q.redis.list loc) :
      EnvelopeFrom codec q a loc e
  | enqueued (request : AnalysisRequest) (ha : a = .enqueue request)
      (h : (q.redis.enqueue codec request).2 = true) :
      EnvelopeFrom codec q a .pending { request := request }
  | popped (w : ω) (e : QueueEnvelope) (ha : a = .pop w)
      (h : (q.redis.brpoplpush w).2 = some (codec.modelDumpJson e))
      (hm : codec.modelDumpJson e ∈ q.redis.pending) :
      EnvelopeFrom codec q a (.processing w) e
  | retried (w : ω) (e : QueueEnvelope) (job : QueueJob) (ha : a = .retry w job)
      (hj : job.envelope = e) (h : codec.modelDumpJson e ∈ q.redis.processing w) :
      EnvelopeFrom codec q a .pending { e with attempts := e.attempts + 1 }
  | recovered (v w : ω) (e : QueueEnvelope) (ha : a = .recover v w)
      (hl : q.redis.lease w = false) (h : codec.modelDumpJson e ∈ q.redis.processing w) :
      EnvelopeFrom codec q a .pending e

theorem dump_injective {e e' : QueueEnvelope} (h : codec.modelDumpJson e = codec.modelDumpJson e') :
    e = e' := by
  have hv := codec.validate_dump e
  rw [h, codec.validate_dump] at hv
  exact (Option.some.inj hv).symm

theorem brpoplpush_pending (r : Redis ω) (w : ω) :
    r.pending = (r.brpoplpush w).1.pending ++ (r.brpoplpush w).2.toList := by
  unfold Redis.brpoplpush
  split
  · simp
  · rename_i raw rest hp
    simpa using rpop_eq_some hp

theorem mem_processing_step {q q' : QueueState ω} {a : QueueAction ω} {w : ω} {e : QueueEnvelope}
    (hs : q.step codec a = some q') (he : codec.modelDumpJson e ∈ q'.redis.processing w) :
    EnvelopeFrom codec q a (.processing w) e := by
  have hlist := listStep hs w
  generalize q'.redis.processing w = list at hlist he
  cases hlist with
  | keep => exact .kept _ e he
  | take raw ha hpop =>
      rcases List.mem_cons.mp he with heq | hm
      · subst heq
        refine .popped w e ha hpop ?_
        rw [brpoplpush_pending q.redis w, hpop]
        simp
      · exact .kept _ e hm
  | drop job ha =>
      refine .kept _ e ?_
      unfold dropReceipt at he
      split at he
      · exact he
      · unfold lrem at he
        split at he
        · exact List.mem_of_mem_erase he
        · exact he
  | drain v ha hl => exact absurd he (by simp)

/-- A receipt names the envelope it was handed out with. -/
theorem mem_pending_retry {r : Redis ω} {w : ω} {e : QueueEnvelope} {raw : String}
    (hm : raw ∈ (r.retry codec w (redisJob codec e)).pending) :
    raw ∈ r.pending ∨ (raw = codec.modelDumpJson { e with attempts := e.attempts + 1 }
      ∧ codec.modelDumpJson e ∈ r.processing w) := by
  simp only [Redis.retry, redisJob, Redis.retryScript] at hm
  by_cases hin : codec.modelDumpJson e ∈ r.processing w
  · rw [lrem_of_mem hin] at hm
    rcases List.mem_cons.mp hm with heq | hold
    · exact Or.inr ⟨heq, hin⟩
    · exact Or.inl hold
  · rw [lrem_of_not_mem hin] at hm
    exact Or.inl hm

theorem mem_pending_step {q q' : QueueState ω} {a : QueueAction ω} {e : QueueEnvelope}
    (hr : Receipts codec q) (hs : q.step codec a = some q')
    (he : codec.modelDumpJson e ∈ q'.redis.pending) : EnvelopeFrom codec q a .pending e := by
  cases a with
  | enqueue request =>
      rw [← Option.some.inj hs] at he
      dsimp only [Redis.enqueue, Redis.enqueueScript] at he
      split at he
      · exact .kept _ e he
      · rename_i hnew
        rcases List.mem_cons.mp he with heq | hold
        · rw [dump_injective heq]
          refine .enqueued request rfl ?_
          unfold Redis.enqueue Redis.enqueueScript
          rw [if_neg hnew]
          rfl
        · exact .kept _ e hold
  | heartbeat w => rw [← Option.some.inj hs] at he; exact .kept _ e he
  | pop w =>
      rw [← Option.some.inj hs, pop_redis] at he
      refine .kept _ e ?_
      show _ ∈ q.redis.pending
      rw [brpoplpush_pending q.redis w]
      exact List.mem_append_left _ he
  | acknowledge w job =>
      simp only [QueueState.step] at hs
      split at hs
      · rw [← Option.some.inj hs] at he
        refine .kept _ e ?_
        dsimp only [Redis.acknowledge, Redis.acknowledgeScript] at he
        split at he
        · exact he
        · split at he <;> exact he
      · exact absurd hs (by simp)
  | retry w job =>
      simp only [QueueState.step] at hs
      split at hs
      · rename_i hissued
        obtain ⟨e', hjob⟩ := hr w job hissued
        rw [← Option.some.inj hs, hjob] at he
        rcases mem_pending_retry he with hold | ⟨heq, hin⟩
        · exact .kept _ e hold
        · rw [dump_injective heq]
          exact .retried w e' job rfl (by rw [hjob]) hin
      · exact absurd hs (by simp)
  | recover v w =>
      simp only [QueueState.step] at hs
      split at hs
      · exact absurd hs (by simp)
      · rw [← Option.some.inj hs] at he
        dsimp only [Redis.recoverScript] at he
        split at he
        · exact .kept _ e he
        · rename_i hl
          rw [drain_eq] at he
          rcases List.mem_append.mp he with hin | hold
          · exact .recovered v w e rfl (by simpa using hl) hin
          · exact .kept _ e hold
  | expire w => rw [← Option.some.inj hs] at he; exact .kept _ e he

theorem envelope_step {q q' : QueueState ω} {a : QueueAction ω} {loc : Loc ω} {e : QueueEnvelope}
    (hr : Receipts codec q) (hs : q.step codec a = some q')
    (he : codec.modelDumpJson e ∈ q'.redis.list loc) : EnvelopeFrom codec q a loc e := by
  cases loc with
  | pending => exact mem_pending_step hr hs he
  | processing w => exact mem_processing_step hs he

/-! ## One envelope a run -/

theorem mem_runIds {raws : List String} {e : QueueEnvelope} (h : codec.modelDumpJson e ∈ raws) :
    e.request.runId ∈ codec.runIds raws :=
  List.mem_filterMap.mpr ⟨_, h, runIdOf_dump e⟩

/-- Two envelopes of one run in a list without repetition are the same text. -/
theorem eq_of_nodup_runIds {raws : List String} {e e' : QueueEnvelope}
    (hnd : (codec.runIds raws).Nodup) (he : codec.modelDumpJson e ∈ raws)
    (he' : codec.modelDumpJson e' ∈ raws) (hid : e.request.runId = e'.request.runId) : e = e' := by
  induction raws with
  | nil => exact absurd he (by simp)
  | cons raw raws ih =>
      have htail : (codec.runIds raws).Nodup := by
        unfold EnvelopeCodec.runIds at hnd ⊢
        rw [List.filterMap_cons] at hnd
        split at hnd
        · exact hnd
        · exact hnd.of_cons
      rcases List.mem_cons.mp he with heq | hm
      · rcases List.mem_cons.mp he' with heq' | hm'
        · exact dump_injective (heq.trans heq'.symm)
        · rw [← heq, runIds_cons_dump, hid] at hnd
          exact absurd (mem_runIds hm') (List.nodup_cons.mp hnd).1
      · rcases List.mem_cons.mp he' with heq' | hm'
        · rw [← heq', runIds_cons_dump, ← hid] at hnd
          exact absurd (mem_runIds hm) (List.nodup_cons.mp hnd).1
        · exact ih htail hm hm'

omit [DecidableEq ω] in
theorem Placed.eq_of_runId {r : Redis ω} {place : Placement ω} (h : Placed codec r place)
    {loc loc' : Loc ω} {e e' : QueueEnvelope} (he : codec.modelDumpJson e ∈ r.list loc)
    (he' : codec.modelDumpJson e' ∈ r.list loc') (hid : e.request.runId = e'.request.runId) :
    loc = loc' ∧ e = e' := by
  have hp := (h.mem loc _).mp (mem_runIds he)
  have hp' := (h.mem loc' _).mp (mem_runIds he')
  rw [hid, hp'] at hp
  have hloc := Option.some.inj hp
  subst hloc
  exact ⟨rfl, eq_of_nodup_runIds (h.once loc') he he' hid⟩

/-- What a dequeue that returns a job has moved. -/
theorem popped_envelope {q : QueueState ω} {w : ω} {job : QueueJob} (hi : QueueInv codec q)
    (h : (q.pop codec w).2 = .job job) :
    ∃ e, job = redisJob codec e ∧ codec.modelDumpJson e ∈ q.redis.pending
      ∧ codec.modelDumpJson e ∈ (q.pop codec w).1.redis.processing w := by
  obtain ⟨hissued, receipt, hreceipt, hpop⟩ := pop_job h
  obtain ⟨place, hp⟩ := hi.placed
  obtain ⟨e, hjob⟩ := pop_receipts hp hi.receipts w w job hissued
  have hraw : receipt = codec.modelDumpJson e := by
    rw [hjob] at hreceipt
    exact (Option.some.inj hreceipt).symm
  subst hraw
  refine ⟨e, hjob, ?_, ?_⟩
  · rw [brpoplpush_pending q.redis w, hpop]
    simp
  · rw [pop_redis]
    obtain ⟨raw, hraw, hproc⟩ := brpoplpush_some w (pending_of_brpoplpush hpop)
    rw [hpop] at hraw
    rw [hproc, ← Option.some.inj hraw]
    exact List.mem_cons_self

/-! ## The balance -/

/-- The calls that the envelope of the run has to account for, those still due included. -/
def Tally.balance (t : Tally ω) : Int :=
  t.calls + t.due.card - t.recoveries - t.late.card

/-- A call that was due, or is the first late one of its worker, changes nothing. -/
theorem balance_call {t : Tally ω} {w : ω} (h : w ∈ t.late → w ∈ t.due) :
    (t.call w).balance = t.balance := by
  unfold Tally.balance Tally.call
  by_cases hdue : w ∈ t.due
  · have hcard := Finset.card_erase_add_one hdue
    simp only [if_pos hdue]
    omega
  · have hlate : w ∉ t.late := fun hl => hdue (h hl)
    rw [if_neg hdue, Finset.erase_eq_of_notMem hdue, Finset.card_insert_of_notMem hlate]
    push_cast
    omega

theorem balance_due (t : Tally ω) (w : ω) :
    { t with due := insert w t.due }.balance ≤ t.balance + 1 := by
  have hcard := Finset.card_insert_le w t.due
  unfold Tally.balance
  dsimp only
  omega

/-- How the balance moves in a step. -/
inductive BalanceStep (codec : EnvelopeCodec) (runId : Int) (s : World ω) (t : Tally ω)
    (l : Label ω) (t' : Tally ω) : Prop where
  | keep (h : t'.balance ≤ t.balance)
  | restart (h : t'.balance = 0)
  | dequeued (w : ω) (job : QueueJob) (hl : l = .pop w .answered)
      (hpop : (s.queue.pop codec w).2 = .job job) (hid : job.runId = runId)
      (h : t'.balance ≤ t.balance + 1)

/-- How often an envelope at a place has been dequeued beyond its attempts. -/
def taken : Loc ω → Int
  | .pending => 0
  | .processing _ => 1

/-- The invariant: what the envelopes say of the calls made. -/
structure Bounded (codec : EnvelopeCodec) (maxAttempts runId : Int) (s : World ω) (t : Tally ω) :
    Prop where
  attempts : ∀ loc e, codec.modelDumpJson e ∈ s.queue.redis.list loc →
    0 ≤ e.attempts ∧ e.attempts ≤ max 1 maxAttempts - 1
  retrying : ∀ w job, s.phase w = .retrying job → job.mayRetry maxAttempts = true
  /-- The envelope of the run accounts for the calls. -/
  envelope : ∀ loc e, codec.modelDumpJson e ∈ s.queue.redis.list loc →
    e.request.runId = runId → t.balance ≤ e.attempts + taken loc
  total : t.balance ≤ max 1 maxAttempts
  /-- A worker is late once; with the run in hand again, it has dequeued it again. -/
  late : ∀ w ∈ t.late, ∀ job, s.phase w = .measuring job → job.runId = runId → w ∈ t.due

section Step

variable {s s' : World ω} {t : Tally ω} {l : Label ω}

omit [DecidableEq ω] in
theorem bounded_init : Bounded codec maxAttempts runId (World.init : World ω) Tally.start where
  attempts := by
    intro loc e h
    cases loc <;> exact absurd h (by simp [World.init, QueueState.empty, Redis.empty, Redis.list])
  retrying := by intro w job h; exact absurd h (by simp [World.init])
  envelope := by
    intro loc e h
    cases loc <;> exact absurd h (by simp [World.init, QueueState.empty, Redis.empty, Redis.list])
  total := by
    have hzero : (Tally.start : Tally ω).balance = 0 := rfl
    rw [hzero]
    omega
  late := by intro w h; exact absurd h (by simp [Tally.start])

theorem balance_step (h : Bounded codec maxAttempts runId s t) :
    BalanceStep codec runId s t l (t.next codec runId s l) := by
  cases l with
  | enqueue request =>
      simp only [Tally.next]
      split
      · exact .restart rfl
      · exact .keep (le_refl _)
  | pop w fate =>
      simp only [Tally.next]
      split
      · rename_i job hpop
        split
        · rename_i hid
          exact .dequeued w job rfl hpop hid (balance_due t w)
        · exact .keep (le_refl _)
      · exact .keep (le_refl _)
  | recover w v fate =>
      simp only [Tally.next]
      split
      · refine .keep ?_
        unfold Tally.balance
        push_cast
        omega
      · exact .keep (le_refl _)
  | size w fate =>
      simp only [Tally.next]
      split
      · rename_i job hphase
        split
        · rename_i hid
          exact .keep (balance_call fun hl => h.late w hl job hphase hid).le
        · exact .keep (le_refl _)
      · exact .keep (le_refl _)
  | _ => exact .keep (le_refl _)

/-- Where the envelopes come from, seen from the workers. -/
theorem envelope_worldStep (hi : WorldInv codec s) (hs : WorldStep codec maxAttempts s l s')
    {loc : Loc ω} {e : QueueEnvelope} (he : codec.modelDumpJson e ∈ s'.queue.redis.list loc) :
    codec.modelDumpJson e ∈ s.queue.redis.list loc
    ∨ ∃ a, queueAction s l = some a ∧ EnvelopeFrom codec s.queue a loc e := by
  have hq := queue_step hi.task hs
  split at hq
  · rw [hq] at he
    exact Or.inl he
  · rename_i a ha
    exact Or.inr ⟨a, ha, envelope_step hi.queue.receipts hq he⟩

omit [DecidableEq ω] in
/-- The label behind an action that puts an envelope into the pending list. -/
theorem queueAction_pending {a : QueueAction ω} (h : queueAction s l = some a) :
    (∀ request, a = .enqueue request → l = .enqueue request)
    ∧ (∀ w job, a = .retry w job → (∃ fate, l = .retry w fate) ∧ s.phase w = .retrying job)
    ∧ ∀ v w, a = .recover v w → ∃ fate, l = .recover v w fate ∧ fate ≠ .refused := by
  cases l with
  | enqueue request =>
      rw [← Option.some.inj h]
      refine ⟨fun _ he => ?_, by simp, by simp⟩
      rw [QueueAction.enqueue.inj he]
  | recover v w fate =>
      have hfate : fate ≠ .refused := by
        rintro rfl
        exact absurd h (by simp [queueAction, Fate.apply])
      rw [← eq_of_apply_eq_some h]
      refine ⟨by simp, by simp, fun _ _ he => ?_⟩
      obtain ⟨rfl, rfl⟩ := QueueAction.recover.inj he
      exact ⟨fate, rfl, hfate⟩
  | retry w fate =>
      simp only [queueAction] at h
      split at h
      · rename_i job hphase
        rw [← eq_of_apply_eq_some h]
        refine ⟨by simp, fun _ _ he => ?_, by simp⟩
        obtain ⟨rfl, rfl⟩ := QueueAction.retry.inj he
        exact ⟨⟨fate, rfl⟩, hphase⟩
      · exact absurd h (by simp)
  | expire w =>
      rw [← Option.some.inj h]
      exact ⟨by simp, by simp, by simp⟩
  | heartbeat w fate | dequeue w fate | pop w fate =>
      rw [← eq_of_apply_eq_some h]
      exact ⟨by simp, by simp, by simp⟩
  | acknowledge w fate =>
      simp only [queueAction] at h
      split at h
      · rw [← eq_of_apply_eq_some h]
        exact ⟨by simp, by simp, by simp⟩
      · exact absurd h (by simp)
  | _ => exact absurd h (by simp [queueAction])

/-- How a worker comes to hold a job it has not started on, and to retry one. -/
inductive PhaseFrom (codec : EnvelopeCodec) (maxAttempts : Int) (s : World ω) (l : Label ω) (w : ω) :
    Phase → Prop where
  | kept : PhaseFrom codec maxAttempts s l w (s.phase w)
  | popped (job : QueueJob) (hl : l = .pop w .answered) (h : (s.queue.pop codec w).2 = .job job) :
      PhaseFrom codec maxAttempts s l w (.measuring job)
  | handled (job : QueueJob) (h : job.mayRetry maxAttempts = true) :
      PhaseFrom codec maxAttempts s l w (.retrying job)
  | other (phase : Phase) (hm : ∀ job, phase ≠ .measuring job) (hr : ∀ job, phase ≠ .retrying job) :
      PhaseFrom codec maxAttempts s l w phase

/-- Neither about to start on a job nor about to retry one. -/
def settled : Phase → Bool
  | .measuring _ => false
  | .retrying _ => false
  | _ => true

theorem PhaseFrom.of_settled {w : ω} {phase : Phase} (h : settled phase = true) :
    PhaseFrom codec maxAttempts s l w phase := by
  refine .other phase ?_ ?_
  · rintro job rfl
    exact nomatch h
  · rintro job rfl
    exact nomatch h

theorem phaseFrom_afterAnalyze {w : ω} (job : QueueJob) (token : Token) (p : Progress) :
    PhaseFrom codec maxAttempts s l w (World.afterAnalyze job token p) := by
  cases p <;> exact .of_settled rfl

theorem phaseFrom_afterHandler {w : ω} (job : QueueJob) (r : CallResult Unit) :
    PhaseFrom codec maxAttempts s l w (World.afterHandler job maxAttempts r) := by
  unfold World.afterHandler
  split
  · split
    · rename_i hmay
      exact .handled job hmay
    · exact .of_settled rfl
  · exact .of_settled rfl
  · exact .of_settled rfl

theorem phaseFrom (hs : WorldStep codec maxAttempts s l s') (w : ω) :
    PhaseFrom codec maxAttempts s l w (s'.phase w) := by
  by_cases hactor : actor l = some w
  · cases hs with
    | create | enqueue | expire => exact absurd hactor (by simp [actor])
    | heartbeat | scan | recover => exact .kept
    | maintained v hv hm =>
        obtain rfl := Option.some.inj hactor
        simp only [World.setPhase, Function.update_self]
        by_cases hstart : s.phase v = .startup
        · rw [hstart]
          exact .of_settled rfl
        · have hsame : World.afterMaintenance (s.phase v) = s.phase v := by
            unfold World.afterMaintenance
            split
            · rename_i heq
              exact absurd heq hstart
            · rfl
          rw [hsame]
          exact .kept
    | start v hv | crash v hv | sizeIdle v fate hv =>
        obtain rfl := Option.some.inj hactor
        simp only [World.setPhase, Function.update_self]
        exact .of_settled rfl
    | dequeue v fate hv | size v fate job' hv | retry v fate job' hv | acknowledge v fate job' hv =>
        obtain rfl := Option.some.inj hactor
        simp only [World.setPhase, Function.update_self]
        cases fate <;> exact .of_settled rfl
    | pop v fate hv =>
        obtain rfl := Option.some.inj hactor
        simp only [Function.update_self]
        cases fate with
        | answered =>
            cases hd : (s.queue.pop codec v).2 with
            | job job => exact .popped job rfl hd
            | timeout => exact .of_settled rfl
            | invalid => exact .of_settled rfl
        | lost => exact .of_settled rfl
        | refused => exact .of_settled rfl
    | begin v token fate now job' hv fresh =>
        obtain rfl := Option.some.inj hactor
        simp only [Function.update_self]
        exact phaseFrom_afterAnalyze ..
    | advance v event job' a p store hv hstep =>
        obtain rfl := Option.some.inj hactor
        simp only [Function.update_self]
        exact phaseFrom_afterAnalyze ..
    | handle v fate now job' token message r store hv hstep =>
        obtain rfl := Option.some.inj hactor
        simp only [Function.update_self]
        exact phaseFrom_afterHandler ..
  · rw [phase_of_not_actor hs hactor]
    exact .kept

/-! ## Each part of the invariant is kept -/

theorem retrying_step (h : Bounded codec maxAttempts runId s t)
    (hs : WorldStep codec maxAttempts s l s') {w : ω} {job : QueueJob}
    (hw : s'.phase w = .retrying job) : job.mayRetry maxAttempts = true := by
  have hfrom := phaseFrom hs w
  generalize s'.phase w = phase at hfrom hw
  cases hfrom with
  | kept => exact h.retrying w job hw
  | popped job' hl hpop => exact absurd hw (by simp)
  | handled job' hmay => rw [← Phase.retrying.inj hw]; exact hmay
  | other _ hm hr => exact absurd hw (hr job)

theorem attempts_step (hi : WorldInv codec s) (h : Bounded codec maxAttempts runId s t)
    (hs : WorldStep codec maxAttempts s l s') {loc : Loc ω} {e : QueueEnvelope}
    (he : codec.modelDumpJson e ∈ s'.queue.redis.list loc) :
    0 ≤ e.attempts ∧ e.attempts ≤ max 1 maxAttempts - 1 := by
  rcases envelope_worldStep hi hs he with hold | ⟨a, ha, hfrom⟩
  · exact h.attempts loc e hold
  · cases hfrom with
    | kept _ _ hold => exact h.attempts loc e hold
    | enqueued request _ _ =>
        show (0 : Int) ≤ 0 ∧ (0 : Int) ≤ max 1 maxAttempts - 1
        omega
    | popped w _ _ _ hold => exact h.attempts .pending e hold
    | recovered v w _ _ _ hold => exact h.attempts (.processing w) e hold
    | retried w e' job haction hjob hold =>
        obtain ⟨hlow, _⟩ := h.attempts (.processing w) e' hold
        have hmay := h.retrying w job ((queueAction_pending ha).2.1 w job haction).2
        unfold QueueJob.mayRetry at hmay
        rw [hjob, decide_eq_true_eq] at hmay
        show 0 ≤ e'.attempts + 1 ∧ e'.attempts + 1 ≤ max 1 maxAttempts - 1
        omega

/-- The one envelope of the run accounts for the calls, wherever it has gone. -/
theorem envelope_balance_step (hi : WorldInv codec s) (h : Bounded codec maxAttempts runId s t)
    (hs : WorldStep codec maxAttempts s l s') {loc : Loc ω} {e : QueueEnvelope}
    (he : codec.modelDumpJson e ∈ s'.queue.redis.list loc) (hid : e.request.runId = runId) :
    (t.next codec runId s l).balance ≤ e.attempts + taken loc := by
  have htaken : 0 ≤ taken loc := by cases loc <;> simp [taken]
  have hnonneg := (attempts_step hi h hs he).1
  rcases balance_step (l := l) h with hkeep | hzero | ⟨w, job, rfl, hpop, hjob, hup⟩
  · rcases envelope_worldStep hi hs he with hold | ⟨a, ha, hfrom⟩
    · exact hkeep.trans (h.envelope loc e hold hid)
    · cases hfrom with
      | kept _ _ hold => exact hkeep.trans (h.envelope loc e hold hid)
      | enqueued request haction hnew =>
          rw [(queueAction_pending ha).1 request haction]
          have hrestart : t.next codec runId s (.enqueue request) = Tally.start := if_pos ⟨hid, hnew⟩
          rw [hrestart]
          exact le_refl _
      | popped w _ _ _ hold =>
          have hold' := h.envelope .pending e hold hid
          simp only [taken] at hold' ⊢
          omega
      | retried w e' job haction hjob hold =>
          have hold' := h.envelope (.processing w) e' hold hid
          simp only [taken] at hold' ⊢
          omega
      | recovered v w _ haction hlease hold =>
          -- the recovery is counted, and takes back one dequeue
          obtain ⟨fate, rfl, hfate⟩ := (queueAction_pending ha).2.2 v w haction
          have hold' := h.envelope (.processing w) e hold hid
          have hcounted : t.next codec runId s (.recover v w fate)
              = { t with recoveries := t.recoveries + 1 } :=
            if_pos ⟨hfate, hlease, hid ▸ mem_runIds hold⟩
          rw [hcounted]
          simp only [taken, Tally.balance] at hold' ⊢
          push_cast
          omega
  · omega
  · -- the dequeued envelope is the only one of the run
    obtain ⟨e', rfl, hpending, hprocessing⟩ := popped_envelope hi.queue hpop
    have hq : s'.queue = (s.queue.pop codec w).1 := by
      cases hs with
      | pop _ _ _ => rfl
    have hmoved : codec.modelDumpJson e' ∈ s'.queue.redis.list (.processing w) := by
      rw [hq]
      exact hprocessing
    obtain ⟨place, hplaced⟩ := (worldInv_step hi hs).queue.placed
    obtain ⟨rfl, rfl⟩ := hplaced.eq_of_runId he hmoved (hid.trans hjob.symm)
    have hold := h.envelope .pending e hpending hid
    simp only [taken] at hold ⊢
    omega

theorem total_step (hi : WorldInv codec s) (h : Bounded codec maxAttempts runId s t) :
    (t.next codec runId s l).balance ≤ max 1 maxAttempts := by
  rcases balance_step (l := l) h with hkeep | hzero | ⟨w, job, rfl, hpop, hjob, hup⟩
  · exact hkeep.trans h.total
  · omega
  · obtain ⟨e, rfl, hpending, _⟩ := popped_envelope hi.queue hpop
    have hold := h.envelope .pending e hpending hjob
    have hmax := (h.attempts .pending e hpending).2
    simp only [taken] at hold
    omega

/-- A worker that was late and has not called `analyze` again is not late twice. -/
theorem late_step (h : Bounded codec maxAttempts runId s t)
    (hs : WorldStep codec maxAttempts s l s') {w : ω} (hw : w ∈ (t.next codec runId s l).late)
    {job : QueueJob} (hphase : s'.phase w = .measuring job) (hid : job.runId = runId) :
    w ∈ (t.next codec runId s l).due := by
  by_cases hpop : l = .pop w .answered ∧ (s.queue.pop codec w).2 = .job job
  · obtain ⟨rfl, hpop⟩ := hpop
    have hnext : t.next codec runId s (.pop w .answered) = { t with due := insert w t.due } := by
      simp only [Tally.next, hpop]
      exact if_pos hid
    rw [hnext]
    exact Finset.mem_insert_self ..
  have hold : s.phase w = .measuring job := by
    have hfrom := phaseFrom hs w
    generalize hp : s'.phase w = phase at hfrom hphase
    cases hfrom with
    | kept => exact hphase
    | popped job' hl hpop' =>
        rw [Phase.measuring.inj hphase] at hpop'
        exact absurd ⟨hl, hpop'⟩ hpop
    | handled job' hmay => exact absurd hphase (by simp)
    | other _ hm hr => exact absurd hphase (hm job)
  have hdue : w ∈ t.late → w ∈ t.due := fun hl => h.late w hl job hold hid
  cases l with
  | enqueue request =>
      simp only [Tally.next] at hw ⊢
      split at hw
      · exact absurd hw (by simp [Tally.start])
      · rename_i hcond
        rw [if_neg hcond]
        exact hdue hw
  | pop v fate =>
      simp only [Tally.next] at hw ⊢
      split at hw
      · split at hw
        · rename_i hid'
          rw [if_pos hid']
          exact Finset.mem_insert_of_mem (hdue hw)
        · rename_i hid'
          rw [if_neg hid']
          exact hdue hw
      · exact hdue hw
  | recover v v' fate =>
      simp only [Tally.next] at hw ⊢
      split at hw
      · rename_i hcond
        rw [if_pos hcond]
        exact hdue hw
      · rename_i hcond
        rw [if_neg hcond]
        exact hdue hw
  | size v fate =>
      simp only [Tally.next] at hw ⊢
      split at hw
      · rename_i job' hv
        -- the caller itself has gone on to `analyze`
        have hne : w ≠ v := by
          rintro rfl
          cases hs with
          | size _ _ _ _ => simp [World.setPhase, Fate.next] at hphase
          | sizeIdle _ _ _ => simp [World.setPhase] at hphase
        split at hw
        · rename_i hid'
          rw [if_pos hid']
          simp only [Tally.call] at hw ⊢
          refine Finset.mem_erase.mpr ⟨hne, hdue ?_⟩
          split at hw
          · exact hw
          · exact (Finset.mem_insert.mp hw).resolve_left hne
        · rename_i hid'
          rw [if_neg hid']
          exact hdue hw
      · exact hdue hw
  | _ => exact hdue hw

theorem bounded_step (hi : WorldInv codec s) (h : Bounded codec maxAttempts runId s t)
    (hs : WorldStep codec maxAttempts s l s') :
    Bounded codec maxAttempts runId s' (t.next codec runId s l) where
  attempts := fun _ _ he => attempts_step hi h hs he
  retrying := fun _ _ hw => retrying_step h hs hw
  envelope := fun _ _ he hid => envelope_balance_step hi h hs he hid
  total := total_step hi h
  late := fun _ hw _ hphase hid => late_step h hs hw hphase hid

end Step

/-- A step with its tally is a step of the workers. -/
theorem tallyStep_some {p p' : World ω × Tally ω} {l : Label ω}
    (h : tallyStep codec maxAttempts runId p l = some p') :
    WorldStep codec maxAttempts p.1 l p'.1 ∧ p'.2 = p.2.next codec runId p.1 l := by
  obtain ⟨s, hs, rfl⟩ := Option.map_eq_some_iff.mp h
  exact ⟨worldStep hs, rfl⟩

/--
**Attempts are bounded.** No envelope ever has more than `max 1 maxAttempts - 1`
attempts, and since a run was enqueued `analyze` has been called for it at most
`max 1 maxAttempts` times, once more for every recovery of its envelope, and once for
every worker that had dequeued it before.
-/
theorem attempts_bounded {s : World ω} {t : Tally ω}
    (h : Reach (tallyStep codec maxAttempts runId) anyStep (World.init, Tally.start) (s, t)) :
    (∀ loc raw, raw ∈ s.queue.redis.list loc → ∃ e, codec.modelValidateJson raw = some e
      ∧ 0 ≤ e.attempts ∧ e.attempts ≤ max 1 maxAttempts - 1)
    ∧ (t.calls : Int) ≤ max 1 maxAttempts + t.recoveries + t.late.card := by
  have hinv : WorldInv codec (s, t).1 ∧ Bounded codec maxAttempts runId (s, t).1 (s, t).2 := by
    refine h.invariant
      (P := fun p => WorldInv codec p.1 ∧ Bounded codec maxAttempts runId p.1 p.2)
      ⟨worldInv_init, bounded_init⟩ fun _ hi _ hs => ?_
    obtain ⟨hstep, htally⟩ := tallyStep_some hs
    rw [htally]
    exact ⟨worldInv_step hi.1 hstep, bounded_step hi.1 hi.2 hstep⟩
  refine ⟨fun loc raw hraw => ?_, ?_⟩
  · obtain ⟨place, hplaced⟩ := hinv.1.queue.placed
    obtain ⟨e, rfl⟩ := hplaced.encoded loc raw hraw
    exact ⟨e, codec.validate_dump e, hinv.2.attempts loc e hraw⟩
  · have htotal := hinv.2.total
    simp only [Tally.balance] at htotal
    omega

/-! ## A late call -/

/--
The first worker dequeues the run and hangs before `analyze`. The second recovers it
and fails for good. The API, which had read the run as queued when it started,
enqueues it again; the second worker calls `analyze`, and then the first does.
-/
def callsLate : List (Label Duo) :=
  List.flatten [[.create widgetRecord, .enqueue widgetRequest], comesUp .first,
    [.dequeue .first .answered, .pop .first .answered, .expire .first,
      .start .second, .heartbeat .second .answered, .scan .second .answered,
      .recover .second .first .answered, .maintained .second,
      .dequeue .second .answered, .pop .second .answered, .size .second .answered,
      .begin .second 1 .answered 10],
    firstStageFails .second,
    [.handle .second .answered 25, .acknowledge .second .answered, .size .second .answered,
      .enqueue widgetRequest, .dequeue .second .answered, .pop .second .answered,
      .size .second .answered, .size .first .answered]]

theorem callsLate_run :
    ∃ p : World Duo × Tally Duo,
      exec (tallyStep jsonCodec 1 77) anyStep (World.init, Tally.start) callsLate = some p
      ∧ 77 ∈ jsonCodec.runIds (p.1.queue.redis.processing .second)
      ∧ p.2.calls = 2 ∧ p.2.recoveries = 0 ∧ p.2.late = {.first} := by
  have hrun : (exec (tallyStep jsonCodec 1 77) anyStep (World.init, Tally.start) callsLate).any
      (fun p => decide (77 ∈ jsonCodec.runIds (p.1.queue.redis.processing .second)
        ∧ p.2.calls = 2 ∧ p.2.recoveries = 0 ∧ p.2.late = {.first})) = true := by
    decide +kernel
  obtain ⟨p, hs, hend⟩ := (Option.any_eq_true _ _).mp hrun
  exact ⟨p, hs, of_decide_eq_true hend⟩

theorem late_call_exceeds :
    ∃ (s : World Duo) (t : Tally Duo),
      Reach (tallyStep jsonCodec 1 77) anyStep (World.init, Tally.start) (s, t)
      ∧ 77 ∈ jsonCodec.runIds (s.queue.redis.processing .second)
      ∧ ¬ (t.calls : Int) ≤ max 1 1 + t.recoveries := by
  obtain ⟨⟨s, t⟩, hs, hqueued, hcalls, hrecoveries, _⟩ := callsLate_run
  refine ⟨s, t, reach_of_exec Reach.init hs, hqueued, ?_⟩
  rw [hcalls, hrecoveries]
  decide

/-- In that schedule the bound is met with one late worker. -/
theorem attempts_bounded_late :
    ∃ p : World Duo × Tally Duo,
      exec (tallyStep jsonCodec 1 77) anyStep (World.init, Tally.start) callsLate = some p
      ∧ p.2.calls = 2 ∧ p.2.late = {.first}
      ∧ (p.2.calls : Int) ≤ max 1 1 + p.2.recoveries + p.2.late.card := by
  obtain ⟨p, hs, _, hcalls, _, hlate⟩ := callsLate_run
  exact ⟨p, hs, hcalls, hlate, (attempts_bounded (reach_of_exec Reach.init hs)).2⟩

end PipeLens.Proof
