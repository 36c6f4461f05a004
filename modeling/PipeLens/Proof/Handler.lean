import PipeLens.Proof.WorkerLists
import PipeLens.Proof.WorkerStore

/-!
# The failure handler of `process_next`

The status write of the handler carries no token. What protects it is where it can
be reached from: `analyze` raises after a `finish_analysis` with status `FAILED`,
which clears the token and leaves a status that no `begin_analysis` accepts. From
then on the row belongs to the handler, and to no other one.

The argument breaks when `begin_analysis` or `finish_analysis` itself fails: then
`analyze` raises without having finished anything.
-/

namespace PipeLens.Proof

open PipeLens Transition

variable {ω : Type} [DecidableEq ω] {codec : EnvelopeCodec} {maxAttempts : Int}

/-! ## The invariant -/

/-- The next step of a worker is a `finish_analysis` that fails. -/
def FinishFails (event : AnalyzeEvent) : Phase → Prop
  | .analyzing _ a => FinishBreaks a event
  | _ => False

instance (event : AnalyzeEvent) (phase : Phase) : Decidable (FinishFails event phase) := by
  apply Phase.casesOn (motive := fun phase => Decidable (FinishFails event phase)) phase <;>
    intros <;> dsimp only [FinishFails] <;> infer_instance

/-- No `begin_analysis` and no `finish_analysis` fails with a store error. -/
def StoreAnswers (s : World ω) : Label ω → Prop
  | .begin _ _ fate _ => fate = .answered
  | .advance w event => ¬ FinishFails event (s.phase w)
  | _ => True

instance (s : World ω) (l : Label ω) : Decidable (StoreAnswers s l) := by
  apply Label.casesOn (motive := fun l => Decidable (StoreAnswers s l)) l <;> intros <;>
    dsimp only [StoreAnswers] <;> infer_instance

/-- The row of a run in a failure handler: failed, with no current attempt. -/
def Abandoned (db : Db) (runId : Int) : Prop :=
  ∃ row, db.row? runId = some row ∧ row.status = .failed ∧ row.attemptToken = none

structure HandlerInv (s : World ω) : Prop where
  abandoned : ∀ w job token message, s.phase w = .handling job token message →
    Abandoned s.store job.runId
  unique : ∀ w w' job job' token token' message message',
    s.phase w = .handling job token message → s.phase w' = .handling job' token' message' →
    job.runId = job'.runId → w = w'

omit [DecidableEq ω] in
theorem handlerInv_init : HandlerInv (World.init : World ω) where
  abandoned := by intro w job token message h; exact absurd h (by simp [World.init])
  unique := by
    intro w w' job job' token token' message message' h
    exact absurd h (by simp [World.init])

theorem Abandoned.not_current {db : Db} {runId : Int} (h : Abandoned db runId) (t : Token) :
    ¬ Current db runId t := by
  obtain ⟨row, hr, _, ht⟩ := h
  rw [current_iff hr, ht]
  simp

theorem Abandoned.not_startable {db : Db} {runId : Int} (h : Abandoned db runId) :
    ¬ Startable db runId := by
  obtain ⟨row, hr, hs, _⟩ := h
  rw [startable_iff hr, hs]
  simp

/-- A worker that comes to its handler has finished its attempt, as the current one. -/
theorem entered_handler {s s' : World ω} {l : Label ω} (hok : StoreAnswers s l)
    (hs : WorldStep codec maxAttempts s l s') {w : ω} {job : QueueJob} {token : Token}
    {message : String} (h' : s'.phase w = .handling job token message) :
    s.phase w = .handling job token message
    ∨ (actor l = some w ∧ (∃ t, Current s.store job.runId t) ∧ Abandoned s'.store job.runId) := by
  rcases handling_entered hs h' with h | ⟨fate, now, rfl, hf⟩ | ⟨event, a, rfl, hp, _, heff⟩
  · exact Or.inl h
  · exact absurd hok hf
  · have hans : ¬ FinishBreaks a event := by simpa [StoreAnswers, FinishFails, hp] using hok
    cases heff with
    | failed _ hw =>
        refine Or.inr ⟨rfl, ⟨a.token, hw.current⟩, ?_⟩
        obtain ⟨_, row', _, _, hwrote, hstatus, htok⟩ := hw
        exact ⟨row', hwrote.self, hstatus, htok⟩
    | broke _ hb _ => exact absurd hb hans
    | brokeFinished _ _ hb _ _ => exact absurd hb hans

theorem handlerInv_step {s s' : World ω} {l : Label ω} (h : HandlerInv s) (hok : StoreAnswers s l)
    (hs : WorldStep codec maxAttempts s l s') : HandlerInv s' where
  abandoned := by
    intro w job token message h'
    rcases entered_handler hok hs h' with hold | ⟨_, _, hab⟩
    · -- an abandoned row is written by no begin and by no attempt
      have hab := h.abandoned w job token message hold
      obtain ⟨row, hr, hstatus, htok⟩ := h.abandoned w job token message hold
      cases rowStep hs hr with
      | keep he => exact ⟨row, he, hstatus, htok⟩
      | begin _ _ _ _ _ _ _ _ hstart _ => exact absurd hstart hab.not_startable
      | advance _ _ _ a _ _ _ _ hcur _ _ => exact absurd hcur (hab.not_current a.token)
      | handle v fate now job' token' message' hl hv hrun _ =>
          -- the only handler of this run is `w`, and its write takes it out of the handler
          have he := h.unique v w job' job token' token message' message hv hold hrun
          subst he hl
          cases hs with
          | handle _ _ _ job'' token'' message'' r store hv' hcall =>
              simp only [Function.update_self] at h'
              unfold World.afterHandler at h'
              split at h'
              · split at h' <;> exact absurd h' (by simp)
              · exact absurd h' (by simp)
              · exact absurd h' (by simp)
    · exact hab
  unique := by
    intro w w' job job' token token' message message' h₁ h₂ hrun
    rcases entered_handler hok hs h₁ with hold₁ | ⟨ha₁, ⟨t₁, hc₁⟩, _⟩
    · rcases entered_handler hok hs h₂ with hold₂ | ⟨_, ⟨t₂, hc₂⟩, _⟩
      · exact h.unique w w' job job' token token' message message' hold₁ hold₂ hrun
      · -- the newcomer had the current attempt of a run that was already abandoned
        rw [← hrun] at hc₂
        exact absurd hc₂ ((h.abandoned w job token message hold₁).not_current t₂)
    · rcases entered_handler hok hs h₂ with hold₂ | ⟨ha₂, _, _⟩
      · rw [hrun] at hc₁
        exact absurd hc₁ ((h.abandoned w' job' token' message' hold₂).not_current t₁)
      · rw [ha₁] at ha₂
        exact Option.some.inj ha₂

/-- A write of a failure handler changes no completed row, and none of another attempt. -/
def HandlerFenced (codec : EnvelopeCodec) (maxAttempts : Int) (s : World ω) : Prop :=
  ∀ w fate now s', s.step codec maxAttempts (.handle w fate now) = some s' →
    ∀ runId row, s.store.row? runId = some row → s'.store.row? runId ≠ some row →
      row.status ≠ .completed
      ∧ ∀ t, row.attemptToken = some t → ∃ job message, s.phase w = .handling job t message

/--
**The failure handler is fenced, as long as begin and finish do not fail.**

In every state of every run of any number of workers (with crashes, expiring
leases and failing Redis calls anywhere, and any exception inside the stages) in
which no `begin_analysis` and no `finish_analysis` fails with a store error: the
status write of a failure handler changes neither a completed analysis nor one
whose current attempt is another.
-/
theorem handler_fenced {s : World ω}
    (h : Reach (World.step codec maxAttempts) StoreAnswers World.init s) :
    HandlerFenced codec maxAttempts s := by
  have hinv : HandlerInv s := h.invariant handlerInv_init fun _ hi hok hs =>
    handlerInv_step hi hok (worldStep hs)
  intro w fate now s' hs runId row hr hne
  cases worldStep hs with
  | handle _ _ _ job token message r store hp hcall =>
      by_cases hid : runId = job.runId
      · subst hid
        obtain ⟨row', hr', hstatus, htok⟩ := hinv.abandoned w job token message hp
        rw [hr] at hr'
        rw [Option.some.inj hr', hstatus, htok]
        exact ⟨by simp, by simp⟩
      · exact absurd (by rw [← hr]; exact (handler_call hcall).1 runId hid) hne

/-- The first worker loses its lease before it begins, and the second takes the run over. -/
def takenOver : List (Label Duo) :=
  List.flatten [[.create widgetRecord, .enqueue widgetRequest], comesUp .first,
    [.dequeue .first .answered, .pop .first .answered, .size .first .answered, .expire .first,
      .start .second, .heartbeat .second .answered, .scan .second .answered,
      .recover .second .first .answered, .maintained .second, .dequeue .second .answered,
      .pop .second .answered, .size .second .answered, .begin .second 2 .answered 20]]

/-- The `begin_analysis` of the first then fails, and its handler is next. -/
def beginFails : List (Label Duo) :=
  List.flatten [takenOver, [.begin .first 1 (.failed "connection lost") 21]]

theorem handler_overwrites :
    ∃ s : World Duo, Reach (World.step jsonCodec 3) anyStep World.init s
      ∧ ¬ HandlerFenced jsonCodec 3 s := by
  have hrun : (exec (World.step jsonCodec 3) anyStep World.init beginFails).any (fun s =>
      (s.step jsonCodec 3 (.handle .first .answered 22)).any (fun s' =>
        decide (s'.store.row? 77 ≠ s.store.row? 77))
      && (s.store.row? 77).any (fun row => decide (row.attemptToken = some 2))
      && decide (s.phase .first = .handling widgetJob 1 "connection lost")) = true := by
    decide +kernel
  obtain ⟨s, hs, hbad⟩ := (Option.any_eq_true _ _).mp hrun
  simp only [Bool.and_eq_true, Option.any_eq_true, decide_eq_true_eq] at hbad
  obtain ⟨⟨⟨s', hs', hne⟩, row, hr, htok⟩, hphase⟩ := hbad
  refine ⟨s, reach_of_exec Reach.init hs, fun h => ?_⟩
  rw [hr] at hne
  obtain ⟨job, message, hp⟩ := (h .first .answered 22 s' hs' 77 row hr hne).2 2 htok
  rw [hphase] at hp
  exact absurd hp (by simp)

/-- The first stage of the attempt of a worker raises; its failure handler is next. -/
def firstStageFails (w : Duo) : List (Label Duo) :=
  [.advance w (.store .answered {} 21), .advance w (.bodyRaised "GitHub is down"),
    .advance w (.store .answered {} 22), .advance w (.store .answered {} 23)]

/-- The attempt of the second fails in its first stage instead; its handler is next. -/
def stageFails : List (Label Duo) :=
  List.flatten [takenOver, firstStageFails .second]

theorem handler_fenced_stageFails :
    ∃ s, exec (World.step jsonCodec 3) StoreAnswers World.init stageFails = some s
      ∧ s.phase .second = .handling widgetJob 2 "GitHub is down"
      ∧ HandlerFenced jsonCodec 3 s := by
  have hrun : (exec (World.step jsonCodec 3) StoreAnswers World.init stageFails).any (fun s =>
      decide (s.phase .second = .handling widgetJob 2 "GitHub is down")) = true := by decide +kernel
  obtain ⟨s, hs, hphase⟩ := (Option.any_eq_true _ _).mp hrun
  exact ⟨s, hs, by simpa using hphase, handler_fenced (reach_of_exec Reach.init hs)⟩

end PipeLens.Proof
