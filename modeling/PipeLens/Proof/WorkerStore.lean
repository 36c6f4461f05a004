import PipeLens.Proof.AttemptEffect
import PipeLens.Proof.WorkerSteps

/-!
# The steps of the workers, seen from the store

`RowStep` names the steps that can change the row of a stored run: a begin that
finds it startable, a step of the current attempt, and the write of a failure
handler. Nothing else the workers do reaches it.
-/

namespace PipeLens.Proof

open PipeLens Transition

variable {ω : Type} [DecidableEq ω] {codec : EnvelopeCodec} {maxAttempts : Int}

/-- What the write of a handler can do. -/
theorem handler_call {db db' : Db} {runId : Int} {status : AnalysisStatus} {values : UpdateValues}
    {fate : StoreFate} {now : Instant} {r : CallResult Unit}
    (h : storeCall db fate (db.update runId status values none now) = (r, db')) :
    (∀ runId', runId' ≠ runId → db'.row? runId' = db.row? runId')
    ∧ (db.row? runId = none → db'.row? runId = none)
    ∧ ∀ row, db.row? runId = some row →
      (db'.row? runId = some row ∧ r ≠ .ok ())
      ∨ db'.row? runId = some (updateValues status values now row) := by
  rw [show db.update runId status values none now = (.ok (), _) from rfl] at h
  rcases storeCall_ok h with ⟨_, rfl⟩ | ⟨⟨message, rfl⟩, _, rfl | rfl⟩
  · exact ⟨fun _ hne => row?_updateKey_ne hne, fun hn => row?_updateKey_none hn,
      fun row hr => Or.inr (row?_updateKey_self hr rfl)⟩
  · exact ⟨fun _ _ => rfl, id, fun row hr => Or.inl ⟨hr, by simp⟩⟩
  · exact ⟨fun _ hne => row?_updateKey_ne hne, fun hn => row?_updateKey_none hn,
      fun row hr => Or.inr (row?_updateKey_self hr rfl)⟩

/-- Who can change the row of a stored run. -/
inductive RowStep (s : World ω) (l : Label ω) (s' : World ω) (runId : Int) (row : AnalysisRow) :
    Prop where
  | keep (h : s'.store.row? runId = some row)
  | begin (w : ω) (token : Token) (fate : StoreFate) (now : Instant) (job : QueueJob)
      (label : l = .begin w token fate now) (phase : s.phase w = .entering job)
      (run : job.runId = runId) (startable : Startable s.store runId)
      (h : ∃ row', s'.store.row? runId = some row' ∧ row'.status = .running
        ∧ row'.attemptToken = some token)
  | advance (w : ω) (event : AnalyzeEvent) (job : QueueJob) (a : Attempt) (p : Progress)
      (label : l = .advance w event) (phase : s.phase w = .analyzing job a)
      (run : job.runId = runId) (current : Current s.store runId a.token)
      (phase' : s'.phase w = World.afterAnalyze job a.token p)
      (effect : AttemptEffect s.store runId a event p s'.store)
  | handle (w : ω) (fate : StoreFate) (now : Instant) (job : QueueJob) (token : Token)
      (message : String) (label : l = .handle w fate now)
      (phase : s.phase w = .handling job token message) (run : job.runId = runId)
      (h : ∃ row', s'.store.row? runId = some row' ∧ row'.attemptToken = row.attemptToken)

/-- A row that an attempt or a begin does not write as its own stays as it is. -/
theorem rowStep_of_wrote {db db' : Db} {runId runId' : Int} {row row' : AnalysisRow}
    (hw : Wrote db db' runId row') (hr : db.row? runId' = some row) (hne : runId' ≠ runId) :
    db'.row? runId' = some row := by
  rw [hw.other runId' hne, hr]

theorem WroteAs.other {db db' : Db} {runId runId' : Int} {t : Token} {status : AnalysisStatus}
    {token : Option Token} (h : WroteAs db db' runId t status token) (hne : runId' ≠ runId) :
    db'.row? runId' = db.row? runId' := by
  obtain ⟨_, _, _, _, hw, _⟩ := h
  exact hw.other runId' hne

/-- An attempt touches no row but that of its run, and that only while it is current. -/
theorem AttemptEffect.row {db db' : Db} {runId : Int} {a : Attempt} {e : AnalyzeEvent}
    {p : Progress} (h : AttemptEffect db runId a e p db') (runId' : Int) :
    db'.row? runId' = db.row? runId' ∨ (runId' = runId ∧ Current db runId a.token) := by
  have hwrote : ∀ {status token}, WroteAs db db' runId a.token status token →
      db'.row? runId' = db.row? runId' ∨ (runId' = runId ∧ Current db runId a.token) := by
    intro status token hw
    by_cases hne : runId' = runId
    · exact Or.inr ⟨hne, hw.current⟩
    · exact Or.inl (hw.other hne)
  cases h with
  | quiet a' _ same _ => exact Or.inl (same runId')
  | wrote a' _ hw _ => exact hwrote hw
  | superseded _ same => exact Or.inl (same runId')
  | completed hw => exact hwrote hw
  | failed message hw => exact hwrote hw
  | broke message _ same => exact Or.inl (same runId')
  | brokeFinished message status _ hw _ => exact hwrote hw

/-- **Only these steps change a row.** -/
theorem rowStep {s s' : World ω} {l : Label ω} (hs : WorldStep codec maxAttempts s l s')
    {runId : Int} {row : AnalysisRow} (hr : s.store.row? runId = some row) :
    RowStep s l s' runId row := by
  cases hs with
  | create record =>
      rcases createIfAbsent_row? s.store record runId with he | ⟨hn, _⟩
      · exact .keep (by rw [← hr]; exact he)
      · rw [hr] at hn; exact absurd hn (by simp)
  | begin w token fate now job h fresh =>
      have heff := beginEffect s.store job.runId token fate now
      by_cases hne : runId = job.runId
      · subst hne
        generalize hres : beginAttempt s.store job.runId token fate now = res at heff ⊢
        obtain ⟨p, store⟩ := res
        cases heff with
        | begun a row' _ _ hw hstatus htok hstart =>
            exact .begin w token fate now job rfl h rfl hstart ⟨row', hw.self, hstatus, htok⟩
        | refused _ => exact .keep hr
        | broke message _ => exact .keep hr
        | brokeBegun message _ row' hw hstatus htok hstart =>
            exact .begin w token fate now job rfl h rfl hstart ⟨row', hw.self, hstatus, htok⟩
      · generalize hres : beginAttempt s.store job.runId token fate now = res at heff ⊢
        obtain ⟨p, store⟩ := res
        cases heff with
        | begun a row' _ _ hw _ _ _ => exact .keep (rowStep_of_wrote hw hr hne)
        | refused _ => exact .keep hr
        | broke message _ => exact .keep hr
        | brokeBegun message _ row' hw _ _ _ => exact .keep (rowStep_of_wrote hw hr hne)
  | advance w event job a p store h hstep =>
      have heff := attemptEffect hstep
      rcases heff.row runId with he | ⟨rfl, hc⟩
      · exact .keep (by rw [← hr]; exact he)
      · exact .advance w event job a p rfl h rfl hc (Function.update_self ..) heff
  | handle w fate now job token message r store h hcall =>
      by_cases hne : runId = job.runId
      · subst hne
        refine .handle w fate now job token message rfl h rfl ?_
        rcases (handler_call hcall).2.2 row hr with ⟨hk, _⟩ | hw
        · exact ⟨row, hk, rfl⟩
        · exact ⟨_, hw, rfl⟩
      · exact .keep (by rw [← hr]; exact (handler_call hcall).1 runId hne)
  | enqueue | expire | start | crash | heartbeat | scan | recover | maintained | dequeue | pop
  | sizeIdle | size | retry | acknowledge => exact .keep hr

/-- A worker comes to its failure handler from a failed begin or from an attempt. -/
theorem handling_entered {s s' : World ω} {l : Label ω} (hs : WorldStep codec maxAttempts s l s')
    {w : ω} {job : QueueJob} {token : Token} {message : String}
    (h' : s'.phase w = .handling job token message) :
    s.phase w = .handling job token message
    ∨ (∃ fate now, l = .begin w token fate now ∧ fate ≠ .answered)
    ∨ ∃ event a, l = .advance w event ∧ s.phase w = .analyzing job a ∧ a.token = token
      ∧ AttemptEffect s.store job.runId a event (.raised message) s'.store := by
  -- a worker whose phase is set to another one than `handling`
  have hset : ∀ {w' : ω} {phase : Phase}, phase ≠ .handling job token message →
      Function.update s.phase w' phase w = .handling job token message →
      s.phase w = .handling job token message := by
    intro w' phase hne hu
    by_cases he : w = w'
    · subst he
      rw [Function.update_self] at hu
      exact absurd hu hne
    · rwa [Function.update_of_ne he] at hu
  cases hs with
  | create | enqueue | expire | heartbeat | scan | recover => exact Or.inl h'
  | start w' h => exact Or.inl (hset (by simp) h')
  | crash w' h => exact Or.inl (hset (by simp) h')
  | maintained w' h hm =>
      refine Or.inl ?_
      by_cases he : w = w'
      · subst he
        have hphase : World.afterMaintenance (s.phase w) = .handling job token message := by
          simpa [World.setPhase] using h'
        cases hp : s.phase w <;> rw [hp] at hphase <;>
          first | exact hphase | exact absurd hphase (by simp [World.afterMaintenance])
      · simpa [World.setPhase, World.setMaintenance, Function.update_of_ne he] using h'
  | dequeue w' fate h => exact Or.inl (hset (by cases fate <;> simp [Fate.next]) h')
  | pop w' fate h =>
      refine Or.inl (hset ?_ h')
      cases fate with
      | answered => cases (s.queue.pop codec w').2 <;> simp [Fate.next, World.afterPop]
      | lost => simp [Fate.next]
      | refused => simp [Fate.next]
  | sizeIdle w' fate h => exact Or.inl (hset (by simp) h')
  | size w' fate job' h => exact Or.inl (hset (by cases fate <;> simp [Fate.next]) h')
  | retry w' fate job' h => exact Or.inl (hset (by cases fate <;> simp [Fate.next]) h')
  | acknowledge w' fate job' h => exact Or.inl (hset (by cases fate <;> simp [Fate.next]) h')
  | handle w' fate now job' token' message' r store h hcall =>
      refine Or.inl (hset ?_ h')
      unfold World.afterHandler
      split
      · split <;> simp
      · simp
      · simp
  | begin w' token' fate now job' h fresh =>
      by_cases he : w = w'
      · subst he
        have heff := beginEffect s.store job'.runId token' fate now
        simp only [Function.update_self] at h'
        generalize beginAttempt s.store job'.runId token' fate now = res at heff h'
        obtain ⟨p, store⟩ := res
        cases heff with
        | begun a row' _ _ _ _ _ _ => exact absurd h' (by simp [World.afterAnalyze])
        | refused _ => exact absurd h' (by simp [World.afterAnalyze])
        | broke message' hf =>
            obtain ⟨_, rfl, _⟩ := Phase.handling.inj h'
            exact Or.inr (Or.inl ⟨fate, now, rfl, hf⟩)
        | brokeBegun message' hf row' _ _ _ _ =>
            obtain ⟨_, rfl, _⟩ := Phase.handling.inj h'
            exact Or.inr (Or.inl ⟨fate, now, rfl, hf⟩)
      · exact Or.inl (by simpa [Function.update_of_ne he] using h')
  | advance w' event job' a p store h hstep =>
      by_cases he : w = w'
      · subst he
        simp only [Function.update_self] at h'
        cases p with
        | running a' => exact absurd h' (by simp [World.afterAnalyze])
        | returned => exact absurd h' (by simp [World.afterAnalyze])
        | raised message' =>
            obtain ⟨rfl, rfl, rfl⟩ := Phase.handling.inj h'
            exact Or.inr (Or.inr ⟨event, a, rfl, h, rfl, attemptEffect hstep⟩)
      · exact Or.inl (by simpa [Function.update_of_ne he] using h')

/-! ## Rows and their tokens -/

/-- A stored run stays stored. -/
theorem row_stays {s s' : World ω} {l : Label ω} (hs : WorldStep codec maxAttempts s l s')
    {runId : Int} {row : AnalysisRow} (hr : s.store.row? runId = some row) :
    ∃ row', s'.store.row? runId = some row' := by
  have hwrote : ∀ {a : Attempt} {status token},
      WroteAs s.store s'.store runId a.token status token →
      ∃ row', s'.store.row? runId = some row' := by
    rintro a status token ⟨_, row', _, _, hw, _, _⟩
    exact ⟨row', hw.self⟩
  cases rowStep hs hr with
  | keep h => exact ⟨row, h⟩
  | begin w token fate now job _ _ _ _ h => exact h.imp fun row' hrow => hrow.1
  | handle w fate now job token message _ _ _ h => exact h.imp fun row' hrow => hrow.1
  | advance w event job a p _ _ _ _ _ heff =>
      cases heff with
      | quiet a' _ same _ => exact ⟨row, by rw [same, hr]⟩
      | wrote a' _ hw _ => exact hwrote hw
      | superseded _ same => exact ⟨row, by rw [same, hr]⟩
      | completed hw => exact hwrote hw
      | failed message hw => exact hwrote hw
      | broke message _ same => exact ⟨row, by rw [same, hr]⟩
      | brokeFinished message status _ hw _ => exact hwrote hw

/-- A run that comes to be stored has no attempt yet. -/
theorem row_created {s s' : World ω} {l : Label ω} (hs : WorldStep codec maxAttempts s l s')
    {runId : Int} {row : AnalysisRow} (hn : s.store.row? runId = none)
    (hr : s'.store.row? runId = some row) : row.attemptToken = none := by
  have hsame : s'.store.row? runId = s.store.row? runId → row.attemptToken = none := by
    intro he
    rw [he, hn] at hr
    exact absurd hr (by simp)
  cases hs with
  | create record =>
      rcases createIfAbsent_row? s.store record runId with he | ⟨_, _, hrow⟩
      · exact hsame he
      · rw [← Option.some.inj (hrow.symm.trans hr)]
        rfl
  | begin w token fate now job h fresh =>
      have heff := beginEffect s.store job.runId token fate now
      have hwrote : ∀ {row'}, Wrote s.store (beginAttempt s.store job.runId token fate now).2
          job.runId row' → Startable s.store job.runId → row.attemptToken = none := by
        intro row' hw hstart
        by_cases hne : runId = job.runId
        · exact absurd hstart (not_startable_of_none (by rw [← hne]; exact hn))
        · exact hsame (hw.other runId hne)
      generalize beginAttempt s.store job.runId token fate now = res at heff hr hsame hwrote
      obtain ⟨p, store⟩ := res
      cases heff with
      | begun a row' _ _ hw _ _ hstart => exact hwrote hw hstart
      | refused _ => exact hsame rfl
      | broke message _ => exact hsame rfl
      | brokeBegun message _ row' hw _ _ hstart => exact hwrote hw hstart
  | advance w event job a p store h hstep =>
      rcases (attemptEffect hstep).row runId with he | ⟨rfl, hc⟩
      · exact hsame he
      · exact absurd hc (not_current_of_none hn)
  | handle w fate now job token message r store h hcall =>
      refine hsame ?_
      by_cases hne : runId = job.runId
      · subst hne
        exact ((handler_call hcall).2.1 hn).trans hn.symm
      · exact (handler_call hcall).1 runId hne
  | enqueue | expire | start | crash | heartbeat | scan | recover | maintained | dequeue | pop
  | sizeIdle | size | retry | acknowledge => exact hsame rfl

/-- **An attempt becomes the current one by its own begin, and in no other way.** -/
theorem current_step {s s' : World ω} {l : Label ω} (hs : WorldStep codec maxAttempts s l s')
    {runId : Int} {t : Token} (hc : Current s'.store runId t) :
    Current s.store runId t ∨ ∃ w fate now, l = .begin w t fate now := by
  obtain ⟨row', hr', ht⟩ := hc
  cases hr : s.store.row? runId with
  | none =>
      rw [row_created hs hr hr'] at ht
      exact absurd ht (by simp)
  | some row =>
      cases rowStep hs hr with
      | keep h =>
          rw [h] at hr'
          exact Or.inl ⟨row', by rw [hr, hr'], ht⟩
      | begin w token fate now job hl _ _ _ h =>
          obtain ⟨row'', hr'', _, htok⟩ := h
          rw [hr'] at hr''
          rw [← Option.some.inj hr'', ht] at htok
          exact Or.inr ⟨w, fate, now, by rw [hl, Option.some.inj htok]⟩
      | advance w event job a p _ _ _ _ _ heff => exact Or.inl (heff.current_back ⟨row', hr', ht⟩)
      | handle w fate now job token message _ _ _ h =>
          obtain ⟨row'', hr'', htok⟩ := h
          rw [hr'] at hr''
          rw [← Option.some.inj hr'', ht] at htok
          exact Or.inl ((current_iff hr).mpr htok.symm)

end PipeLens.Proof
