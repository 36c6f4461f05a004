import PipeLens.Proof.Fencing

/-!
# Timings over the attempts of a run

The start of the first attempt is what a run is measured by: it is stored once, with the
time spent in the queue until then, and no later attempt, status update or finish changes
either. The times themselves add up; the floats that are stored for them do so up to rounding.

The invariant relates the row to the starts that `begin_analysis` returned. Those are also
what an attempt passes to `finish_analysis`, so what a finish stores can be compared with
the first start.
-/

namespace PipeLens.Proof

open PipeLens

/-! ## Sequences of calls -/

/-- A call on the run, by an attempt or without a token. -/
inductive TimedOp where
  | begin (token : Option Token)
  | update (status : AnalysisStatus) (values : UpdateValues) (token : Option Token)
  | finish (startedAt : Instant) (status : AnalysisStatus) (token : Option Token)

/-- The store, and the starts that were returned. -/
structure Timed where
  db : Db
  starts : List AnalysisStart

def TimedOp.perform (runId : Int) (s : Timed) (now : Instant) : TimedOp → Timed
  | .begin token =>
      match s.db.beginAnalysis runId token now with
      | (.ok start, db) => ⟨db, s.starts ++ [start]⟩
      | (.error _, db) => ⟨db, s.starts⟩
  | .update status values token => { s with db := (s.db.update runId status values token now).2 }
  | .finish startedAt status token =>
      { s with db := (s.db.finishAnalysis runId startedAt status token now).2 }

/-- An attempt passes on the start that it got. -/
def TimedOp.PassesStart (s : Timed) : TimedOp → Prop
  | .finish startedAt _ _ => ∃ start ∈ s.starts, startedAt = start.attemptStartedAt
  | _ => True

def timedStep (runId : Int) (s : Timed) (call : TimedOp × Instant) : Timed :=
  call.1.perform runId s call.2

def timedRun (runId : Int) (db : Db) (calls : List (TimedOp × Instant)) : Timed :=
  calls.foldl (timedStep runId) ⟨db, []⟩

/-- The clock does not go back, and attempts pass on their starts. -/
def InTime (runId : Int) : Timed → Instant → List (TimedOp × Instant) → Prop
  | _, _, [] => True
  | s, clock, call :: calls =>
      clock ≤ call.2 ∧ call.1.PassesStart s ∧ InTime runId (timedStep runId s call) call.2 calls

/-! ## What a call does to the row -/

section Calls

variable {db : Db} {runId : Int} {row : AnalysisRow}

theorem begin_cases (hr : db.row? runId = some row) (token : Option Token) (now : Instant) :
    (∃ db', db.beginAnalysis runId token now = (.ok (analysisStart row now), db')
      ∧ db'.row? runId = some (beginValues token row now row))
    ∨ ∃ e, db.beginAnalysis runId token now = (.error e, db) := by
  cases token with
  | some t =>
      rcases begin_fenced db runId t now with ⟨row', db', hr', _, heq, hwrote, _⟩ | ⟨_, m, heq⟩
      · rw [hr] at hr'
        obtain rfl := Option.some.inj hr'
        exact Or.inl ⟨db', heq, hwrote.self⟩
      · exact Or.inr ⟨_, heq⟩
  | none =>
      left
      unfold Db.beginAnalysis Db.transaction
      dsimp only
      rw [hr]
      dsimp only
      rw [rowcount_eq hr, if_pos (show mayStart none row = true from rfl), requireCurrentAttempt_one]
      exact ⟨_, rfl, row?_updateKey_self hr rfl⟩

theorem finish_cases (hr : db.row? runId = some row) (startedAt : Instant)
    (status : AnalysisStatus) (token : Option Token) (now : Instant) :
    (∃ db', db.finishAnalysis runId startedAt status token now
        = (.ok (max 0 (totalSeconds (now - row.createdAt))), db')
      ∧ db'.row? runId = some (finishValues status startedAt now row.createdAt row))
    ∨ ∃ e, db.finishAnalysis runId startedAt status token now = (.error e, db) := by
  cases token with
  | some t =>
      rcases finish_fenced db runId startedAt status t now with
        ⟨row', db', hr', _, heq, hwrote, _⟩ | ⟨_, m, heq⟩
      · rw [hr] at hr'
        obtain rfl := Option.some.inj hr'
        exact Or.inl ⟨db', heq, hwrote.self⟩
      · exact Or.inr ⟨_, heq⟩
  | none =>
      left
      unfold Db.finishAnalysis Db.transaction
      dsimp only
      rw [hr]
      dsimp only
      rw [rowcount_eq hr, if_pos (show holdsToken none row = true from rfl),
        requireCurrentAttempt_one]
      exact ⟨_, rfl, row?_updateKey_self hr rfl⟩

theorem update_row? (hr : db.row? runId = some row) (status : AnalysisStatus)
    (values : UpdateValues) (token : Option Token) (now : Instant) :
    (db.update runId status values token now).2.row? runId = some row
    ∨ (db.update runId status values token now).2.row? runId
      = some (updateValues status values now row) := by
  cases token with
  | some t =>
      rcases update_fenced db runId status values t now with
        ⟨row', db', hr', _, heq, hwrote, _⟩ | ⟨_, heq⟩
      · rw [hr] at hr'
        obtain rfl := Option.some.inj hr'
        rw [heq]
        exact Or.inr hwrote.self
      · rw [heq]
        exact Or.inl hr
  | none =>
      obtain ⟨db', heq, hwrote, _⟩ := update_unfenced db runId status values now hr
      rw [heq]
      exact Or.inr hwrote.self

end Calls

/-! ## The invariant -/

/-- The row has the first start, if there was one, and the wait until then. -/
structure Measured (row : AnalysisRow) (starts : List AnalysisStart) : Prop where
  startedAt : row.analysisStartedAt = starts.head?.map AnalysisStart.attemptStartedAt
  queueWait : row.queueWaitSeconds = starts.head?.map AnalysisStart.queueWaitSeconds
  wait : ∀ first, starts.head? = some first →
    first.queueWaitSeconds = totalSeconds (first.attemptStartedAt - row.createdAt)
      ∧ row.createdAt ≤ first.attemptStartedAt

/-- The starts are not before the first, and not after the clock. -/
def StartedBy (clock : Instant) (starts : List AnalysisStart) : Prop :=
  ∀ first, starts.head? = some first → ∀ start ∈ starts,
    first.attemptStartedAt ≤ start.attemptStartedAt ∧ start.attemptStartedAt ≤ clock

structure TimingInv (runId : Int) (created : Instant) (s : Timed) (clock : Instant) : Prop where
  created_le : created ≤ clock
  row : ∃ row, s.db.row? runId = some row ∧ row.createdAt = created ∧ Measured row s.starts
  starts : StartedBy clock s.starts

theorem StartedBy.mono {clock now : Instant} {starts : List AnalysisStart}
    (h : StartedBy clock starts) (hnow : clock ≤ now) : StartedBy now starts := by
  intro first hfirst start hstart
  obtain ⟨hle, hclock⟩ := h first hfirst start hstart
  exact ⟨hle, Int.le_trans hclock hnow⟩

/-- Another attempt measures by the start that is there. -/
theorem measured_begin {row : AnalysisRow} {starts : List AnalysisStart} (h : Measured row starts)
    (token : Option Token) {now : Instant} (hnow : row.createdAt ≤ now) :
    Measured (beginValues token row now row) (starts ++ [analysisStart row now]) := by
  cases starts with
  | nil =>
      have hstarted : row.analysisStartedAt = none := h.startedAt
      have hwait : row.queueWaitSeconds = none := h.queueWait
      have hqueue : queueWait row now = totalSeconds (now - row.createdAt) := by
        rw [queueWait, hwait, Option.getD_none]
        exact max_eq_right (totalSeconds_nonneg (Int.sub_nonneg_of_le hnow))
      refine ⟨?_, rfl, ?_⟩
      · show some (row.analysisStartedAt.getD now) = some now
        rw [hstarted]
        rfl
      · intro first hfirst
        obtain rfl := Option.some.inj hfirst
        exact ⟨hqueue, hnow⟩
  | cons first rest =>
      have hstarted : row.analysisStartedAt = some first.attemptStartedAt := h.startedAt
      have hwait : row.queueWaitSeconds = some first.queueWaitSeconds := h.queueWait
      refine ⟨?_, ?_, h.wait⟩
      · show some (row.analysisStartedAt.getD now) = some first.attemptStartedAt
        rw [hstarted]
        rfl
      · show some (queueWait row now) = some first.queueWaitSeconds
        rw [queueWait, hwait]
        rfl

theorem startedBy_begin {row : AnalysisRow} {clock now : Instant} {starts : List AnalysisStart}
    (h : StartedBy clock starts) (hnow : clock ≤ now) :
    StartedBy now (starts ++ [analysisStart row now]) := by
  intro first hfirst start hstart
  cases starts with
  | nil =>
      obtain rfl := Option.some.inj hfirst
      rw [List.mem_singleton.mp hstart]
      exact ⟨Int.le_refl _, Int.le_refl _⟩
  | cons first' rest =>
      obtain rfl := Option.some.inj hfirst
      have hle := (h first' rfl first' List.mem_cons_self).2
      rcases List.mem_append.mp hstart with hstart | hstart
      · exact h.mono hnow first' rfl start hstart
      · rw [List.mem_singleton.mp hstart]
        exact ⟨Int.le_trans hle hnow, Int.le_refl now⟩

section Steps

variable {runId : Int} {created clock now : Instant} {s : Timed}

theorem perform_begin_ok {token : Option Token} {start : AnalysisStart} {db' : Db}
    (heq : s.db.beginAnalysis runId token now = (.ok start, db')) :
    (TimedOp.begin token).perform runId s now = ⟨db', s.starts ++ [start]⟩ := by
  simp only [TimedOp.perform, heq]

theorem perform_begin_error {token : Option Token} {e : StoreError}
    (heq : s.db.beginAnalysis runId token now = (.error e, s.db)) :
    (TimedOp.begin token).perform runId s now = s := by
  simp only [TimedOp.perform, heq]

theorem TimingInv.later (h : TimingInv runId created s clock) (hnow : clock ≤ now) :
    TimingInv runId created s now :=
  ⟨Int.le_trans h.created_le hnow, h.row, h.starts.mono hnow⟩

/-- A call that leaves the row and its first start as they are. -/
theorem TimingInv.of_row (h : TimingInv runId created s clock) {row row' : AnalysisRow} {db' : Db}
    (hrow : s.db.row? runId = some row) (hrow' : db'.row? runId = some row')
    (hcreated : row'.createdAt = row.createdAt)
    (hstarted : row'.analysisStartedAt = row.analysisStartedAt)
    (hwait : row'.queueWaitSeconds = row.queueWaitSeconds) :
    TimingInv runId created { s with db := db' } clock := by
  obtain ⟨old, hold, hcreated', hmeasured⟩ := h.row
  rw [hrow] at hold
  obtain rfl := Option.some.inj hold
  refine ⟨h.created_le, ⟨row', hrow', hcreated.trans hcreated', ?_⟩, h.starts⟩
  refine ⟨hstarted.trans hmeasured.startedAt, hwait.trans hmeasured.queueWait, ?_⟩
  rw [hcreated]
  exact hmeasured.wait

theorem timingInv_begin (h : TimingInv runId created s clock) (hnow : clock ≤ now)
    (token : Option Token) :
    TimingInv runId created ((TimedOp.begin token).perform runId s now) now := by
  obtain ⟨row, hrow, hcreated, hmeasured⟩ := h.row
  rcases begin_cases hrow token now with ⟨db', heq, hrow'⟩ | ⟨e, heq⟩
  · rw [perform_begin_ok heq]
    have hle : row.createdAt ≤ now := hcreated ▸ Int.le_trans h.created_le hnow
    exact ⟨Int.le_trans h.created_le hnow,
      ⟨_, hrow', hcreated, measured_begin hmeasured token hle⟩, startedBy_begin h.starts hnow⟩
  · rw [perform_begin_error heq]
    exact h.later hnow

/-- **Every call keeps the invariant.** -/
theorem timingInv_step (h : TimingInv runId created s clock) (hnow : clock ≤ now) (op : TimedOp) :
    TimingInv runId created (op.perform runId s now) now := by
  obtain ⟨row, hrow, _⟩ := h.row
  cases op with
  | begin token => exact timingInv_begin h hnow token
  | update status values token =>
      rcases update_row? hrow status values token now with hrow' | hrow'
      · exact (h.later hnow).of_row hrow hrow' rfl rfl rfl
      · exact (h.later hnow).of_row hrow hrow' rfl rfl rfl
  | finish startedAt status token =>
      show TimingInv runId created
        { s with db := (s.db.finishAnalysis runId startedAt status token now).2 } now
      rcases finish_cases hrow startedAt status token now with ⟨db', heq, hrow'⟩ | ⟨e, heq⟩
      · rw [heq]
        exact (h.later hnow).of_row hrow hrow' rfl rfl rfl
      · rw [heq]
        exact h.later hnow

end Steps

/-- **And so does every sequence of calls.** -/
theorem timingInv_run {runId : Int} {created clock : Instant} {s : Timed}
    {calls rest : List (TimedOp × Instant)} (h : TimingInv runId created s clock)
    (htime : InTime runId s clock (calls ++ rest)) :
    ∃ clock', TimingInv runId created (calls.foldl (timedStep runId) s) clock'
      ∧ InTime runId (calls.foldl (timedStep runId) s) clock' rest := by
  induction calls generalizing s clock with
  | nil => exact ⟨clock, h, htime⟩
  | cons call calls ih =>
      obtain ⟨hnow, _, htime⟩ := htime
      exact ih (timingInv_step h hnow call.1) htime

theorem starts_head_kept {runId : Int} {s : Timed} {first : AnalysisStart}
    (h : s.starts.head? = some first) (calls : List (TimedOp × Instant)) :
    (calls.foldl (timedStep runId) s).starts.head? = some first := by
  induction calls generalizing s with
  | nil => exact h
  | cons call calls ih =>
      refine ih ?_
      obtain ⟨op, now⟩ := call
      cases op with
      | begin token =>
          unfold timedStep TimedOp.perform
          dsimp only
          split
          · rw [List.head?_append, h]
            rfl
          · exact h
      | update status values token => exact h
      | finish startedAt status token => exact h

/-! ## The results -/

/-- `analysis_started_at` and `queue_wait_seconds`. -/
def timingOf (db : Db) (runId : Int) : Option (Option Instant × Option Seconds) :=
  (db.row? runId).map fun row => (row.analysisStartedAt, row.queueWaitSeconds)

/-- What a finish stores, for a run that was begun first at `begun`, by an attempt that began
at `startedAt`: the floats of three times, of which the last is no less than the sum of the
others. -/
structure LatencyAdds (row : AnalysisRow) (begun startedAt now : Instant) (latency : Seconds) :
    Prop where
  duration : row.durationSeconds = some (totalSeconds (now - startedAt))
  duration_nonneg : 0 ≤ totalSeconds (now - startedAt)
  wait : row.queueWaitSeconds = some (totalSeconds (begun - row.createdAt))
  wait_nonneg : 0 ≤ totalSeconds (begun - row.createdAt)
  stored : row.totalLatencySeconds = some latency
  total : latency = totalSeconds (now - row.createdAt)
  times : (now - startedAt) + (begun - row.createdAt) ≤ now - row.createdAt
  floats : (2 ^ 53 - 1) * (totalSeconds (now - startedAt) + totalSeconds (begun - row.createdAt))
    ≤ (2 ^ 53 + 1) * latency

/-- Whole microseconds are not too small for a float. -/
theorem normal_seconds {d : Duration} (h : 0 ≤ d) : Binary64.Normal ((d : Rat) / 1000000) := by
  rcases Int.lt_or_eq_of_le h with hpos | rfl
  · right
    have hone : (1 : Rat) ≤ d := by exact_mod_cast hpos
    calc (2 : Rat) ^ (-1022 : Int) ≤ 1 / 1000000 := by decide +kernel
      _ ≤ (d : Rat) / 1000000 := div_le_div_of_nonneg_right hone (by decide)
  · left
    rw [Int.cast_zero, zero_div]

theorem totalSeconds_add_le {a b c : Int} (ha : 0 ≤ a) (hb : 0 ≤ b) (h : a + b ≤ c) :
    (2 ^ 53 - 1) * (totalSeconds a + totalSeconds b) ≤ (2 ^ 53 + 1) * totalSeconds c := by
  refine Binary64.round_add_le (normal_seconds ha) (normal_seconds hb)
    (normal_seconds (Int.le_trans (Int.add_nonneg ha hb) h)) ?_
  rw [← add_div]
  exact div_le_div_of_nonneg_right (by exact_mod_cast h) (by decide)

theorem TimingInv.firstStart_iff {runId : Int} {created clock now : Instant} {s : Timed}
    (h : TimingInv runId created s clock) {token : Option Token} {start : AnalysisStart} {db' : Db}
    (hbegin : s.db.beginAnalysis runId token now = (.ok start, db')) :
    start.firstStart = true ↔ s.starts = [] := by
  obtain ⟨row, hrow, _, hmeasured⟩ := h.row
  rcases begin_cases hrow token now with ⟨_, heq, _⟩ | ⟨e, heq⟩
  · rw [hbegin] at heq
    rw [Except.ok.inj (Prod.mk.inj heq).1]
    show row.analysisStartedAt.isNone = true ↔ _
    rw [hmeasured.startedAt]
    cases s.starts with
    | nil => simp
    | cons first rest => simp
  · rw [hbegin] at heq
    exact nomatch heq

theorem TimingInv.timing {runId : Int} {created clock : Instant} {s : Timed}
    (h : TimingInv runId created s clock) {first : AnalysisStart}
    (hfirst : s.starts.head? = some first) :
    timingOf s.db runId = some (some first.attemptStartedAt, some first.queueWaitSeconds) := by
  obtain ⟨row, hrow, _, hmeasured⟩ := h.row
  rw [timingOf, hrow, Option.map_some, hmeasured.startedAt, hmeasured.queueWait, hfirst]
  rfl

theorem parts_le_whole {created first start now : Int} (h : first ≤ start) :
    now - start + (first - created) ≤ now - created := by
  omega

theorem TimingInv.latency {runId : Int} {created clock now : Instant} {s : Timed}
    (h : TimingInv runId created s clock) (hnow : clock ≤ now) {start : AnalysisStart}
    (hstart : start ∈ s.starts) {status : AnalysisStatus} {token : Option Token}
    {latency : Seconds} {db' : Db}
    (hfinish : s.db.finishAnalysis runId start.attemptStartedAt status token now
      = (.ok latency, db')) :
    ∃ row first, db'.row? runId = some row ∧ row.createdAt = created
      ∧ s.starts.head? = some first
      ∧ LatencyAdds row first.attemptStartedAt start.attemptStartedAt now latency := by
  obtain ⟨row, hrow, hcreated, hmeasured⟩ := h.row
  rcases finish_cases hrow start.attemptStartedAt status token now with ⟨_, heq, hrow'⟩ | ⟨e, heq⟩
  · rw [hfinish] at heq
    obtain ⟨hlatency, hdb⟩ := Prod.mk.inj heq
    have hlatency := Except.ok.inj hlatency
    subst hdb
    cases hfirst : s.starts.head? with
    | none =>
        rw [List.head?_eq_none_iff.mp hfirst] at hstart
        exact nomatch hstart
    | some first =>
        obtain ⟨hwait, hcreatedLe⟩ := hmeasured.wait first hfirst
        obtain ⟨hlater, hclock⟩ := h.starts first hfirst start hstart
        have hqueue := hmeasured.queueWait
        rw [hfirst] at hqueue
        have hduration : 0 ≤ now - start.attemptStartedAt :=
          Int.sub_nonneg_of_le (Int.le_trans hclock hnow)
        have hwaited : 0 ≤ first.attemptStartedAt - row.createdAt := Int.sub_nonneg_of_le hcreatedLe
        -- no attempt began before the first, so that the two times do not overlap
        have hparts : now - start.attemptStartedAt + (first.attemptStartedAt - row.createdAt)
            ≤ now - row.createdAt := parts_le_whole hlater
        have htotal : latency = totalSeconds (now - row.createdAt) := by
          rw [hlatency]
          exact max_eq_right
            (totalSeconds_nonneg (Int.le_trans (Int.add_nonneg hduration hwaited) hparts))
        refine ⟨_, first, hrow', hcreated, rfl, rfl, totalSeconds_nonneg hduration, ?_,
          totalSeconds_nonneg hwaited, ?_, htotal, hparts, ?_⟩
        · show row.queueWaitSeconds
            = some (totalSeconds (first.attemptStartedAt - row.createdAt))
          rw [← hwait]
          exact hqueue
        · rw [hlatency]
          rfl
        · rw [htotal]
          exact totalSeconds_add_le hduration hwaited hparts
  · rw [hfinish] at heq
    exact nomatch heq

/-- **Timings are consistent.** In every sequence of calls on a new run: a begin is the first
start if and only if none succeeded before it; the first start and the wait until then stay
as that begin returned them; and what a finish stores adds up, but for the rounding of floats. -/
theorem timing_consistent {runId : Int} {db : Db} {row : AnalysisRow}
    (hrow : db.row? runId = some row) (hstarted : row.analysisStartedAt = none)
    (hwait : row.queueWaitSeconds = none) {calls : List (TimedOp × Instant)} {op : TimedOp}
    {now : Instant} (htime : InTime runId ⟨db, []⟩ row.createdAt (calls ++ [(op, now)])) :
    (∀ token start db', op = .begin token →
      (timedRun runId db calls).db.beginAnalysis runId token now = (.ok start, db') →
        (start.firstStart = true ↔ (timedRun runId db calls).starts = []))
    ∧ (∀ before after first, calls = before ++ after →
      (timedRun runId db before).starts.head? = some first →
        timingOf (timedRun runId db calls).db runId
          = some (some first.attemptStartedAt, some first.queueWaitSeconds))
    ∧ ∀ startedAt status token latency db', op = .finish startedAt status token →
      (timedRun runId db calls).db.finishAnalysis runId startedAt status token now
          = (.ok latency, db') →
        ∃ finished first, db'.row? runId = some finished ∧ finished.createdAt = row.createdAt
          ∧ (timedRun runId db calls).starts.head? = some first
          ∧ LatencyAdds finished first.attemptStartedAt startedAt now latency := by
  have hinit : TimingInv runId row.createdAt ⟨db, []⟩ row.createdAt := by
    refine ⟨Int.le_refl _, ⟨row, hrow, rfl, ⟨hstarted, hwait, ?_⟩⟩, ?_⟩
    · exact fun first hfirst => nomatch hfirst
    · exact fun first hfirst => nomatch hfirst
  obtain ⟨clock, hinv, hnow, hpasses, _⟩ := timingInv_run hinit htime
  refine ⟨fun token start db' _ hbegin => hinv.firstStart_iff hbegin, ?_, ?_⟩
  · intro before after first hcalls hfirst
    refine hinv.timing ?_
    rw [hcalls, List.foldl_append]
    exact starts_head_kept hfirst after
  · intro startedAt status token latency db' hop hfinish
    rw [hop] at hpasses
    obtain ⟨start, hstart, heq⟩ := hpasses
    rw [heq] at hfinish ⊢
    exact hinv.latency hnow hstart hfinish

/-- Two attempts, the second taking the run over from the first and finishing it. -/
def takeoverCalls : List (TimedOp × Instant) :=
  [(.begin (some 1), 10), (.update .queued {} none, 12), (.begin (some 2), 20)]

theorem timing_consistent_takeover :
    ∃ finished first, ((timedRun 49 queuedDb takeoverCalls).db.finishAnalysis 49 20 .completed
        (some 2) 35).2.row? 49 = some finished
      ∧ finished.createdAt = 0
      ∧ (timedRun 49 queuedDb takeoverCalls).starts.head? = some first
      ∧ LatencyAdds finished first.attemptStartedAt 20 35 (max 0 (totalSeconds 35)) := by
  have hrow : queuedDb.row? 49 = some (Db.insertValues queuedRecord) := by decide +kernel
  have htime : InTime 49 ⟨queuedDb, []⟩ 0
      (takeoverCalls ++ [(.finish 20 .completed (some 2), 35)]) := by
    refine ⟨by decide, trivial, by decide, trivial, by decide, trivial, by decide, ?_, trivial⟩
    exact ⟨_, List.mem_cons_of_mem _ List.mem_cons_self, rfl⟩
  exact (timing_consistent hrow rfl rfl htime).2.2 20 .completed (some 2) _ _ rfl rfl

/-- **The floats alone do not add up**: a run that waits for a tenth of a second and takes two is
stored with a total of `0.3`, which is less than `0.1 + 0.2`, also when the sum is rounded. -/
theorem floats_exceed_total :
    InTime 49 ⟨queuedDb, []⟩ 0 [(.begin (some 1), 100000),
        (.finish 100000 .completed (some 1), 300000)]
      ∧ ∃ row duration wait total,
        (timedRun 49 queuedDb [(.begin (some 1), 100000),
          (.finish 100000 .completed (some 1), 300000)]).db.row? 49 = some row
        ∧ row.durationSeconds = some duration ∧ row.queueWaitSeconds = some wait
        ∧ row.totalLatencySeconds = some total ∧ total < duration + wait
        ∧ total < Binary64.round (duration + wait) := by
  refine ⟨⟨by decide, trivial, by decide, ⟨_, List.mem_cons_self, rfl⟩, trivial⟩, ?_⟩
  have hrow : ((timedRun 49 queuedDb [(.begin (some 1), 100000),
      (.finish 100000 .completed (some 1), 300000)]).db.row? 49).map
        (fun row => (row.durationSeconds, row.queueWaitSeconds, row.totalLatencySeconds))
      = some (some (totalSeconds 200000), some (totalSeconds 100000),
        some (totalSeconds 300000)) := by
    decide +kernel
  obtain ⟨row, hfound, hvalues⟩ := Option.map_eq_some_iff.mp hrow
  simp only [Prod.mk.injEq] at hvalues
  obtain ⟨hduration, hwait, htotal⟩ := hvalues
  exact ⟨row, _, _, _, hfound, hduration, hwait, htotal, by decide +kernel, by decide +kernel⟩

end PipeLens.Proof
