import PipeLens.Proof.Fencing
import PipeLens.Statements

/-!
# Fencing between statements

`record_stage` checks the token in one statement and inserts in the next, and
`begin_analysis` reads `analysis_started_at` in one statement and writes it in the
next. Nothing is locked in between. A `begin_analysis` that commits inside such a
window breaks what the first statement had established; one that commits outside
every window is harmless. `Exposed` is the window, `Apart` the discipline.
-/

namespace PipeLens.Proof

open PipeLens Transition

/-! ## What the log of commits says -/

/-- The attempt whose `begin_analysis` committed last; `start` is the one there was before. -/
def lastBegun (start : Option Token) : List Commit → Option Token
  | [] => start
  | .begun t _ :: _ => some t
  | .staged _ _ :: log => lastBegun start log

/-- Every stage event was committed while its attempt was the last to have begun. -/
def StageFenced (start : Option Token) (log : List Commit) : Prop :=
  ∀ newer t event older, log = newer ++ .staged t event :: older → lastBegun start older = some t

def Commit.isFirstStart : Commit → Bool
  | .begun _ start => start.firstStart
  | .staged _ _ => false

/-- How many `begin_analysis` calls returned `first_start = True`. -/
def firstStarts (log : List Commit) : Nat := log.countP Commit.isFirstStart

variable {start : Option Token}

theorem stageFenced_nil : StageFenced start [] := by
  intro newer t event older h
  exact absurd h (by simp)

theorem stageFenced_cons {commit : Commit} {log : List Commit} (h : StageFenced start log)
    (hc : ∀ t event, commit = .staged t event → lastBegun start log = some t) :
    StageFenced start (commit :: log) := by
  intro newer t event older he
  cases newer with
  | nil =>
      obtain ⟨hcommit, hlog⟩ := List.cons.inj he
      rw [← hlog]
      exact hc t event hcommit
  | cons x newer => exact h newer t event older (List.cons.inj he).2

/-! ## The windows -/

/-- The row a `begin_analysis` in progress has read. -/
def timing? : AttemptTx → Option AnalysisRow
  | .beginRead _ _ timing => some timing
  | .beginUpdated _ _ timing => some timing
  | .beginClosed _ _ timing _ => some timing
  | _ => none

/-- The attempt whose token a `record_stage` in progress has found current. -/
def staging? : AttemptTx → Option Token
  | .stageChecked call => some call.token
  | .stageInserted call _ => some call.token
  | _ => none

/-- What a transaction in progress has written to the analysis. -/
def written? : AttemptTx → Option (Assignment AnalysisRow.runId)
  | .beginUpdated t startedAt timing => some (beginAssignment t timing startedAt)
  | .beginClosed t startedAt timing _ => some (beginAssignment t timing startedAt)
  | _ => none

/-- The transaction relies on something that a commit of attempt `t` would change. -/
def Exposed (t : Token) : AttemptTx → Prop
  | .stageChecked call => call.token ≠ t
  | .stageInserted call _ => call.token ≠ t
  | .beginRead _ _ timing => timing.analysisStartedAt = none
  | _ => False

instance (t : Token) (phase : AttemptTx) : Decidable (Exposed t phase) := by
  apply AttemptTx.casesOn (motive := fun phase => Decidable (Exposed t phase)) phase <;> intros <;>
    dsimp only [Exposed] <;> infer_instance

variable {τ : Type}

/-- No `begin_analysis` commits inside the window of another transaction. -/
def Apart (s : AttemptSystem τ) : AttemptLabel τ → Prop
  | .commit c =>
      match s.tx c with
      | .beginClosed t _ _ _ => ∀ c', c' ≠ c → ¬ Exposed t (s.tx c')
      | _ => True
  | _ => True

instance [DecidableEq τ] [Fintype τ] (s : AttemptSystem τ) (l : AttemptLabel τ) :
    Decidable (Apart s l) :=
  match l with
  | .commit c =>
      match h : s.tx c with
      | .beginClosed t _ _ _ =>
          decidable_of_iff (∀ c', c' ≠ c → ¬ Exposed t (s.tx c')) (by rw [Apart, h])
      | .idle | .beginCalled _ _ | .beginRead _ _ _ | .beginUpdated _ _ _ | .stageCalled _
      | .stageChecked _ | .stageInserted _ _ => isTrue (by simp [Apart, h])
  | .callBegin _ _ _ | .selectTiming _ | .updateAnalysis _ | .closeStages _ | .callStage _ _
  | .selectToken _ | .insertEvent _ _ | .rollback _ => isTrue trivial

/-! ## The invariant -/

structure AttemptInv (start : Option Token) (runId : Int) (s : AttemptSystem τ) : Prop where
  /-- The committed row carries the token of the last begin, and a first start leaves a mark. -/
  row : ∃ row, s.analyses.committed.find? runId = some row ∧ row.attemptToken = lastBegun start s.log
    ∧ (row.analysisStartedAt = none → firstStarts s.log = 0)
  /-- A token found current is still current. -/
  staging : ∀ c t, staging? (s.tx c) = some t → lastBegun start s.log = some t
  /-- A null start time that was read is still null. -/
  reading : ∀ c timing, timing? (s.tx c) = some timing → timing.analysisStartedAt = none →
    ∀ row, s.analyses.committed.find? runId = some row → row.analysisStartedAt = none
  /-- The row is locked exactly by a begin that has written it. -/
  locked : ∀ c a, s.analyses.lock runId = some (c, a) ↔ written? (s.tx c) = some a
  fenced : StageFenced start s.log
  single : firstStarts s.log ≤ 1

theorem attemptInv_init {db : Db} {runId : Int} {row : AnalysisRow}
    (hrow : db.row? runId = some row) :
    AttemptInv row.attemptToken runId (AttemptSystem.ofDb db : AttemptSystem τ) where
  row := ⟨row, hrow, rfl, fun _ => rfl⟩
  staging := by intro c t h; exact absurd h (by simp [AttemptSystem.ofDb, staging?])
  reading := by intro c timing h; exact absurd h (by simp [AttemptSystem.ofDb, timing?])
  locked := by
    intro c a
    simp [AttemptSystem.ofDb, ReadCommitted.ofTable, written?]
  fenced := stageFenced_nil
  single := Nat.zero_le 1

section Steps

variable [DecidableEq τ] {runId : Int} {s : AttemptSystem τ}

/-- A transaction that has written nothing sees the committed row. -/
theorem AttemptInv.view_eq (h : AttemptInv start runId s) {c : τ} (hw : written? (s.tx c) = none) :
    (s.analyses.view c).find? runId = s.analyses.committed.find? runId := by
  refine ReadCommitted.find?_view_of_not_own fun a hl => ?_
  rw [h.locked, hw] at hl
  exact absurd hl (by simp)

/-- Moving on to a phase that relies only on what holds. -/
theorem attemptInv_setTx (h : AttemptInv start runId s) {c : τ} {phase : AttemptTx}
    (hwritten : written? phase = written? (s.tx c))
    (hstaging : ∀ t, staging? phase = some t → lastBegun start s.log = some t)
    (hreading : ∀ timing, timing? phase = some timing → timing.analysisStartedAt = none →
      ∀ row, s.analyses.committed.find? runId = some row → row.analysisStartedAt = none) :
    AttemptInv start runId (s.setTx c phase) where
  row := h.row
  staging := by
    intro c' t ht
    by_cases he : c' = c
    · subst he; exact hstaging t (by simpa [AttemptSystem.setTx] using ht)
    · exact h.staging c' t (by simpa [AttemptSystem.setTx, Function.update_of_ne he] using ht)
  reading := by
    intro c' timing ht
    by_cases he : c' = c
    · subst he; exact hreading timing (by simpa [AttemptSystem.setTx] using ht)
    · exact h.reading c' timing (by simpa [AttemptSystem.setTx, Function.update_of_ne he] using ht)
  locked := by
    intro c' a
    by_cases he : c' = c
    · subst he; simpa [AttemptSystem.setTx, hwritten] using h.locked c' a
    · simpa [AttemptSystem.setTx, Function.update_of_ne he] using h.locked c' a
  fenced := h.fenced
  single := h.single

/-- The locks after `c` has ended. -/
theorem locked_release (h : AttemptInv start runId s) (c c' : τ) (a : Assignment AnalysisRow.runId) :
    s.analyses.release c runId = some (c', a) ↔
      written? (Function.update s.tx c .idle c') = some a := by
  rw [ReadCommitted.release_eq_some, h.locked]
  by_cases he : c' = c
  · subst he; simp [written?]
  · simp [he]

theorem attemptInv_rollback (h : AttemptInv start runId s) (c : τ) : AttemptInv start runId (s.rollback c) where
  row := h.row
  staging := by
    intro c' t ht
    by_cases he : c' = c
    · subst he; exact absurd ht (by simp [AttemptSystem.rollback, staging?])
    · exact h.staging c' t (by simpa [AttemptSystem.rollback, Function.update_of_ne he] using ht)
  reading := by
    intro c' timing ht
    by_cases he : c' = c
    · subst he; exact absurd ht (by simp [AttemptSystem.rollback, timing?])
    · exact h.reading c' timing
        (by simpa [AttemptSystem.rollback, Function.update_of_ne he] using ht)
  locked := fun c' a => locked_release h c c' a
  fenced := h.fenced
  single := h.single

theorem attemptInv_updateAnalysis (h : AttemptInv start runId s) {c : τ} {t : Token}
    {startedAt : Instant} {timing : AnalysisRow} {rowcount : Nat}
    {analyses : ReadCommitted AnalysisRow AnalysisRow.runId τ}
    (ht : s.tx c = .beginRead t startedAt timing)
    (hu : s.analyses.updateKey c runId (mayStart (some t)) (beginAssignment t timing startedAt)
      = some (analyses, rowcount)) :
    (rowcount = 0 ∧ analyses = s.analyses)
    ∨ (rowcount = 1 ∧
      AttemptInv start runId ({ s with analyses := analyses }.setTx c
        (.beginUpdated t startedAt timing))) := by
  have hown : ∀ a, s.analyses.lock runId ≠ some (c, a) := by
    intro a hl
    rw [h.locked, ht] at hl
    exact absurd hl (by simp [written?])
  rcases ReadCommitted.updateKey_cases hu hown with ⟨he, hn, _⟩ | ⟨hn, hfree, _, he⟩
  · exact Or.inl ⟨hn, he⟩
  · refine Or.inr ⟨hn, ?_⟩
    subst he
    refine ⟨h.row, ?_, ?_, ?_, h.fenced, h.single⟩
    · intro c' t' ht'
      by_cases hc : c' = c
      · subst hc; exact absurd ht' (by simp [AttemptSystem.setTx, staging?])
      · exact h.staging c' t' (by simpa [AttemptSystem.setTx, Function.update_of_ne hc] using ht')
    · intro c' timing' ht'
      by_cases hc : c' = c
      · subst hc
        simp only [AttemptSystem.setTx, Function.update_self, timing?, Option.some.injEq] at ht'
        subst ht'
        exact h.reading c' timing (by simp [ht, timing?])
      · exact h.reading c' timing'
          (by simpa [AttemptSystem.setTx, Function.update_of_ne hc] using ht')
    · intro c' a
      show Function.update s.analyses.lock runId _ runId = some (c', a) ↔ _
      rw [Function.update_self]
      by_cases hc : c' = c
      · subst hc; simp [AttemptSystem.setTx, written?]
      · -- nobody else had written the row, for it was not locked
        have hnone : written? (s.tx c') ≠ some a := by
          rw [Ne, ← h.locked, hfree]
          simp
        simpa [AttemptSystem.setTx, Function.update_of_ne hc, hnone] using
          fun he => absurd he.symm hc

/-- **A begin that commits outside every window.** -/
theorem attemptInv_commitBegin (h : AttemptInv start runId s) {c : τ} {t : Token} {startedAt : Instant}
    {timing : AnalysisRow} {closed : List Nat}
    (ht : s.tx c = .beginClosed t startedAt timing closed)
    (hapart : ∀ c', c' ≠ c → ¬ Exposed t (s.tx c')) :
    AttemptInv start runId { s with
      analyses := s.analyses.commit c
      events := s.closeEvents runId closed
      tx := Function.update s.tx c .idle
      log := .begun t (analysisStart timing startedAt) :: s.log } := by
  obtain ⟨row, hr, _, hmark⟩ := h.row
  have hlock : s.analyses.lock runId = some (c, beginAssignment t timing startedAt) := by
    rw [h.locked, ht]
    rfl
  have hcommit : (s.analyses.commit c).committed.find? runId
      = some (beginValues (some t) timing startedAt row) := by
    rw [ReadCommitted.find?_commit_of_own hlock, hr]
    rfl
  -- the only other transactions that have read a null start time are exposed or hold the lock
  have hothers : ∀ c', c' ≠ c → ∀ timing', timing? (s.tx c') = some timing' →
      timing'.analysisStartedAt ≠ none := by
    intro c' hc timing' ht' hnull
    have hfree : written? (s.tx c') = none := by
      cases hw : written? (s.tx c') with
      | none => rfl
      | some a =>
          rw [← h.locked, hlock] at hw
          exact absurd (congrArg Prod.fst (Option.some.inj hw)).symm hc
    have hexp := hapart c' hc
    cases hphase : s.tx c' with
    | beginRead t' startedAt' timing'' =>
        rw [hphase] at ht' hexp
        rw [Option.some.inj ht'] at hexp
        exact hexp hnull
    | beginUpdated t' startedAt' timing'' =>
        rw [hphase] at hfree; exact absurd hfree (by simp [written?])
    | beginClosed t' startedAt' timing'' closed' =>
        rw [hphase] at hfree; exact absurd hfree (by simp [written?])
    | _ => rw [hphase] at ht'; exact absurd ht' (by simp [timing?])
  refine ⟨⟨_, hcommit, rfl, fun hn => absurd hn (by simp [beginValues])⟩, ?_, ?_,
    fun c' a => locked_release h c c' a, stageFenced_cons h.fenced (by simp), ?_⟩
  · intro c' t' hst
    by_cases hc : c' = c
    · subst hc; exact absurd hst (by simp [staging?])
    · simp only [Function.update_of_ne hc] at hst
      have hexp := hapart c' hc
      cases hphase : s.tx c' with
      | stageChecked call =>
          rw [hphase] at hst hexp
          simp only [Exposed, not_not] at hexp
          rw [← Option.some.inj hst, hexp]
          rfl
      | stageInserted call event =>
          rw [hphase] at hst hexp
          simp only [Exposed, not_not] at hexp
          rw [← Option.some.inj hst, hexp]
          rfl
      | _ => rw [hphase] at hst; exact absurd hst (by simp [staging?])
  · intro c' timing' ht' hnull
    by_cases hc : c' = c
    · subst hc; exact absurd ht' (by simp [timing?])
    · simp only [Function.update_of_ne hc] at ht'
      exact absurd hnull (hothers c' hc timing' ht')
  · unfold firstStarts
    rw [List.countP_cons]
    split
    · -- a first start: the row was still null, so there was none before
      rename_i hfirst
      have hnull : timing.analysisStartedAt = none := by
        simpa [Commit.isFirstStart, analysisStart] using hfirst
      have hzero := hmark (h.reading c timing (by simp [ht, timing?]) hnull row hr)
      unfold firstStarts at hzero
      rw [hzero]
    · exact h.single

theorem attemptInv_commitStage (h : AttemptInv start runId s) {c : τ} {call : StageCall}
    {event : StageEvent} (ht : s.tx c = .stageInserted call event) :
    AttemptInv start runId { s with
      analyses := s.analyses.commit c
      events := s.events ++ [event]
      tx := Function.update s.tx c .idle
      log := .staged call.token event :: s.log } := by
  have hsame : (s.analyses.commit c).committed.find? runId = s.analyses.committed.find? runId :=
    h.view_eq (by simp [ht, written?])
  -- as after a rollback, for nothing was written; only the log is longer
  have hend := attemptInv_rollback h c
  obtain ⟨row, hr, htok, hmark⟩ := h.row
  refine ⟨⟨row, by rw [hsame]; exact hr, htok, hmark⟩, hend.staging, ?_,
    fun c' a => locked_release h c c' a, ?_, h.single⟩
  · intro c' timing ht' hnull row' hr'
    exact hend.reading c' timing ht' hnull row' (by rw [hsame] at hr'; exact hr')
  · refine stageFenced_cons h.fenced fun t' event' he => ?_
    obtain ⟨rfl, _⟩ := Commit.staged.inj he
    exact h.staging c call.token (by simp [ht, staging?])

/-- **One statement keeps the invariant**, if it keeps apart. -/
theorem attemptInv_step {s' : AttemptSystem τ} {l : AttemptLabel τ} (h : AttemptInv start runId s)
    (hok : Apart s l) (hs : s.step runId l = some s') : AttemptInv start runId s' := by
  cases l with
  | callBegin c t startedAt =>
      simp only [AttemptSystem.step] at hs
      split at hs
      · rename_i ht
        rw [← Option.some.inj hs]
        exact attemptInv_setTx h (by rw [ht]; rfl) (by simp [staging?]) (by simp [timing?])
      · exact absurd hs (by simp)
  | selectTiming c =>
      simp only [AttemptSystem.step] at hs
      split at hs
      · rename_i t startedAt ht
        have hw : written? (s.tx c) = none := by simp [ht, written?]
        rw [h.view_eq hw] at hs
        split at hs
        · rw [← Option.some.inj hs]
          exact attemptInv_rollback h c
        · -- what was read is the committed row, so a null that was read is a null now
          rename_i timing hr
          rw [← Option.some.inj hs]
          refine attemptInv_setTx h hw.symm (by simp [staging?]) ?_
          intro timing' ht' hnull row hr'
          rw [hr] at hr'
          rw [← Option.some.inj hr', Option.some.inj ht']
          exact hnull
      · exact absurd hs (by simp)
  | updateAnalysis c =>
      simp only [AttemptSystem.step] at hs
      split at hs
      · rename_i t startedAt timing ht
        split at hs
        · exact absurd hs (by simp)
        · rename_i analyses rowcount hu
          -- no row matched and the call raises, or the row is now locked
          rcases attemptInv_updateAnalysis h ht hu with ⟨rfl, rfl⟩ | ⟨rfl, hinv⟩
          · rw [requireCurrentAttempt_zero] at hs
            rw [← Option.some.inj hs]
            exact attemptInv_rollback h c
          · rw [requireCurrentAttempt_one] at hs
            rw [← Option.some.inj hs]
            exact hinv
      · exact absurd hs (by simp)
  | closeStages c =>
      simp only [AttemptSystem.step] at hs
      split at hs
      · rename_i t startedAt timing ht
        rw [← Option.some.inj hs]
        refine attemptInv_setTx h (by rw [ht]; rfl) (by simp [staging?]) ?_
        intro timing' ht'
        exact h.reading c timing' (by rw [ht]; exact ht')
      · exact absurd hs (by simp)
  | callStage c call =>
      simp only [AttemptSystem.step] at hs
      split at hs
      · rename_i ht
        rw [← Option.some.inj hs]
        exact attemptInv_setTx h (by rw [ht]; rfl) (by simp [staging?]) (by simp [timing?])
      · exact absurd hs (by simp)
  | selectToken c =>
      simp only [AttemptSystem.step] at hs
      split at hs
      · rename_i call ht
        have hw : written? (s.tx c) = none := by simp [ht, written?]
        rw [h.view_eq hw] at hs
        split at hs
        · rw [← Option.some.inj hs]
          exact attemptInv_rollback h c
        · -- the token that was found is the one of the committed row, hence of the last begin
          rename_i row hr
          rw [← Option.some.inj hs]
          refine attemptInv_setTx h hw.symm ?_ (by simp [timing?])
          intro t ht'
          obtain ⟨row', hr', htok, _⟩ := h.row
          rw [hr', Option.filter_eq_some_iff] at hr
          obtain ⟨he, hheld⟩ := hr
          rw [← Option.some.inj he] at hheld
          rw [← htok, ← ht']
          simpa [holdsToken, staging?] using hheld
      · exact absurd hs (by simp)
  | insertEvent c now =>
      simp only [AttemptSystem.step] at hs
      split at hs
      · rename_i call ht
        rw [← Option.some.inj hs]
        have hinv : AttemptInv start runId { s with nextEventId := s.nextEventId + 1 } :=
          ⟨h.row, h.staging, h.reading, h.locked, h.fenced, h.single⟩
        refine attemptInv_setTx hinv (by simp only [ht]; rfl) ?_ (by simp [timing?])
        intro t ht'
        exact h.staging c t (by rw [ht]; exact ht')
      · exact absurd hs (by simp)
  | commit c =>
      simp only [AttemptSystem.step] at hs
      split at hs
      · rename_i t startedAt timing closed ht
        rw [← Option.some.inj hs]
        refine attemptInv_commitBegin h ht ?_
        simpa [Apart, ht] using hok
      · rename_i call event ht
        rw [← Option.some.inj hs]
        exact attemptInv_commitStage h ht
      · exact absurd hs (by simp)
  | rollback c =>
      rw [← Option.some.inj hs]
      exact attemptInv_rollback h c

/--
**Fencing between statements, outside the windows.**

Take any number of concurrent `begin_analysis` and `record_stage` transactions on
a run in any state, their statements interleaved in any way. If no `begin_analysis`
commits while the `record_stage` of another attempt stands between its token check
and its own commit, nor while another `begin_analysis` that read a null start time
waits for its update, then no stage event is ever committed after the begin of a
newer attempt, and at most one begin returns `first_start = True`.
-/
theorem statement_fencing_apart {db : Db} {row : AnalysisRow} (hrow : db.row? runId = some row)
    (h : Reach (AttemptSystem.step runId) Apart (AttemptSystem.ofDb db) s) :
    StageFenced row.attemptToken s.log ∧ firstStarts s.log ≤ 1 := by
  have hinv : AttemptInv row.attemptToken runId s :=
    h.invariant (attemptInv_init hrow) fun _ hi hok hs => attemptInv_step hi hok hs
  exact ⟨hinv.fenced, hinv.single⟩

end Steps

/-! ## Calls one after another

Uninterleaved, the statements are the operations of the store.
-/

/-- Nothing in progress, and the committed tables are those of `db`. -/
structure Settled (s : AttemptSystem τ) (db : Db) : Prop where
  analyses : s.analyses.committed = db.analyses
  events : s.events = db.stageEvents
  nextEventId : s.nextEventId = db.nextEventId
  free : ∀ runId, s.analyses.lock runId = none
  idle : ∀ c, s.tx c = .idle

theorem closeEvents_openEvents (s : AttemptSystem τ) (runId : Int) :
    s.closeEvents runId (s.openEvents runId) = s.events.map (supersedeEvent runId) := by
  refine List.map_congr_left fun event hm => ?_
  split
  · rfl
  · rename_i hclosed
    unfold supersedeEvent
    rw [if_neg]
    rintro ⟨hid, hstarted⟩
    refine hclosed (List.mem_map.mpr ⟨event, List.mem_filter.mpr ⟨hm, ?_⟩, rfl⟩)
    simp [hid, hstarted]

section Alone

variable [DecidableEq τ] {runId : Int} {s₀ s : AttemptSystem τ} {db : Db}

theorem Settled.view_eq (h : Settled s db) (c : τ) : s.analyses.view c = db.analyses := by
  rw [ReadCommitted.view_of_not_own (by simp [h.free]), h.analyses]

/-- A transaction that wrote nothing, or has just ended, leaves things settled. -/
theorem Settled.end {s' : AttemptSystem τ} {db' : Db} (h : Settled s db) (c : τ)
    (hanalyses : s'.analyses.committed = db'.analyses) (hevents : s'.events = db'.stageEvents)
    (hnext : s'.nextEventId = db'.nextEventId) (hfree : ∀ runId, s'.analyses.lock runId = none)
    (htx : s'.tx = Function.update s.tx c .idle) : Settled s' db' := by
  refine ⟨hanalyses, hevents, hnext, hfree, fun c' => ?_⟩
  rw [htx, show Function.update s.tx c .idle = s.tx from
    Function.update_eq_self_iff.mpr (h.idle c).symm]
  exact h.idle c'

theorem release_of_free {analyses : ReadCommitted AnalysisRow AnalysisRow.runId τ}
    (hfree : ∀ runId, analyses.lock runId = none) (c : τ) (runId : Int) :
    analyses.release c runId = none := by
  rw [ReadCommitted.release, ReadCommitted.own_eq_none.mpr (by simp [hfree]), hfree]

/-- **`begin_analysis` on its own.** -/
theorem settled_begin (hr : Reach (AttemptSystem.step runId) anyStep s₀ s) (h : Settled s db)
    (c : τ) (t : Token) (startedAt : Instant) :
    ∃ s', Reach (AttemptSystem.step runId) anyStep s₀ s'
      ∧ Settled s' (db.beginAnalysis runId (some t) startedAt).2 := by
  have hcalled := hr.tail (l := .callBegin c t startedAt)
    (t := s.setTx c (.beginCalled t startedAt)) trivial (by simp [AttemptSystem.step, h.idle])
  unfold Db.beginAnalysis Db.transaction Db.row?
  dsimp only
  have hview : ∀ phase, (s.setTx c phase).analyses.view c = db.analyses := fun _ => h.view_eq c
  cases hrow : db.analyses.find? runId with
  | none =>
      refine ⟨_, hcalled.tail (l := .selectTiming c)
        (t := (s.setTx c (.beginCalled t startedAt)).rollback c) trivial ?_, ?_⟩
      · simp only [AttemptSystem.step, hview, hrow]
        simp [AttemptSystem.setTx]
      · exact h.end c h.analyses h.events h.nextEventId (release_of_free h.free c)
          (by simp [AttemptSystem.rollback, AttemptSystem.setTx])
  | some timing =>
      have hread := hcalled.tail (l := .selectTiming c)
        (t := s.setTx c (.beginRead t startedAt timing)) trivial (by
          simp only [AttemptSystem.step, hview, hrow]
          simp [AttemptSystem.setTx])
      obtain ⟨analyses, n, hu, hn, hcommitted, hfree⟩ := ReadCommitted.commit_updateKey (t := c)
        (k := runId) (p := mayStart (some t)) (a := beginAssignment t timing startedAt) h.free
      have hown : ∀ a, s.analyses.lock runId ≠ some (c, a) := by simp [h.free]
      dsimp only
      rw [h.analyses] at hn hcommitted
      rw [show (db.analyses.updateKey runId (mayStart (some t)) (beginValues (some t) timing startedAt)
        (beginValues_runId (some t) timing startedAt)).2 = n from hn.symm]
      rcases ReadCommitted.updateKey_cases hu hown with ⟨he, rfl, _⟩ | ⟨rfl, _, _, _⟩
      · -- the update found nothing: the call raises and is rolled back
        rw [requireCurrentAttempt_zero]
        refine ⟨_, hread.tail (l := .updateAnalysis c)
          (t := { s with analyses := analyses }.setTx c (.beginRead t startedAt timing)
            |>.rollback c) trivial ?_, ?_⟩
        · simp only [AttemptSystem.step, AttemptSystem.setTx, Function.update_self, hu,
            requireCurrentAttempt_zero]
        · subst he
          exact h.end c h.analyses h.events h.nextEventId (release_of_free h.free c)
            (by simp [AttemptSystem.rollback, AttemptSystem.setTx])
      · rw [requireCurrentAttempt_one]
        have hupdated := hread.tail (l := .updateAnalysis c)
          (t := { s with analyses := analyses }.setTx c (.beginUpdated t startedAt timing))
          trivial (by
            simp only [AttemptSystem.step, AttemptSystem.setTx, Function.update_self, hu,
              requireCurrentAttempt_one, Function.update_idem])
        have hclosed := hupdated.tail (l := .closeStages c)
          (t := { s with analyses := analyses }.setTx c
            (.beginClosed t startedAt timing (s.openEvents runId))) trivial (by
            simp only [AttemptSystem.step, AttemptSystem.setTx, Function.update_self,
              Function.update_idem]
            rfl)
        have hdone := hclosed.tail (l := .commit c)
          (t := {
            analyses := analyses.commit c
            events := s.closeEvents runId (s.openEvents runId)
            nextEventId := s.nextEventId
            tx := Function.update s.tx c .idle
            log := .begun t (analysisStart timing startedAt) :: s.log }) trivial (by
            simp only [AttemptSystem.step, AttemptSystem.setTx, Function.update_self,
              Function.update_idem]
            rfl)
        refine ⟨_, hdone, h.end c hcommitted ?_ h.nextEventId hfree rfl⟩
        rw [closeEvents_openEvents, h.events]
        rfl

/-- **`record_stage` on its own.** -/
theorem settled_recordStage (hr : Reach (AttemptSystem.step runId) anyStep s₀ s)
    (h : Settled s db) (c : τ) (call : StageCall) (now : Instant) :
    ∃ s', Reach (AttemptSystem.step runId) anyStep s₀ s'
      ∧ Settled s' (db.recordStage runId call.stage call.status call.error
        (some call.token) now).2 := by
  have hcalled := hr.tail (l := .callStage c call)
    (t := s.setTx c (.stageCalled call)) trivial (by simp [AttemptSystem.step, h.idle])
  have hview : ∀ phase, (s.setTx c phase).analyses.view c = db.analyses := fun _ => h.view_eq c
  rcases recordStage_fenced db runId call.stage call.status call.error call.token now with
    ⟨⟨row, hrow, htok⟩, _⟩ | ⟨hn, he⟩
  · have hheld : (db.analyses.find? runId).filter (holdsToken (some call.token)) = some row := by
      rw [show db.analyses.find? runId = some row from hrow]
      simp [Option.filter, holdsToken, htok]
    have hchecked := hcalled.tail (l := .selectToken c)
      (t := s.setTx c (.stageChecked call)) trivial (by
        simp only [AttemptSystem.step, hview]
        simp [AttemptSystem.setTx, hheld])
    have hinserted := hchecked.tail (l := .insertEvent c now)
      (t := { s with nextEventId := s.nextEventId + 1 }.setTx c
        (.stageInserted call (db.newEvent runId call.stage call.status call.error now))) trivial (by
        simp [AttemptSystem.step, AttemptSystem.setTx, Db.newEvent, h.nextEventId])
    have hdone := hinserted.tail (l := .commit c)
      (t := {
        analyses := s.analyses.commit c
        events := s.events ++ [db.newEvent runId call.stage call.status call.error now]
        nextEventId := s.nextEventId + 1
        tx := Function.update s.tx c .idle
        log := .staged call.token
          (db.newEvent runId call.stage call.status call.error now) :: s.log }) trivial (by
        simp [AttemptSystem.step, AttemptSystem.setTx])
    refine ⟨_, hdone, ?_⟩
    have hok : (db.recordStage runId call.stage call.status call.error (some call.token) now).2
        = { db with
            stageEvents := db.stageEvents ++
              [db.newEvent runId call.stage call.status call.error now]
            nextEventId := db.nextEventId + 1 } := by
      simp [Db.recordStage, Db.transaction, hrow, Option.filter, holdsToken, htok]
    rw [hok]
    exact h.end c (h.view_eq c) (by rw [h.events]) (by rw [h.nextEventId])
      (release_of_free h.free c) rfl
  · rw [he]
    have hheld : (db.analyses.find? runId).filter (holdsToken (some call.token)) = none := by
      cases hrow : db.analyses.find? runId with
      | none => rfl
      | some row =>
          rw [current_iff hrow] at hn
          simp [Option.filter, holdsToken, hn]
    refine ⟨_, hcalled.tail (l := .selectToken c)
      (t := (s.setTx c (.stageCalled call)).rollback c) trivial ?_, ?_⟩
    · simp only [AttemptSystem.step, hview]
      simp [AttemptSystem.setTx, hheld]
    · exact h.end c h.analyses h.events h.nextEventId (release_of_free h.free c)
        (by simp [AttemptSystem.rollback, AttemptSystem.setTx])

end Alone

/-! ## A begin inside both windows -/

/--
Attempts 1 and 2 both read a null start time. Attempt 1 begins and has the token
check of its first stage event behind it when attempt 2 begins as well.
-/
def overtaken : List (AttemptLabel Duo) :=
  [.callBegin .first 1 10, .selectTiming .first, .callBegin .second 2 11, .selectTiming .second,
    .updateAnalysis .first, .closeStages .first, .commit .first,
    .callStage .first ⟨1, .collecting, .started, none⟩, .selectToken .first,
    .updateAnalysis .second, .closeStages .second, .commit .second,
    .insertEvent .first 12, .commit .first]

theorem statement_fencing_overtaken :
    ∃ s : AttemptSystem Duo,
      Reach (AttemptSystem.step 49) anyStep (AttemptSystem.ofDb queuedDb) s
      ∧ ¬ StageFenced none s.log ∧ ¬ firstStarts s.log ≤ 1 := by
  have hlog : (exec (AttemptSystem.step 49) anyStep (AttemptSystem.ofDb queuedDb)
      overtaken).map (·.log) = some
        [.staged 1 ⟨1, 49, .collecting, .started, none, 12⟩,
          .begun 2 ⟨11, totalSeconds 11, true⟩, .begun 1 ⟨10, totalSeconds 10, true⟩] := by
    decide +kernel
  obtain ⟨s, hs, hlog⟩ := Option.map_eq_some_iff.mp hlog
  refine ⟨s, reach_of_exec Reach.init hs, ?_, ?_⟩
  · intro h
    have hlast := h [] 1 _ _ (by rw [hlog]; rfl)
    exact absurd hlast (by decide)
  · rw [hlog]
    decide

/-- The same calls, with attempt 2 beginning before attempt 1 checks its token. -/
def keptApart : List (AttemptLabel Duo) :=
  [.callBegin .first 1 10, .selectTiming .first, .updateAnalysis .first, .closeStages .first,
    .commit .first, .callBegin .second 2 11, .selectTiming .second,
    .callStage .first ⟨1, .collecting, .started, none⟩, .updateAnalysis .second,
    .closeStages .second, .commit .second, .selectToken .first,
    .callStage .second ⟨2, .collecting, .started, none⟩, .selectToken .second,
    .insertEvent .second 12, .commit .second]

theorem statement_fencing_keptApart :
    ∃ s, exec (AttemptSystem.step 49) Apart (AttemptSystem.ofDb queuedDb) keptApart = some s
      ∧ StageFenced none s.log ∧ firstStarts s.log ≤ 1 := by
  have hrun : (exec (AttemptSystem.step 49) Apart (AttemptSystem.ofDb queuedDb)
      keptApart).isSome = true := by decide +kernel
  obtain ⟨s, hs⟩ := Option.isSome_iff_exists.mp hrun
  have hrow : queuedDb.row? 49 = some (Db.insertValues queuedRecord) := by decide +kernel
  exact ⟨s, hs, statement_fencing_apart hrow (reach_of_exec Reach.init hs)⟩

end PipeLens.Proof
