import Mathlib.Data.Prod.Lex
import PipeLens.Proof.Followup
import PipeLens.Statements

/-!
# Resolution links under concurrent webhooks

Two webhooks may read the same candidate before either writes it. What keeps the
links sound is that the update repeats the part of the candidate query that
another call can falsify, and that the rest of the query is about columns no
call assigns: whatever a call read of those is still true when it writes.

`ResolutionInv` carries this across the statements of any number of calls. Its
lock clause is the crucial one: a row locked by a call still satisfies the guard
of that call, because nobody else can have written it.
-/

namespace PipeLens.Proof

open PipeLens Transition

variable {τ : Type}

/-! ## Links -/

/-- `f` is a later run of the same repository and workflow. -/
structure FollowsUp (f : FollowupRun) (row : AnalysisRow) : Prop where
  repository : row.repository = f.repository
  workflowName : row.workflowName = f.workflowName
  later : toLex (row.runId, row.runAttempt) < toLex (f.runId, f.runAttempt)

/-- The analysis carries the resolution that the call `f` gave it. -/
structure Linked (f : FollowupRun) (row : AnalysisRow) : Prop where
  follows : FollowsUp f row
  outcome : row.resolutionOutcome = some f.outcome
  runId : row.resolutionRunId = some f.runId
  runAttempt : row.resolutionRunAttempt = some f.runAttempt
  htmlUrl : row.resolutionHtmlUrl = some f.htmlUrl
  completedAt : row.resolutionCompletedAt = some f.completedAt
  recovery : ∃ d, row.recoverySeconds = some d ∧ 0 ≤ d

/-- The analysis has no resolution. -/
def Unlinked (row : AnalysisRow) : Prop :=
  resolutionFields row =
    { outcome := none, runId := none, runAttempt := none, htmlUrl := none, completedAt := none,
      recoverySeconds := none }

/-- A resolution comes from one of the calls. -/
def WellLinked (calls : List FollowupRun) (row : AnalysisRow) : Prop :=
  Unlinked row ∨ ∃ f ∈ calls, Linked f row

/-- The columns that identify an analysis, which no call assigns. -/
def identity (row : AnalysisRow) : String × String × Int × Int :=
  (row.repository, row.workflowName, row.runId, row.runAttempt)

/-- What may become of an analysis over time. -/
structure Evolves (row row' : AnalysisRow) : Prop where
  identity : identity row' = identity row
  kept : row.resolutionOutcome ≠ none → row'.resolutionOutcome ≠ none
  resolved : row.resolutionOutcome = some .resolved → resolutionFields row' = resolutionFields row
  stillFailing : row.resolutionOutcome = some .stillFailing →
    resolutionFields row' = resolutionFields row
    ∨ (row'.resolutionRunId = some row.runId
      ∧ ∃ a a', row.resolutionRunAttempt = some a ∧ row'.resolutionRunAttempt = some a' ∧ a < a')

theorem Evolves.refl (row : AnalysisRow) : Evolves row row :=
  ⟨rfl, id, fun _ => rfl, fun _ => Or.inl rfl⟩

theorem outcome_of_fields {row row' : AnalysisRow}
    (h : resolutionFields row' = resolutionFields row) :
    row'.resolutionOutcome = row.resolutionOutcome := congrArg ResolutionFields.outcome h

theorem attempt_of_fields {row row' : AnalysisRow}
    (h : resolutionFields row' = resolutionFields row) :
    row'.resolutionRunAttempt = row.resolutionRunAttempt := congrArg ResolutionFields.runAttempt h

theorem runId_of_fields {row row' : AnalysisRow}
    (h : resolutionFields row' = resolutionFields row) :
    row'.resolutionRunId = row.resolutionRunId := congrArg ResolutionFields.runId h

theorem runId_of_identity {row row' : AnalysisRow} (h : identity row' = identity row) :
    row'.runId = row.runId := congrArg (fun x => x.2.2.1) h

theorem Evolves.trans {row row' row'' : AnalysisRow} (h : Evolves row row')
    (h' : Evolves row' row'') : Evolves row row'' where
  identity := h'.identity.trans h.identity
  kept := fun ho => h'.kept (h.kept ho)
  resolved := by
    intro ho
    have hf := h.resolved ho
    exact (h'.resolved ((outcome_of_fields hf).trans ho)).trans hf
  stillFailing := by
    intro ho
    rcases h.stillFailing ho with hf | ⟨hid, a, a', ha, ha', hlt⟩
    · rcases h'.stillFailing ((outcome_of_fields hf).trans ho) with hf' | ⟨hid', b, b', hb, hb', hlt'⟩
      · exact Or.inl (hf'.trans hf)
      · rw [runId_of_identity h.identity] at hid'
        rw [attempt_of_fields hf] at hb
        exact Or.inr ⟨hid', b, b', hb, hb', hlt'⟩
    · -- the second move starts from a row that is linked to its own run
      have hkeep : resolutionFields row'' = resolutionFields row' →
          row''.resolutionRunId = some row.runId ∧ ∃ a a', row.resolutionRunAttempt = some a
            ∧ row''.resolutionRunAttempt = some a' ∧ a < a' := by
        intro hf
        exact ⟨(runId_of_fields hf).trans hid, a, a', ha, (attempt_of_fields hf).trans ha', hlt⟩
      cases ho' : row'.resolutionOutcome with
      | none => exact absurd ho' (h.kept (by simp [ho]))
      | some outcome =>
          cases outcome with
          | resolved => exact Or.inr (hkeep (h'.resolved ho'))
          | stillFailing =>
              rcases h'.stillFailing ho' with hf | ⟨hid', b, b', hb, hb', hlt'⟩
              · exact Or.inr (hkeep hf)
              · rw [runId_of_identity h.identity] at hid'
                rw [ha'] at hb
                have he := Option.some.inj hb
                exact Or.inr ⟨hid', a, b', ha, hb', by omega⟩

/-! ## What the two conditions of a call guarantee -/

/-- The part of the candidate query that no other call can falsify. -/
theorem followsUp_of_isCandidate {f : FollowupRun} {row : AnalysisRow}
    (h : f.isCandidate row = true) : FollowsUp f row := by
  have hprior := isCandidate_priorRun h
  unfold FollowupRun.isCandidate at h
  simp only [Bool.and_eq_true, beq_iff_eq] at h
  refine ⟨h.1.1.1.1, h.1.1.1.2, ?_⟩
  rw [Prod.Lex.toLex_lt_toLex]
  simpa [FollowupRun.priorRun] using hprior

theorem FollowsUp.of_identity {f : FollowupRun} {row row' : AnalysisRow} (h : FollowsUp f row)
    (hid : identity row' = identity row) : FollowsUp f row' := by
  simp only [identity, Prod.mk.injEq] at hid
  obtain ⟨hrepo, hname, hrun, hattempt⟩ := hid
  exact ⟨hrepo.trans h.repository, hname.trans h.workflowName, by rw [hrun, hattempt]; exact h.later⟩

/-- A row that satisfies the guard evolves when the call writes it. -/
theorem evolves_resolutionValues {f : FollowupRun} {row c : AnalysisRow} {now : Instant}
    (h : f.unresolvedOrSameRunRetry row = true) : Evolves row (f.resolutionValues c now row) := by
  simp only [FollowupRun.unresolvedOrSameRunRetry, Bool.or_eq_true, Bool.and_eq_true, beq_iff_eq,
    Option.any_eq_true, decide_eq_true_eq] at h
  refine ⟨rfl, fun _ => by simp [FollowupRun.resolutionValues], ?_, ?_⟩
  · intro ho
    rcases h with hn | ⟨⟨⟨_, hs⟩, _⟩, _⟩
    · rw [ho] at hn; exact absurd hn (by simp)
    · rw [ho] at hs; exact absurd hs (by simp)
  · intro ho
    rcases h with hn | ⟨⟨⟨hid, _⟩, _⟩, a, ha, hlt⟩
    · rw [ho] at hn; exact absurd hn (by simp)
    · exact Or.inr ⟨by rw [hid]; rfl, a, f.runAttempt, ha, rfl, hlt⟩

theorem linked_resolutionValues {f : FollowupRun} {row c : AnalysisRow} {now : Instant}
    (h : FollowsUp f row) : Linked f (f.resolutionValues c now row) where
  follows := h.of_identity rfl
  outcome := rfl
  runId := rfl
  runAttempt := rfl
  htmlUrl := rfl
  completedAt := rfl
  recovery := ⟨f.recoverySeconds c, rfl, le_max_left _ _⟩

theorem WellLinked.mono {calls calls' : List FollowupRun} {row : AnalysisRow}
    (h : WellLinked calls row) (hsub : ∀ f ∈ calls, f ∈ calls') : WellLinked calls' row := by
  rcases h with hn | ⟨f, hf, hl⟩
  · exact Or.inl hn
  · exact Or.inr ⟨f, hsub f hf, hl⟩

/-! ## The invariant -/

structure ResolutionInv (s : FollowupSystem τ) : Prop where
  /-- Every committed resolution comes from a call. -/
  rows : ∀ runId row, s.analyses.committed.find? runId = some row → WellLinked s.calls row
  /-- Calls in progress are recorded. -/
  called : ∀ t f, s.tx t = .called f → f ∈ s.calls
  /-- The candidate a call has read is still one it follows up. -/
  selected : ∀ t f c, s.tx t = .selected f c → f ∈ s.calls
    ∧ ∃ row, s.analyses.committed.find? c.runId = some row ∧ FollowsUp f row
  /-- A locked row still satisfies the conditions of the call that locked it. -/
  locked : ∀ runId t a, s.analyses.lock runId = some (t, a) →
    ∃ f c now row, s.tx t = .updated f ∧ a = f.assignment c now ∧ f ∈ s.calls
      ∧ s.analyses.committed.find? runId = some row ∧ FollowsUp f row
      ∧ f.unresolvedOrSameRunRetry row = true

theorem resolutionInv_init :
    ResolutionInv (FollowupSystem.ofTable Table.empty : FollowupSystem τ) where
  rows := by intro runId row h; exact absurd h (by simp [FollowupSystem.ofTable,
    ReadCommitted.ofTable, Table.find?_empty])
  called := by intro t f h; exact absurd h (by simp [FollowupSystem.ofTable])
  selected := by intro t f c h; exact absurd h (by simp [FollowupSystem.ofTable])
  locked := by intro runId t a h; exact absurd h (by simp [FollowupSystem.ofTable,
    ReadCommitted.ofTable])

/-- A transaction that has not reached its update holds no lock. -/
theorem ResolutionInv.no_lock {s : FollowupSystem τ} (h : ResolutionInv s) {t : τ}
    (ht : ∀ f, s.tx t ≠ .updated f) (runId : Int) (a : Assignment AnalysisRow.runId) :
    s.analyses.lock runId ≠ some (t, a) := by
  intro hl
  obtain ⟨f, _, _, _, htx, _⟩ := h.locked runId t a hl
  exact ht f htx

/-- Every stored analysis stays, and evolves. -/
def RowsEvolve (s s' : FollowupSystem τ) : Prop :=
  ∀ runId row, s.analyses.committed.find? runId = some row →
    ∃ row', s'.analyses.committed.find? runId = some row' ∧ Evolves row row'

theorem rowsEvolve_of_eq {s s' : FollowupSystem τ}
    (h : s'.analyses.committed = s.analyses.committed) : RowsEvolve s s' := by
  intro runId row hr
  exact ⟨row, by rw [h]; exact hr, Evolves.refl row⟩

/-! ## Preservation, one statement at a time -/

section Steps

variable {s : FollowupSystem τ}

theorem create_cases (record : AnalysisRecord) :
    s.create record = s
    ∨ ∃ analyses, s.analyses.insert (Db.insertValues record) = some analyses
      ∧ s.create record = { s with analyses := analyses } := by
  unfold FollowupSystem.create
  split
  · exact Or.inl rfl
  · split
    · exact Or.inl rfl
    · rename_i analyses hins
      exact Or.inr ⟨analyses, hins, rfl⟩

theorem resolutionInv_create (h : ResolutionInv s) (record : AnalysisRecord) :
    ResolutionInv (s.create record) ∧ RowsEvolve s (s.create record) := by
  rcases create_cases (s := s) record with he | ⟨analyses, hins, he⟩
  · rw [he]
    exact ⟨h, rowsEvolve_of_eq rfl⟩
  · rw [he]
    have hfind : ∀ k, analyses.committed.find? k
        = (if record.runId = k then some (Db.insertValues record)
          else s.analyses.committed.find? k) := fun k => (ReadCommitted.find?_insert hins).1
    have hlock : analyses.lock = s.analyses.lock :=
      (ReadCommitted.find?_insert (k := record.runId) hins).2
    have hkeep : ∀ k row, s.analyses.committed.find? k = some row →
        analyses.committed.find? k = some row :=
      fun k row hr => ReadCommitted.find?_insert_of_some hins hr
    refine ⟨⟨?_, h.called, ?_, ?_⟩, fun runId row hr => ⟨row, hkeep _ _ hr, Evolves.refl row⟩⟩
    · intro runId row hr
      rw [hfind] at hr
      split at hr
      · rw [← Option.some.inj hr]
        exact Or.inl rfl
      · exact h.rows runId row hr
    · intro t f c ht
      obtain ⟨hf, row, hr, hfu⟩ := h.selected t f c ht
      exact ⟨hf, row, hkeep _ _ hr, hfu⟩
    · intro runId t a hl
      rw [hlock] at hl
      obtain ⟨f, c, now, row, htx, ha, hf, hr, hrest⟩ := h.locked runId t a hl
      exact ⟨f, c, now, row, htx, ha, hf, hkeep _ _ hr, hrest⟩

variable [DecidableEq τ]

/-- Replacing the phase of `t` by one that claims nothing. -/
theorem resolutionInv_setTx (h : ResolutionInv s) {t : τ} {phase : FollowupTx}
    {calls : List FollowupRun} (hcalls : ∀ f ∈ s.calls, f ∈ calls)
    (hnot : ∀ f, s.tx t ≠ .updated f)
    (hcalled : ∀ f, phase = .called f → f ∈ calls)
    (hselected : ∀ f c, phase = .selected f c → f ∈ calls
      ∧ ∃ row, s.analyses.committed.find? c.runId = some row ∧ FollowsUp f row) :
    ResolutionInv { s with tx := Function.update s.tx t phase, calls := calls } where
  rows := fun runId row hr => (h.rows runId row hr).mono hcalls
  called := by
    intro t' f ht
    by_cases he : t' = t
    · subst he
      exact hcalled f (by simpa using ht)
    · exact hcalls f (h.called t' f (by simpa [Function.update_of_ne he] using ht))
  selected := by
    intro t' f c ht
    by_cases he : t' = t
    · subst he
      exact hselected f c (by simpa using ht)
    · obtain ⟨hf, hrow⟩ := h.selected t' f c (by simpa [Function.update_of_ne he] using ht)
      exact ⟨hcalls f hf, hrow⟩
  locked := by
    intro runId t' a hl
    have hne : t' ≠ t := by
      rintro rfl
      exact h.no_lock hnot runId a hl
    obtain ⟨f, c, now, row, htx, ha, hf, hrest⟩ := h.locked runId t' a hl
    exact ⟨f, c, now, row, by simpa [Function.update_of_ne hne] using htx, ha, hcalls f hf, hrest⟩

theorem resolutionInv_update (h : ResolutionInv s) {t : τ} {f : FollowupRun} {c : AnalysisRow}
    {now : Instant} {n : Nat} {analyses : ReadCommitted AnalysisRow AnalysisRow.runId τ}
    (ht : s.tx t = .selected f c)
    (hu : s.analyses.updateKey t c.runId f.unresolvedOrSameRunRetry (f.assignment c now)
      = some (analyses, n)) :
    ResolutionInv { s with analyses := analyses, tx := Function.update s.tx t (.updated f) }
    ∧ analyses.committed = s.analyses.committed := by
  have hnot : ∀ f, s.tx t ≠ .updated f := fun f he => by rw [ht] at he; exact absurd he (by simp)
  have hinv : ResolutionInv { s with tx := Function.update s.tx t (.updated f) } :=
    resolutionInv_setTx h (fun _ hf => hf) hnot (by simp) (by simp)
  rcases ReadCommitted.updateKey_cases hu (h.no_lock hnot c.runId) with
    ⟨he, _, _⟩ | ⟨_, hfree, ⟨row, hr, hp⟩, he⟩
  · rw [he]
    exact ⟨hinv, rfl⟩
  · rw [he]
    refine ⟨⟨hinv.rows, hinv.called, hinv.selected, ?_⟩, rfl⟩
    intro runId t' a hl
    by_cases hk : runId = c.runId
    · subst hk
      -- the update checks the row as it is now, not as it was when it was selected
      obtain ⟨hf, row', hr', hfu⟩ := h.selected t f c ht
      rw [hr] at hr'
      rw [← Option.some.inj hr'] at hfu
      simp only [Function.update_self, Option.some.injEq, Prod.mk.injEq] at hl
      rw [← hl.1, ← hl.2]
      exact ⟨f, c, now, row, Function.update_self .., rfl, hf, hr, hfu, hp⟩
    · exact hinv.locked runId t' a (by simpa [Function.update_of_ne hk] using hl)

/-- What is left of the invariant when `t` ends, whatever it committed. -/
theorem resolutionInv_end (h : ResolutionInv s) {t : τ}
    {committed : Table AnalysisRow AnalysisRow.runId}
    (hother : ∀ runId, (∀ a, s.analyses.lock runId ≠ some (t, a)) →
      committed.find? runId = s.analyses.committed.find? runId)
    (hown : ∀ runId row, s.analyses.committed.find? runId = some row →
      ∃ row', committed.find? runId = some row' ∧ identity row' = identity row)
    (hrows : ∀ runId row, committed.find? runId = some row → WellLinked s.calls row) :
    ResolutionInv { s with
      analyses := ⟨committed, s.analyses.release t⟩, tx := Function.update s.tx t .idle } where
  rows := hrows
  called := by
    intro t' f ht
    by_cases he : t' = t
    · subst he; exact absurd ht (by simp)
    · exact h.called t' f (by simpa [Function.update_of_ne he] using ht)
  selected := by
    intro t' f c ht
    by_cases he : t' = t
    · subst he; exact absurd ht (by simp)
    · obtain ⟨hf, row, hr, hfu⟩ := h.selected t' f c (by simpa [Function.update_of_ne he] using ht)
      obtain ⟨row', hr', hid⟩ := hown _ _ hr
      exact ⟨hf, row', hr', hfu.of_identity hid⟩
  locked := by
    intro runId t' a hl
    obtain ⟨hl', hne⟩ := ReadCommitted.release_eq_some.mp hl
    obtain ⟨f, c, now, row, htx, ha, hf, hr, hrest⟩ := h.locked runId t' a hl'
    refine ⟨f, c, now, row, by simpa [Function.update_of_ne hne] using htx, ha, hf, ?_, hrest⟩
    show committed.find? runId = some row
    rw [hother runId, hr]
    intro a' hl''
    rw [hl'] at hl''
    exact hne (congrArg Prod.fst (Option.some.inj hl''))

theorem resolutionInv_rollback (h : ResolutionInv s) (t : τ) :
    ResolutionInv { s with
      analyses := s.analyses.rollback t, tx := Function.update s.tx t .idle } :=
  resolutionInv_end h (fun _ _ => rfl) (fun _ row hr => ⟨row, hr, rfl⟩) h.rows

theorem resolutionInv_commit (h : ResolutionInv s) (t : τ) :
    ResolutionInv { s with
      analyses := s.analyses.commit t, tx := Function.update s.tx t .idle }
    ∧ RowsEvolve s { s with
      analyses := s.analyses.commit t, tx := Function.update s.tx t .idle } := by
  -- a row is left alone, or it was locked by `t` and takes the values of `t`
  have hcases : ∀ runId,
      (s.analyses.commit t).committed.find? runId = s.analyses.committed.find? runId
      ∨ ∃ f ∈ s.calls, ∃ c now row, s.analyses.committed.find? runId = some row
        ∧ (s.analyses.commit t).committed.find? runId = some (f.resolutionValues c now row)
        ∧ FollowsUp f row ∧ f.unresolvedOrSameRunRetry row = true := by
    intro runId
    by_cases hl : ∃ a, s.analyses.lock runId = some (t, a)
    · obtain ⟨a, hl⟩ := hl
      obtain ⟨f, c, now, row, _, ha, hf, hr, hfu, hp⟩ := h.locked runId t a hl
      refine Or.inr ⟨f, hf, c, now, row, hr, ?_, hfu, hp⟩
      rw [ReadCommitted.find?_commit_of_own hl, hr, ha]
      rfl
    · exact Or.inl (ReadCommitted.find?_commit_of_not_own fun a ha => hl ⟨a, ha⟩)
  have hevolve : ∀ runId row, s.analyses.committed.find? runId = some row →
      ∃ row', (s.analyses.commit t).committed.find? runId = some row' ∧ Evolves row row' := by
    intro runId row hr
    rcases hcases runId with he | ⟨f, _, c, now, row', hr', he, _, hp⟩
    · exact ⟨row, by rw [he]; exact hr, Evolves.refl row⟩
    · rw [hr] at hr'
      rw [← Option.some.inj hr'] at he hp
      exact ⟨_, he, evolves_resolutionValues hp⟩
  refine ⟨resolutionInv_end h (fun runId hl => ReadCommitted.find?_commit_of_not_own hl) ?_ ?_,
    hevolve⟩
  · intro runId row hr
    obtain ⟨row', hr', hev⟩ := hevolve runId row hr
    exact ⟨row', hr', hev.identity⟩
  · intro runId row hr
    rcases hcases runId with he | ⟨f, hf, c, now, row', _, he, hfu, _⟩
    · exact h.rows runId row (by rw [← he]; exact hr)
    · have heq := Option.some.inj (he.symm.trans hr)
      rw [← heq]
      exact Or.inr ⟨f, hf, linked_resolutionValues hfu⟩

/-- **One statement keeps the invariant, and lets every analysis evolve.** -/
theorem resolutionInv_step {backend : Backend} {s' : FollowupSystem τ} {l : FollowupLabel τ}
    (h : ResolutionInv s) (hs : s.step backend l = some s') :
    ResolutionInv s' ∧ RowsEvolve s s' := by
  cases l with
  | create record =>
      rw [← Option.some.inj hs]
      exact resolutionInv_create h record
  | call t f =>
      simp only [FollowupSystem.step] at hs
      split at hs
      · rename_i ht
        split at hs
        · rw [← Option.some.inj hs]
          refine ⟨resolutionInv_setTx h (fun _ hf => List.mem_cons_of_mem _ hf) (by simp [ht]) ?_
            (by simp), rowsEvolve_of_eq rfl⟩
          intro f' hf'
          rw [FollowupTx.called.inj hf']
          exact List.mem_cons_self
        · rw [← Option.some.inj hs]
          exact ⟨h, rowsEvolve_of_eq rfl⟩
      · exact absurd hs (by simp)
  | select t =>
      simp only [FollowupSystem.step] at hs
      split at hs
      · rename_i f ht
        have hnot : ∀ f, s.tx t ≠ .updated f := by simp [ht]
        split at hs
        · rw [← Option.some.inj hs]
          exact ⟨resolutionInv_setTx h (fun _ hf => hf) hnot (by simp) (by simp),
            rowsEvolve_of_eq rfl⟩
        · rename_i c hsel
          rw [← Option.some.inj hs]
          refine ⟨resolutionInv_setTx h (fun _ hf => hf) hnot (by simp) ?_, rowsEvolve_of_eq rfl⟩
          intro f' c' he
          obtain ⟨rfl, rfl⟩ := FollowupTx.selected.inj he
          -- the transaction has written nothing, so it sees the committed rows
          rw [ReadCommitted.view_of_not_own (h.no_lock hnot)] at hsel
          obtain ⟨hm, hc⟩ := Table.mem_of_selectFirst hsel
          exact ⟨h.called t _ ht, _, Table.find?_of_mem hm, followsUp_of_isCandidate hc⟩
      · exact absurd hs (by simp)
  | update t now =>
      simp only [FollowupSystem.step] at hs
      split at hs
      · rename_i f c ht
        split at hs
        · exact absurd hs (by simp)
        · rename_i analyses n hu
          rw [← Option.some.inj hs]
          obtain ⟨hinv, heq⟩ := resolutionInv_update h ht hu
          exact ⟨hinv, rowsEvolve_of_eq heq⟩
      · exact absurd hs (by simp)
  | commit t =>
      simp only [FollowupSystem.step] at hs
      split at hs
      · rw [← Option.some.inj hs]
        exact resolutionInv_commit h t
      · exact absurd hs (by simp)
  | rollback t =>
      rw [← Option.some.inj hs]
      exact ⟨resolutionInv_rollback h t, rowsEvolve_of_eq rfl⟩

theorem resolutionInv_reachable {backend : Backend}
    (h : Reach (FollowupSystem.step backend) anyStep (FollowupSystem.ofTable Table.empty) s) :
    ResolutionInv s :=
  h.invariant resolutionInv_init fun _ hi _ hs => (resolutionInv_step hi hs).1

/--
**Resolution links are well-founded and monotone.**

In every state reachable by any interleaving of the statements of any number of
`record_followup_run` calls and of `create_if_absent`, every resolution comes from
a call for the same repository and workflow and a lexicographically greater run
and attempt, with a recovery time that is not negative. Between any two states of
a run, a resolved analysis keeps its resolution, and one that is still failing
changes it only to a later attempt of its own run.
-/
theorem resolution_links_monotone {backend : Backend} {s' : FollowupSystem τ}
    (h : Reach (FollowupSystem.step backend) anyStep (FollowupSystem.ofTable Table.empty) s)
    (h' : Reach (FollowupSystem.step backend) anyStep s s') :
    (∀ runId row, s'.analyses.committed.find? runId = some row → WellLinked s'.calls row)
    ∧ RowsEvolve s s' := by
  have hboth : ResolutionInv s' ∧ RowsEvolve s s' := by
    induction h' with
    | init => exact ⟨resolutionInv_reachable h, rowsEvolve_of_eq rfl⟩
    | tail _ _ hs ih =>
        obtain ⟨hinv, hev⟩ := ih
        obtain ⟨hinv', hev'⟩ := resolutionInv_step hinv hs
        refine ⟨hinv', fun runId row hr => ?_⟩
        obtain ⟨row₁, hr₁, h₁⟩ := hev runId row hr
        obtain ⟨row₂, hr₂, h₂⟩ := hev' runId row₁ hr₁
        exact ⟨row₂, hr₂, h₁.trans h₂⟩
  exact ⟨hboth.1.rows, hboth.2⟩

end Steps

/-! ## Calls one after another

A call whose statements are not interleaved with any other is the operation of the
store, so everything above covers sequences of whole calls as well.
-/

/-- A store call of a webhook. -/
inductive WebhookCall where
  | create (record : AnalysisRecord)
  | followup (f : FollowupRun) (now : Instant)

def WebhookCall.apply (backend : Backend) (db : Db) : WebhookCall → Db
  | .create record => (db.createIfAbsent record).1
  | .followup f now => (db.recordFollowupRun backend f now).1

/-- Nothing in progress, and the committed analyses are those of `db`. -/
structure Quiet (s : FollowupSystem τ) (db : Db) : Prop where
  analyses : s.analyses.committed = db.analyses
  free : ∀ runId, s.analyses.lock runId = none
  idle : ∀ t, s.tx t = .idle

theorem quiet_create {s : FollowupSystem τ} {db : Db} (h : Quiet s db) (record : AnalysisRecord) :
    Quiet (s.create record) (db.createIfAbsent record).1 := by
  unfold FollowupSystem.create Db.createIfAbsent ReadCommitted.insert
  rw [h.analyses]
  split
  · exact h
  · cases db.analyses.insert (Db.insertValues record) with
    | none => exact h
    | some analyses => exact ⟨rfl, h.free, h.idle⟩

theorem quiet_followup [DecidableEq τ] {backend : Backend} {s₀ s : FollowupSystem τ} {db : Db}
    (t : τ) (hr : Reach (FollowupSystem.step backend) anyStep s₀ s) (h : Quiet s db)
    (f : FollowupRun) (now : Instant) :
    ∃ s', Reach (FollowupSystem.step backend) anyStep s₀ s'
      ∧ Quiet s' (db.recordFollowupRun backend f now).1 := by
  unfold Db.recordFollowupRun
  by_cases ht : f.isTracked = true
  · rw [if_pos ht]
    -- the four statements in a row, with the database of the operation after each
    have hidle : ∀ t', Function.update s.tx t .idle t' = .idle := by
      intro t'
      rw [show Function.update s.tx t .idle = s.tx from
        Function.update_eq_self_iff.mpr (h.idle t).symm]
      exact h.idle t'
    have hcalled : Reach (FollowupSystem.step backend) anyStep s₀
        { s with tx := Function.update s.tx t (.called f), calls := f :: s.calls } :=
      hr.tail (l := .call t f) trivial (by simp [FollowupSystem.step, h.idle, ht])
    have hview : s.analyses.view t = db.analyses := by
      rw [ReadCommitted.view_of_not_own (by simp [h.free]), h.analyses]
    cases hsel : db.analyses.selectFirst f.isCandidate (listedBefore backend) with
    | none =>
        have hdone := hcalled.tail (l := .select t)
          (t := { s with tx := Function.update s.tx t .idle, calls := f :: s.calls })
          trivial (by
            simp only [FollowupSystem.step, Function.update_self, hview, hsel,
              Function.update_idem])
        exact ⟨_, hdone, h.analyses, h.free, hidle⟩
    | some c =>
        obtain ⟨analyses, n, hu, _, hcommitted, hfree⟩ := ReadCommitted.commit_updateKey (t := t)
          (k := c.runId) (p := f.unresolvedOrSameRunRetry) (a := f.assignment c now) h.free
        have hselected := hcalled.tail (l := .select t)
          (t := { s with tx := Function.update s.tx t (.selected f c), calls := f :: s.calls })
          trivial (by
            simp only [FollowupSystem.step, Function.update_self, hview, hsel,
              Function.update_idem])
        have hupdated := hselected.tail (l := .update t now)
          (t := ⟨analyses, Function.update s.tx t (.updated f), f :: s.calls⟩) trivial (by
            simp only [FollowupSystem.step, Function.update_self, hu, Function.update_idem])
        have hdone := hupdated.tail (l := .commit t)
          (t := ⟨analyses.commit t, Function.update s.tx t .idle, f :: s.calls⟩) trivial (by
            simp only [FollowupSystem.step, Function.update_self, Function.update_idem])
        refine ⟨_, hdone, ?_, hfree, hidle⟩
        rw [hcommitted, h.analyses]
        dsimp only
        split <;> rfl
  · rw [if_neg ht]
    exact ⟨s, hr, h⟩

/-- **Whole calls are a special case.** -/
theorem calls_reachable [DecidableEq τ] (t : τ) (backend : Backend) (calls : List WebhookCall) :
    ∀ {s₀ s : FollowupSystem τ} {db : Db},
      Reach (FollowupSystem.step backend) anyStep s₀ s → Quiet s db →
      ∃ s' : FollowupSystem τ, Reach (FollowupSystem.step backend) anyStep s₀ s'
        ∧ Quiet s' (calls.foldl (WebhookCall.apply backend) db) := by
  induction calls with
  | nil => intro s₀ s db hr h; exact ⟨s, hr, h⟩
  | cons call calls ih =>
      intro s₀ s db hr h
      cases call with
      | create record =>
          exact ih (hr.tail (l := .create record) trivial rfl) (quiet_create h record)
      | followup f now =>
          obtain ⟨s', hr', h'⟩ := quiet_followup t hr h f now
          exact ih hr' h'

/-! ## A race for one failure -/

/-- A rerun of run 50, and run 51 of the same branch. -/
def followupOnMain (runId runAttempt : Int) (conclusion : String) : FollowupRun :=
  { repository := "acme/example", workflowName := "CI", headBranch := some "main",
    pullRequestNumber := none, runId := runId, runAttempt := runAttempt,
    htmlUrl := "https://github.com/acme/example/actions/runs/50", conclusion := conclusion,
    completedAt := 60000000 }

/-- Both webhooks read the failure of run 50 as their candidate; the rerun writes first. -/
def raceStart : List (FollowupLabel Duo) :=
  [.create (failureOnMain 50 "delivery-50" 0), .call .first (followupOnMain 50 2 "failure"),
    .call .second (followupOnMain 51 1 "success"), .select .first, .select .second,
    .update .first 61000000, .commit .first]

/-- The update of the other one then no longer matches; a third attempt does. -/
def raceEnd : List (FollowupLabel Duo) :=
  [.update .second 62000000, .commit .second,
    .call .first (followupOnMain 50 3 "success"), .select .first,
    .update .first 63000000, .commit .first]

theorem resolution_links_race :
    ∃ s s', exec (FollowupSystem.step .postgresql) anyStep
        (FollowupSystem.ofTable Table.empty) raceStart = some s
      ∧ exec (FollowupSystem.step .postgresql) anyStep s raceEnd = some s'
      ∧ RowsEvolve s s' := by
  have hrun : ((exec (FollowupSystem.step .postgresql) anyStep
      (FollowupSystem.ofTable Table.empty) raceStart).bind fun s =>
        exec (FollowupSystem.step .postgresql) anyStep s raceEnd).isSome = true := by
    decide +kernel
  obtain ⟨s', hs'⟩ := Option.isSome_iff_exists.mp hrun
  obtain ⟨s, hs, hs'⟩ := Option.bind_eq_some_iff.mp hs'
  exact ⟨s, s', hs, hs', (resolution_links_monotone (reach_of_exec Reach.init hs)
    (reach_of_exec Reach.init hs')).2⟩

end PipeLens.Proof
