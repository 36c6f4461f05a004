import PipeLens.Proof.Followup

/-!
# The failure chain of one target

Delivered in order, the completed runs of one workflow on one branch or pull
request form a chain: each failure is linked to the run right after it. No query
asks for that run. `record_followup_run` takes the newest unresolved failure it
finds, and what makes this the right one is that there is never another: a delivery
resolves the failure before it, if there is one, and only then adds its own.

`ChainState` is that invariant, with what the deliveries still to come rely on.
-/

namespace PipeLens.Proof

open PipeLens

/-! ## Deliveries -/

/-- One delivery of a completed run; a payload of a failure has all that is stored of it. -/
structure Delivery where
  run : CompletedRun
  deliveryId : String
  clock : HandlingClock
  queue : QueueReply
  complete : run.conclusion = .failure →
    run.installationId.isSome = true ∧ run.headSha.isSome = true

namespace Delivery

def completedAt (d : Delivery) : Instant := d.run.completedAt d.clock

def followup (d : Delivery) : FollowupRun := d.run.followup d.clock

def failed (d : Delivery) : Prop := d.run.conclusion = .failure

instance (d : Delivery) : Decidable d.failed := inferInstanceAs (Decidable (_ = _))

end Delivery

/-- What the handler leaves of the store. -/
def deliver (backend : Backend) (db : Db) (d : Delivery) : Db :=
  (githubWebhook backend db d.run d.deliveryId d.clock d.queue).1

/-- What the runs of a chain have in common besides the repository and the workflow. -/
inductive Target where
  | branch (name : String)
  | pullRequest (number : Int)
  deriving DecidableEq, Repr

def Target.Covers (run : CompletedRun) : Target → Prop
  | .branch name => run.pullRequestNumber = none ∧ run.headBranch = some name
  | .pullRequest number => run.pullRequestNumber = some number

/-- The resolution a failure should end up with, given the delivery after it. -/
def chainedTo (d : Delivery) : Option Delivery → ResolutionFields
  | none => ⟨none, none, none, none, none, none⟩
  | some next =>
      { outcome := some (if next.run.conclusion = .success then .resolved else .stillFailing)
        runId := some next.run.runId
        runAttempt := some next.run.runAttempt
        htmlUrl := some next.run.htmlUrl
        completedAt := some next.completedAt
        recoverySeconds := some (totalSeconds (next.completedAt - d.completedAt)) }

/-- Completed runs of one workflow on one target, delivered once each and in order. -/
structure InOrder (repository workflowName : String) (target : Target)
    (deliveries : List Delivery) : Prop where
  repository : ∀ d ∈ deliveries, d.run.repository = repository
  workflowName : ∀ d ∈ deliveries, d.run.workflowName = workflowName
  target : ∀ d ∈ deliveries, target.Covers d.run
  firstAttempt : ∀ d ∈ deliveries, d.run.runAttempt = 1
  runIds : deliveries.Pairwise fun d d' => d.run.runId < d'.run.runId
  times : deliveries.Pairwise fun d d' => d.completedAt ≤ d'.completedAt
  /-- Every delivery has an id of its own. -/
  once : deliveries.Pairwise fun d d' => d.deliveryId ≠ d'.deliveryId

/-- The store has seen nothing of the repository, nor of these deliveries. -/
structure Unseen (repository : String) (db : Db) (deliveries : List Delivery) : Prop where
  clean : ∀ runId row, db.row? runId = some row → row.repository ≠ repository
  /-- Run ids are unique across repositories. -/
  newRuns : ∀ d ∈ deliveries, db.row? d.run.runId = none
  newDeliveries : ∀ d ∈ deliveries, ∀ runId row, db.row? runId = some row →
    row.deliveryId ≠ d.deliveryId

/-! ## What one delivery does -/

section Delivery

variable {backend : Backend} {db : Db} {d : Delivery}

theorem outcome_followup (d : Delivery) : d.followup.outcome
    = if d.run.conclusion = .success then .resolved else .stillFailing := by
  unfold FollowupRun.outcome Delivery.followup CompletedRun.followup
  cases d.run.conclusion <;> rfl

/-- Every delivery on a target asks for candidates. -/
theorem isTracked_of_covers {target : Target} (h : target.Covers d.run) :
    d.followup.isTracked = true := by
  have hconclusion : (d.followup.conclusion == "success" || d.followup.conclusion == "failure")
      = true := by
    unfold Delivery.followup CompletedRun.followup
    cases d.run.conclusion <;> rfl
  unfold FollowupRun.isTracked
  rw [hconclusion]
  cases target with
  | branch name => simp [Delivery.followup, CompletedRun.followup, h.2]
  | pullRequest number =>
      have hnumber : d.run.pullRequestNumber = some number := h
      simp [Delivery.followup, CompletedRun.followup, hnumber]

/-- Rows of one target match each other. -/
theorem targetMatch_of_covers {target : Target} {run : CompletedRun} {row : AnalysisRow}
    (hd : target.Covers d.run) (hrun : target.Covers run) (hbranch : row.headBranch = run.headBranch)
    (hnumber : row.pullRequestNumber = run.pullRequestNumber) :
    d.followup.targetMatch row = true := by
  unfold FollowupRun.targetMatch Delivery.followup CompletedRun.followup
  cases target with
  | branch name => simp [hd.1, hd.2, hbranch, hrun.2]
  | pullRequest number =>
      have hdn : d.run.pullRequestNumber = some number := hd
      have hrn : run.pullRequestNumber = some number := hrun
      simp [hdn, hnumber, hrn]

/-- The row a failed run is stored as. -/
def Delivery.Stores (d : Delivery) (row : AnalysisRow) : Prop :=
  row.runId = d.run.runId ∧ row.repository = d.run.repository
  ∧ row.workflowName = d.run.workflowName ∧ row.runAttempt = d.run.runAttempt
  ∧ row.headBranch = d.run.headBranch ∧ row.pullRequestNumber = d.run.pullRequestNumber
  ∧ row.runCompletedAt = some d.completedAt ∧ resolutionFields row = chainedTo d none

theorem createIfAbsent_fresh (record : AnalysisRecord) (hrun : db.row? record.runId = none)
    (hdelivery : ∀ runId row, db.row? runId = some row → row.deliveryId ≠ record.deliveryId) :
    (db.createIfAbsent record).1.row? record.runId = some (Db.insertValues record) := by
  have hnew : db.analyses.rows.any (fun row => row.deliveryId == record.deliveryId) ≠ true := by
    simp only [ne_eq, List.any_eq_true, beq_iff_eq, not_exists, not_and]
    exact fun row hm => hdelivery row.runId row (Table.find?_of_mem hm)
  unfold Db.createIfAbsent
  rw [if_neg hnew]
  cases hins : db.analyses.insert (Db.insertValues record) with
  | none =>
      rw [Table.insert_eq_none] at hins
      rw [show db.analyses.find? (Db.insertValues record).runId = none from hrun] at hins
      exact absurd hins (by simp)
  | some analyses =>
      show analyses.find? record.runId = _
      rw [Table.find?_insert hins]
      exact if_pos rfl

theorem runId_of_row? {runId : Int} {row : AnalysisRow} (h : db.row? runId = some row) :
    row.runId = runId := Table.key_of_find? h

/-- The rows of other runs are those that the follow-up call leaves. -/
theorem deliver_row?_ne {runId : Int} (hne : runId ≠ d.run.runId) :
    (deliver backend db d).row? runId
      = (db.recordFollowupRun backend d.followup d.clock.linkedAt).1.row? runId := by
  rcases githubWebhook_row? backend db d.run d.deliveryId d.clock d.queue runId with
    h | ⟨_, row, hid, _, hrow⟩
  · exact h
  · exact absurd ((runId_of_row? hrow).symm.trans hid) hne

/-- The follow-up call changes no delivery id, and adds no row. -/
theorem followup_deliveryId {runId : Int} {row : AnalysisRow}
    (h : (db.recordFollowupRun backend d.followup d.clock.linkedAt).1.row? runId = some row) :
    ∃ old, db.row? runId = some old ∧ row.deliveryId = old.deliveryId := by
  obtain ⟨old, hold, hsame, _⟩ := followup_row? h
  exact ⟨old, hold, hsame.deliveryId⟩

/-- A failure that is new to the store is stored. -/
theorem deliver_stores (hfailed : d.failed) (hrun : db.row? d.run.runId = none)
    (hdelivery : ∀ runId row, db.row? runId = some row → row.deliveryId ≠ d.deliveryId) :
    ∃ row, (deliver backend db d).row? d.run.runId = some row ∧ d.Stores row
      ∧ row.deliveryId = d.deliveryId := by
  obtain ⟨hinst, hsha⟩ := d.complete hfailed
  obtain ⟨installationId, hinst⟩ := Option.isSome_iff_exists.mp hinst
  obtain ⟨headSha, hsha⟩ := Option.isSome_iff_exists.mp hsha
  have hconclusion : d.run.conclusion = .failure := hfailed
  have habsent : (db.recordFollowupRun backend d.followup d.clock.linkedAt).1.row? d.run.runId
      = none := by
    cases h : (db.recordFollowupRun backend d.followup d.clock.linkedAt).1.row? d.run.runId with
    | none => rfl
    | some row =>
        obtain ⟨old, hold, _⟩ := followup_deliveryId h
        rw [hrun] at hold
        exact absurd hold (by simp)
  have hcreated := createIfAbsent_fresh
    (d.run.record d.deliveryId headSha installationId d.clock) habsent
    (fun runId row hrow => by
      obtain ⟨old, hold, hid⟩ := followup_deliveryId hrow
      rw [hid]
      exact hdelivery runId old hold)
  refine ⟨Db.insertValues (d.run.record d.deliveryId headSha installationId d.clock), ?_,
    ⟨rfl, rfl, rfl, rfl, rfl, rfl, rfl, rfl⟩, rfl⟩
  unfold deliver githubWebhook
  rw [hconclusion, hinst, hsha]
  exact hcreated

/-- A success adds nothing. -/
theorem deliver_success (h : ¬ d.failed) (runId : Int) :
    (deliver backend db d).row? runId
      = (db.recordFollowupRun backend d.followup d.clock.linkedAt).1.row? runId := by
  unfold deliver githubWebhook
  cases hc : d.run.conclusion with
  | success => rfl
  | failure => exact absurd hc h

end Delivery

/-! ## The invariant -/

section Chain

variable {backend : Backend} {repository workflowName : String} {target : Target} {db : Db}
  {last : Option Delivery} {d : Delivery} {rest : List Delivery}

/-- The store after some deliveries, `last` being the latest, with `rest` still to come. -/
structure ChainState (repository workflowName : String) (target : Target) (db : Db)
    (last : Option Delivery) (rest : List Delivery) : Prop where
  inOrder : InOrder repository workflowName target (last.toList ++ rest)
  /-- At most one failure is unresolved, and it is the latest run. -/
  unresolved : ∀ runId row, db.row? runId = some row → row.repository = repository →
    row.resolutionOutcome = none → ∃ p, last = some p ∧ p.failed ∧ runId = p.run.runId
  latest : ∀ p, last = some p → p.failed →
    ∃ row, db.row? p.run.runId = some row ∧ p.Stores row
  /-- What is stored came before what is still to come. -/
  below : ∀ runId row, db.row? runId = some row → row.repository = repository →
    ∀ d ∈ rest, runId < d.run.runId
  newRuns : ∀ d ∈ rest, db.row? d.run.runId = none
  newDeliveries : ∀ d ∈ rest, ∀ runId row, db.row? runId = some row →
    row.deliveryId ≠ d.deliveryId

theorem InOrder.sublist {ds ds' : List Delivery} (h : InOrder repository workflowName target ds)
    (hsub : ds'.Sublist ds) : InOrder repository workflowName target ds' where
  repository := fun d hd => h.repository d (hsub.subset hd)
  workflowName := fun d hd => h.workflowName d (hsub.subset hd)
  target := fun d hd => h.target d (hsub.subset hd)
  firstAttempt := fun d hd => h.firstAttempt d (hsub.subset hd)
  runIds := h.runIds.sublist hsub
  times := h.times.sublist hsub
  once := h.once.sublist hsub

theorem chainState_init (h : InOrder repository workflowName target rest)
    (hdb : Unseen repository db rest) : ChainState repository workflowName target db none rest where
  inOrder := h
  unresolved := fun runId row hr hrepo => absurd hrepo (hdb.clean runId row hr)
  latest := by intro p hp; exact absurd hp (by simp)
  below := fun runId row hr hrepo => absurd hrepo (hdb.clean runId row hr)
  newRuns := hdb.newRuns
  newDeliveries := hdb.newDeliveries

namespace ChainState

variable (h : ChainState repository workflowName target db last (d :: rest))

include h

theorem head : InOrder repository workflowName target (d :: rest) :=
  h.inOrder.sublist (List.sublist_append_right ..)

/-- The only candidate there can be is the failure right before. -/
theorem candidate_eq {c : AnalysisRow} (hc : c ∈ candidates db d.followup) :
    ∃ p, last = some p ∧ p.failed ∧ c.runId = p.run.runId := by
  obtain ⟨_, hrow, hcand⟩ := mem_candidates.mp hc
  have hguard := isCandidate_guard hcand
  unfold FollowupRun.isCandidate at hcand
  simp only [Bool.and_eq_true, beq_iff_eq] at hcand
  have hrepo : c.repository = repository := by
    rw [hcand.1.1.1.1]
    exact h.head.repository d List.mem_cons_self
  have hlt := h.below c.runId c hrow hrepo d List.mem_cons_self
  refine h.unresolved c.runId c hrow hrepo ?_
  -- an earlier run cannot be an attempt of the same run
  unfold FollowupRun.unresolvedOrSameRunRetry at hguard
  have hne : (c.runId == d.followup.runId) = false := by
    simp only [Delivery.followup, CompletedRun.followup, beq_eq_false_iff_ne]
    omega
  rw [hne] at hguard
  simpa using hguard

theorem candidate_latest {p : Delivery} (hp : last = some p) {row : AnalysisRow}
    (hrow : db.row? p.run.runId = some row) (hs : p.Stores row) :
    row ∈ candidates db d.followup := by
  subst hp
  have hmem : p ∈ (some p).toList ++ d :: rest := by simp
  obtain ⟨hid, hrepo, hname, hattempt, hbranch, hnumber, _, hfields⟩ := hs
  have hcovers := h.head.target d List.mem_cons_self
  have hlt := h.below p.run.runId row hrow
    (hrepo.trans (h.inOrder.repository p hmem)) d List.mem_cons_self
  refine mem_candidates.mpr ⟨isTracked_of_covers hcovers, by rw [hid]; exact hrow, ?_⟩
  have hopen : row.resolutionOutcome = none := congrArg ResolutionFields.outcome hfields
  have hmatch := targetMatch_of_covers (d := d) hcovers (h.inOrder.target p hmem) hbranch hnumber
  unfold FollowupRun.isCandidate
  rw [hmatch]
  simp only [FollowupRun.unresolvedOrSameRunRetry, FollowupRun.priorRun, hopen, hrepo, hname, hid,
    h.inOrder.repository p hmem, h.inOrder.workflowName p hmem, Delivery.followup,
    CompletedRun.followup, h.head.repository d List.mem_cons_self,
    h.head.workflowName d List.mem_cons_self]
  simp [hlt]

/-- **A resolved failure keeps its resolution.** -/
theorem keeps {runId : Int} {row : AnalysisRow} (hrow : db.row? runId = some row)
    (hrepo : row.repository = repository) (hres : row.resolutionOutcome ≠ none) :
    (deliver backend db d).row? runId = some row := by
  have hlt := h.below runId row hrow hrepo d List.mem_cons_self
  rw [deliver_row?_ne (by omega)]
  rcases recordFollowupRun_cases backend db d.followup d.clock.linkedAt with
    ⟨_, heq⟩ | ⟨c, hc, hrows⟩
  · rw [heq]
    exact hrow
  · rw [hrows, if_neg, hrow]
    intro he
    obtain ⟨_, hcrow, _⟩ := mem_candidates.mp hc
    obtain ⟨p, hp, hfailed, hid⟩ := h.candidate_eq hc
    obtain ⟨row', hrow', hs⟩ := h.latest p hp hfailed
    rw [← hid, ← he, hrow] at hrow'
    rw [Option.some.inj hrow'] at hres
    exact hres (congrArg ResolutionFields.outcome hs.2.2.2.2.2.2.2)

/-- **The failure right before is linked to the delivery.** -/
theorem links (backend : Backend) {p : Delivery} (hp : last = some p) (hfailed : p.failed) :
    ∃ row, (deliver backend db d).row? p.run.runId = some row ∧ row.repository = repository
      ∧ resolutionFields row = chainedTo p (some d) := by
  obtain ⟨row, hrow, hs⟩ := h.latest p hp hfailed
  have hc := h.candidate_latest hp hrow hs
  subst hp
  have hmem : p ∈ (some p).toList ++ d :: rest := by simp
  have hrepo := hs.2.1.trans (h.inOrder.repository p hmem)
  have hlt := h.below p.run.runId row hrow hrepo d List.mem_cons_self
  rw [deliver_row?_ne (by omega)]
  rcases recordFollowupRun_cases backend db d.followup d.clock.linkedAt with
    ⟨hnil, _⟩ | ⟨c, hc', hrows⟩
  · rw [hnil] at hc
    exact absurd hc (by simp)
  · obtain ⟨p', hp', _, hid⟩ := h.candidate_eq hc'
    rw [← Option.some.inj hp'] at hid
    have hcrow := (mem_candidates.mp hc').2.1
    rw [hid, hrow] at hcrow
    have heq := Option.some.inj hcrow
    subst heq
    refine ⟨d.followup.resolutionValues row d.clock.linkedAt row,
      by rw [hrows, if_pos hid.symm], hrepo, ?_⟩
    -- the times do not decrease, so `max 0` has no effect
    have htime : p.completedAt ≤ d.completedAt := by
      have hpair := h.inOrder.times
      rw [List.pairwise_append] at hpair
      exact hpair.2.2 p (by simp) d List.mem_cons_self
    have hrecovery : d.followup.recoverySeconds row
        = totalSeconds (d.completedAt - p.completedAt) := by
      unfold FollowupRun.recoverySeconds
      rw [hs.2.2.2.2.2.2.1]
      exact max_eq_right (totalSeconds_nonneg (Int.sub_nonneg_of_le htime))
    simp only [resolutionFields, FollowupRun.resolutionValues, chainedTo, outcome_followup,
      hrecovery]
    rfl

/-- A row after the delivery is the delivered failure, or stems from a row before it. -/
theorem row_before {runId : Int} {row : AnalysisRow}
    (hrow : (deliver backend db d).row? runId = some row) :
    (runId = d.run.runId ∧ d.failed ∧ row.deliveryId = d.deliveryId)
    ∨ (runId ≠ d.run.runId ∧ ∃ old, db.row? runId = some old ∧ row.deliveryId = old.deliveryId
      ∧ row.repository = old.repository
      ∧ (row.resolutionOutcome = none → row = old ∧ old ∉ candidates db d.followup)) := by
  have hnew := h.newRuns d List.mem_cons_self
  by_cases hid : runId = d.run.runId
  · subst hid
    by_cases hfailed : d.failed
    · obtain ⟨row', hrow', _, hdelivery⟩ :=
        deliver_stores hfailed hnew (h.newDeliveries d List.mem_cons_self)
      rw [hrow] at hrow'
      rw [Option.some.inj hrow']
      exact Or.inl ⟨rfl, hfailed, hdelivery⟩
    · rw [deliver_success hfailed] at hrow
      obtain ⟨old, hold, _⟩ := followup_deliveryId hrow
      rw [hnew] at hold
      exact absurd hold (by simp)
  · refine Or.inr ⟨hid, ?_⟩
    rw [deliver_row?_ne hid] at hrow
    rcases recordFollowupRun_cases backend db d.followup d.clock.linkedAt with
      ⟨hnil, heq⟩ | ⟨c, hc, hrows⟩
    · rw [heq] at hrow
      exact ⟨row, hrow, rfl, rfl, fun _ => ⟨rfl, by rw [hnil]; simp⟩⟩
    · rw [hrows] at hrow
      by_cases he : runId = c.runId
      · rw [if_pos he] at hrow
        rw [he, ← Option.some.inj hrow]
        exact ⟨c, (mem_candidates.mp hc).2.1, rfl, rfl,
          fun hn => absurd hn (by simp [FollowupRun.resolutionValues])⟩
      · rw [if_neg he] at hrow
        refine ⟨row, hrow, rfl, rfl, fun _ => ⟨rfl, fun hm => he ?_⟩⟩
        obtain ⟨p, hp, _, hpid⟩ := h.candidate_eq hc
        obtain ⟨p', hp', _, hpid'⟩ := h.candidate_eq hm
        rw [hp] at hp'
        rw [← runId_of_row? hrow, hpid', hpid, Option.some.inj hp']

/-- What the deliveries after this one can rely on. -/
theorem step (backend : Backend) :
    ChainState repository workflowName target (deliver backend db d) (some d) rest := by
  have hlt : ∀ d' ∈ rest, d.run.runId < d'.run.runId :=
    (List.pairwise_cons.mp h.head.runIds).1
  refine ⟨h.head, ?_, ?_, ?_, ?_, ?_⟩
  · intro runId row hrow hrepo hopen
    rcases h.row_before hrow with ⟨hid, hfailed, _⟩ | ⟨_, old, hold, _, hrepo', hcand⟩
    · exact ⟨d, rfl, hfailed, hid⟩
    · -- an unresolved failure was a candidate, so the delivery has resolved it
      exfalso
      obtain ⟨heq, hnot⟩ := hcand hopen
      subst heq
      obtain ⟨p, hp, hfailed, hid⟩ := h.unresolved runId row hold hrepo hopen
      obtain ⟨row', hrow', hs⟩ := h.latest p hp hfailed
      rw [← hid, hold] at hrow'
      rw [← Option.some.inj hrow'] at hs
      rw [hid] at hold
      exact hnot (h.candidate_latest hp hold hs)
  · intro p hp hfailed
    rw [← Option.some.inj hp] at hfailed ⊢
    obtain ⟨row, hrow, hs, _⟩ := deliver_stores hfailed (h.newRuns d List.mem_cons_self)
      (h.newDeliveries d List.mem_cons_self)
    exact ⟨row, hrow, hs⟩
  · intro runId row hrow hrepo d' hd'
    rcases h.row_before hrow with ⟨hid, _⟩ | ⟨_, old, hold, _, hrepo', _⟩
    · rw [hid]
      exact hlt d' hd'
    · exact h.below runId old hold (hrepo'.symm.trans hrepo) d' (List.mem_cons_of_mem _ hd')
  · intro d' hd'
    cases hrow : (deliver backend db d).row? d'.run.runId with
    | none => rfl
    | some row =>
        rcases h.row_before hrow with ⟨hid, _⟩ | ⟨_, old, hold, _⟩
        · exact absurd (hlt d' hd') (by omega)
        · rw [h.newRuns d' (List.mem_cons_of_mem _ hd')] at hold
          exact absurd hold (by simp)
  · intro d' hd' runId row hrow
    rcases h.row_before hrow with ⟨_, _, hdelivery⟩ | ⟨_, old, hold, hdelivery, _⟩
    · rw [hdelivery]
      exact (List.pairwise_cons.mp h.head.once).1 d' hd'
    · rw [hdelivery]
      exact h.newDeliveries d' (List.mem_cons_of_mem _ hd') runId old hold

end ChainState

/-! ## Whole lists of deliveries -/

/-- Once a failure is resolved, no later delivery touches it. -/
theorem ChainState.keeps_all (h : ChainState repository workflowName target db last rest)
    {runId : Int} {row : AnalysisRow} (hrow : db.row? runId = some row)
    (hrepo : row.repository = repository) (hres : row.resolutionOutcome ≠ none) :
    (rest.foldl (deliver backend) db).row? runId = some row := by
  induction rest generalizing db last with
  | nil => exact hrow
  | cons d rest ih =>
      rw [List.foldl_cons]
      exact ih (h.step backend) (h.keeps hrow hrepo hres)

/-- The failure at the end of what was delivered is linked to what comes next. -/
theorem ChainState.last_linked (h : ChainState repository workflowName target db last rest)
    {p : Delivery} (hp : last = some p) (hfailed : p.failed) :
    ∃ row, (rest.foldl (deliver backend) db).row? p.run.runId = some row
      ∧ resolutionFields row = chainedTo p rest.head? := by
  cases rest with
  | nil =>
      obtain ⟨row, hrow, hs⟩ := h.latest p hp hfailed
      exact ⟨row, hrow, hs.2.2.2.2.2.2.2⟩
  | cons d rest =>
      obtain ⟨row, hrow, hrepo, hfields⟩ := h.links backend hp hfailed
      refine ⟨row, ?_, hfields⟩
      have hres : row.resolutionOutcome ≠ none := by
        have houtcome : row.resolutionOutcome = _ := congrArg ResolutionFields.outcome hfields
        rw [houtcome]
        exact Option.some_ne_none _
      rw [List.foldl_cons]
      exact (h.step backend).keeps_all hrow hrepo hres

theorem ChainState.linked (h : ChainState repository workflowName target db last rest) {i : Nat}
    (hi : rest[i]? = some d) (hfailed : d.failed) :
    ∃ row, (rest.foldl (deliver backend) db).row? d.run.runId = some row
      ∧ resolutionFields row = chainedTo d rest[i + 1]? := by
  induction rest generalizing db last i with
  | nil => exact absurd hi (by simp)
  | cons d' rest ih =>
      rw [List.foldl_cons]
      cases i with
      | zero =>
          have heq : d' = d := by simpa using hi
          subst heq
          have hnext : (d' :: rest)[0 + 1]? = rest.head? := by
            rw [List.getElem?_cons_succ, List.head?_eq_getElem?]
          rw [hnext]
          exact (h.step backend).last_linked rfl hfailed
      | succ i =>
          rw [List.getElem?_cons_succ] at hi
          rw [List.getElem?_cons_succ]
          exact ih (h.step backend) hi

end Chain

/-- **The exact failure chain.** Every failure ends up linked to the run right after it,
and the one that nothing follows to none. -/
theorem failure_chain (backend : Backend) {repository workflowName : String} {target : Target}
    {deliveries : List Delivery} (horder : InOrder repository workflowName target deliveries)
    {db : Db} (hdb : Unseen repository db deliveries) {i : Nat} {d : Delivery}
    (hi : deliveries[i]? = some d) (hfailed : d.failed) :
    ∃ row, (deliveries.foldl (deliver backend) db).row? d.run.runId = some row
      ∧ resolutionFields row = chainedTo d deliveries[i + 1]? :=
  (chainState_init horder hdb).linked hi hfailed

theorem firstAttempt_pos : (1 : Int) ≤ 1 := le_refl 1

/-- A run of `acme/widgets` on `main`. -/
def widgetDelivery (runId : Int) (conclusion : Conclusion) (completedAt : Instant) : Delivery where
  run :=
    { repository := "acme/widgets", runId := runId, runAttempt := 1
      runAttempt_pos := firstAttempt_pos
      workflowName := "CI", headBranch := some "main", pullRequestNumber := none
      updatedAt := some completedAt, htmlUrl := "https://github.com/acme/widgets/actions"
      conclusion := conclusion, headSha := some "abc123", installationId := some 5 }
  deliveryId := "delivery-" ++ toString runId
  clock := ⟨completedAt, completedAt, completedAt⟩
  queue := { enqueued := some true }
  complete := fun _ => ⟨rfl, rfl⟩

/-- Two failures and a success: the first is still failing, the second is resolved. -/
def widgetDeliveries : List Delivery :=
  [widgetDelivery 77 .failure 100, widgetDelivery 78 .failure 160, widgetDelivery 80 .success 220]

theorem failure_chain_widgets :
    ∃ row, (widgetDeliveries.foldl (deliver .sqlite) Db.empty).row? 78 = some row
      ∧ resolutionFields row = chainedTo (widgetDelivery 78 .failure 160)
          (some (widgetDelivery 80 .success 220)) := by
  have horder : InOrder "acme/widgets" "CI" (.branch "main") widgetDeliveries := by
    refine ⟨?_, ?_, ?_, ?_, ?_, ?_, ?_⟩
    · simp [widgetDeliveries, widgetDelivery]
    · simp [widgetDeliveries, widgetDelivery]
    · simp [widgetDeliveries, widgetDelivery, Target.Covers]
    · simp [widgetDeliveries, widgetDelivery]
    · simp [widgetDeliveries, widgetDelivery]
    · unfold widgetDeliveries
      decide
    · unfold widgetDeliveries
      decide
  have hempty : ∀ runId, Db.empty.row? runId = none := fun _ => rfl
  have hdb : Unseen "acme/widgets" Db.empty widgetDeliveries := by
    refine ⟨fun runId row h => ?_, fun d _ => hempty _, fun d _ runId row h => ?_⟩
    · rw [hempty] at h
      exact absurd h (by simp)
    · rw [hempty] at h
      exact absurd h (by simp)
  exact failure_chain .sqlite horder hdb (i := 1) rfl rfl

end PipeLens.Proof
