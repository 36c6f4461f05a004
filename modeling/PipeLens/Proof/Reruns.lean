import PipeLens.Proof.FailureChain

/-!
# Reruns in the failure chain

A rerun has the run id of the run it repeats, with a higher attempt. If it fails, no
analysis is added: the failure is recorded as the resolution of the analysis that is
there. From then on that analysis is decided, and only another attempt of the same run
can decide it again.

So the run that the chain links a failure to is the last of its own reruns, and the next
run only where there were none. The invariant is the one of the chain, for histories that
are ordered by run id and attempt.
-/

namespace PipeLens.Proof

open PipeLens

/-- On a branch, and with no pull request or with this one. -/
def OnBranch (branch : String) (number : Option Int) (run : CompletedRun) : Prop :=
  run.headBranch = some branch
    ∧ (run.pullRequestNumber = none ∨ run.pullRequestNumber = number)

/-- Earlier by run id, or the same run by attempt. -/
def Earlier (d d' : Delivery) : Prop :=
  d.run.runId < d'.run.runId
    ∨ (d.run.runId = d'.run.runId ∧ d.run.runAttempt < d'.run.runAttempt)

/-- Attempts of runs of one workflow on one branch, delivered once each and in order. -/
structure AttemptsInOrder (repository workflowName branch : String) (number : Option Int)
    (deliveries : List Delivery) : Prop where
  repository : ∀ d ∈ deliveries, d.run.repository = repository
  workflowName : ∀ d ∈ deliveries, d.run.workflowName = workflowName
  branch : ∀ d ∈ deliveries, OnBranch branch number d.run
  attempts : deliveries.Pairwise Earlier
  times : deliveries.Pairwise fun d d' => d.completedAt ≤ d'.completedAt
  once : deliveries.Pairwise fun d d' => d.deliveryId ≠ d'.deliveryId

/-! ## What one delivery does -/

section Delivery

variable {backend : Backend} {db : Db} {d : Delivery} {branch : String} {number : Option Int}

theorem isTracked_of_onBranch (h : OnBranch branch number d.run) :
    d.followup.isTracked = true := by
  have hconclusion : (d.followup.conclusion == "success" || d.followup.conclusion == "failure")
      = true := by
    unfold Delivery.followup CompletedRun.followup
    cases d.run.conclusion <;> rfl
  unfold FollowupRun.isTracked
  rw [hconclusion]
  simp [Delivery.followup, CompletedRun.followup, h.1]

theorem targetMatch_of_onBranch {row : AnalysisRow} (h : OnBranch branch number d.run)
    (hbranch : row.headBranch = some branch)
    (hnumber : row.pullRequestNumber = none ∨ row.pullRequestNumber = number) :
    d.followup.targetMatch row = true := by
  unfold FollowupRun.targetMatch Delivery.followup CompletedRun.followup
  dsimp only
  rw [h.1]
  rcases h.2 with hnone | hsame
  · rw [hnone, hbranch]
    simp
  · rw [hsame]
    cases number with
    | none => simp [hbranch]
    | some n =>
        rcases hnumber with hrow | hrow
        · simp [hrow, hbranch]
        · simp [hrow]

/-- A row stays a row of the same run, and changes only if it is the candidate that is linked. -/
theorem deliver_row?_some {runId : Int} {old : AnalysisRow} (h : db.row? runId = some old) :
    (deliver backend db d).row? runId = some old
      ∨ (old ∈ candidates db d.followup ∧ (deliver backend db d).row? runId
        = some (d.followup.resolutionValues old d.clock.linkedAt old)) := by
  rcases recordFollowupRun_cases backend db d.followup d.clock.linkedAt with
    ⟨_, heq⟩ | ⟨c, hc, hrows⟩
  · refine Or.inl (githubWebhook_row?_of_some ?_)
    show (db.recordFollowupRun backend d.followup d.clock.linkedAt).1.row? runId = _
    rw [heq]
    exact h
  · by_cases he : runId = c.runId
    · have hcrow := (mem_candidates.mp hc).2.1
      rw [← he, h] at hcrow
      obtain rfl := Option.some.inj hcrow
      refine Or.inr ⟨hc, githubWebhook_row?_of_some ?_⟩
      show (db.recordFollowupRun backend d.followup d.clock.linkedAt).1.row? runId = _
      rw [hrows, if_pos he]
    · refine Or.inl (githubWebhook_row?_of_some ?_)
      show (db.recordFollowupRun backend d.followup d.clock.linkedAt).1.row? runId = _
      rw [hrows, if_neg he]
      exact h

/-- The only candidate is linked. -/
theorem deliver_links {runId : Int} {old : AnalysisRow} (h : db.row? runId = some old)
    (hc : old ∈ candidates db d.followup)
    (honly : ∀ c ∈ candidates db d.followup, c.runId = runId) :
    (deliver backend db d).row? runId
      = some (d.followup.resolutionValues old d.clock.linkedAt old) := by
  rcases recordFollowupRun_cases backend db d.followup d.clock.linkedAt with
    ⟨hnil, _⟩ | ⟨c, hc', hrows⟩
  · rw [hnil] at hc
    exact nomatch hc
  · have hid := honly c hc'
    have hcrow := (mem_candidates.mp hc').2.1
    rw [hid, h] at hcrow
    obtain rfl := Option.some.inj hcrow
    refine githubWebhook_row?_of_some ?_
    show (db.recordFollowupRun backend d.followup d.clock.linkedAt).1.row? runId = _
    rw [hrows, if_pos hid.symm]

/-- A row that was not there is the one of the delivered failure. -/
theorem deliver_row?_none {runId : Int} {row : AnalysisRow} (hnone : db.row? runId = none)
    (hdelivery : ∀ runId row, db.row? runId = some row → row.deliveryId ≠ d.deliveryId)
    (h : (deliver backend db d).row? runId = some row) :
    runId = d.run.runId ∧ d.failed ∧ d.Stores row ∧ row.deliveryId = d.deliveryId := by
  have habsent : (db.recordFollowupRun backend d.followup d.clock.linkedAt).1.row? runId = none := by
    cases hrow : (db.recordFollowupRun backend d.followup d.clock.linkedAt).1.row? runId with
    | none => rfl
    | some row' =>
        obtain ⟨old, hold, _⟩ := followup_deliveryId hrow
        rw [hnone] at hold
        exact nomatch hold
  by_cases hid : runId = d.run.runId
  · subst hid
    by_cases hfailed : d.failed
    · obtain ⟨row', hrow', hstores, hdelivered⟩ := deliver_stores hfailed hnone hdelivery
      rw [h] at hrow'
      obtain rfl := Option.some.inj hrow'
      exact ⟨rfl, hfailed, hstores, hdelivered⟩
    · rw [deliver_success hfailed, habsent] at h
      exact nomatch h
  · rw [deliver_row?_ne hid, habsent] at h
    exact nomatch h

end Delivery

/-! ## The invariant -/

section Reruns

variable {backend : Backend} {repository workflowName branch : String} {number : Option Int}
  {db : Db} {last : Option Delivery} {d : Delivery} {rest : List Delivery}

/-- The store after some deliveries, `last` being the latest, with `rest` still to come. -/
structure RerunState (repository workflowName branch : String) (number : Option Int) (db : Db)
    (last : Option Delivery) (rest : List Delivery) : Prop where
  inOrder : AttemptsInOrder repository workflowName branch number (last.toList ++ rest)
  /-- An analysis that is not decided is one of the latest run. -/
  unresolved : ∀ runId row, db.row? runId = some row → row.repository = repository →
    row.resolutionOutcome = none → ∃ p, last = some p ∧ runId = p.run.runId
  rows : ∀ runId row, db.row? runId = some row → row.repository = repository →
    row.workflowName = workflowName ∧ row.headBranch = some branch
      ∧ (row.pullRequestNumber = none ∨ row.pullRequestNumber = number)
      ∧ ∀ d ∈ rest, runId ≤ d.run.runId
  newRuns : ∀ d ∈ rest, (∀ p, last = some p → p.run.runId ≠ d.run.runId) →
    db.row? d.run.runId = none
  newDeliveries : ∀ d ∈ rest, ∀ runId row, db.row? runId = some row →
    row.deliveryId ≠ d.deliveryId

theorem AttemptsInOrder.sublist {ds ds' : List Delivery}
    (h : AttemptsInOrder repository workflowName branch number ds) (hsub : ds'.Sublist ds) :
    AttemptsInOrder repository workflowName branch number ds' where
  repository := fun d hd => h.repository d (hsub.subset hd)
  workflowName := fun d hd => h.workflowName d (hsub.subset hd)
  branch := fun d hd => h.branch d (hsub.subset hd)
  attempts := h.attempts.sublist hsub
  times := h.times.sublist hsub
  once := h.once.sublist hsub

theorem rerunState_init (h : AttemptsInOrder repository workflowName branch number rest)
    (hdb : Unseen repository db rest) :
    RerunState repository workflowName branch number db none rest where
  inOrder := h
  unresolved := fun runId row hr hrepo => absurd hrepo (hdb.clean runId row hr)
  rows := fun runId row hr hrepo => absurd hrepo (hdb.clean runId row hr)
  newRuns := fun d hd _ => hdb.newRuns d hd
  newDeliveries := hdb.newDeliveries

namespace RerunState

variable (h : RerunState repository workflowName branch number db last (d :: rest))

include h

theorem head : AttemptsInOrder repository workflowName branch number (d :: rest) :=
  h.inOrder.sublist (List.sublist_append_right ..)

theorem last_le {p : Delivery} (hp : last = some p) : p.run.runId ≤ d.run.runId := by
  have hpairs := h.inOrder.attempts
  rw [hp, Option.toList_some, List.singleton_append, List.pairwise_cons] at hpairs
  rcases hpairs.1 d List.mem_cons_self with hlt | heq
  · exact hlt.le
  · exact heq.1.le

theorem le_later {d' : Delivery} (hd' : d' ∈ rest) : d.run.runId ≤ d'.run.runId := by
  rcases (List.pairwise_cons.mp h.head.attempts).1 d' hd' with hlt | heq
  · exact hlt.le
  · exact heq.1.le

/-- The only candidate there can be is of the latest run. -/
theorem candidate_last {c : AnalysisRow} (hc : c ∈ candidates db d.followup) :
    ∃ p, last = some p ∧ c.runId = p.run.runId := by
  obtain ⟨_, hrow, hcand⟩ := mem_candidates.mp hc
  have hguard := isCandidate_guard hcand
  unfold FollowupRun.isCandidate at hcand
  simp only [Bool.and_eq_true, beq_iff_eq] at hcand
  have hrepo : c.repository = repository := by
    rw [hcand.1.1.1.1]
    exact h.head.repository d List.mem_cons_self
  by_cases hopen : c.resolutionOutcome = none
  · exact h.unresolved c.runId c hrow hrepo hopen
  · -- an attempt of the same run; its analysis is there, so an attempt of it came right before
    have hsame : c.runId = d.run.runId := by
      unfold FollowupRun.unresolvedOrSameRunRetry at hguard
      have hnone : (c.resolutionOutcome == none) = false := beq_eq_false_iff_ne.mpr hopen
      rw [hnone] at hguard
      simp only [Bool.false_or, Bool.and_eq_true, beq_iff_eq] at hguard
      exact hguard.1.1.1
    by_contra hlast
    have hnew := h.newRuns d List.mem_cons_self fun p hp he => hlast ⟨p, hp, hsame.trans he.symm⟩
    rw [hsame, hnew] at hrow
    exact nomatch hrow

/-- An analysis that the delivery can decide. -/
theorem candidate_of {runId : Int} {row : AnalysisRow} (hrow : db.row? runId = some row)
    (hrepo : row.repository = repository) (hguard : d.followup.unresolvedOrSameRunRetry row = true)
    (hprior : d.followup.priorRun row = true) : row ∈ candidates db d.followup := by
  obtain ⟨hname, hbranch, hnumber, _⟩ := h.rows runId row hrow hrepo
  have hd := h.head.branch d List.mem_cons_self
  refine mem_candidates.mpr ⟨isTracked_of_onBranch hd, by rwa [runId_of_row? hrow], ?_⟩
  unfold FollowupRun.isCandidate
  rw [hguard, targetMatch_of_onBranch hd hbranch hnumber, hprior]
  simp [hrepo, hname, Delivery.followup, CompletedRun.followup,
    h.head.repository d List.mem_cons_self, h.head.workflowName d List.mem_cons_self]

/-- A candidate is linked: there is no other. -/
theorem links (backend : Backend) {runId : Int} {row : AnalysisRow} (hrow : db.row? runId = some row)
    (hc : row ∈ candidates db d.followup) :
    (deliver backend db d).row? runId
      = some (d.followup.resolutionValues row d.clock.linkedAt row) := by
  obtain ⟨p, hp, hid⟩ := h.candidate_last hc
  refine deliver_links hrow hc fun c hc' => ?_
  obtain ⟨p', hp', hid'⟩ := h.candidate_last hc'
  rw [hp] at hp'
  rw [hid', ← Option.some.inj hp', ← hid, runId_of_row? hrow]

/-- A row after the delivery is the delivered failure, or stems from a row before it. -/
theorem row_before {runId : Int} {row : AnalysisRow}
    (hrow : (deliver backend db d).row? runId = some row) :
    (runId = d.run.runId ∧ d.Stores row ∧ row.deliveryId = d.deliveryId)
    ∨ ∃ old, db.row? runId = some old ∧ SameRun row old ∧ (row.resolutionOutcome = none →
      row = old ∧ old ∉ candidates db d.followup) := by
  cases hold : db.row? runId with
  | none =>
      obtain ⟨hid, _, hstores, hdelivered⟩ :=
        deliver_row?_none hold (h.newDeliveries d List.mem_cons_self) hrow
      exact Or.inl ⟨hid, hstores, hdelivered⟩
  | some old =>
      refine Or.inr ⟨old, rfl, ?_⟩
      by_cases hc : old ∈ candidates db d.followup
      · rw [h.links backend hold hc] at hrow
        rw [← Option.some.inj hrow]
        exact ⟨sameRun_resolutionValues _ _ _ _,
          fun hn => absurd hn (by simp [FollowupRun.resolutionValues])⟩
      · rcases deliver_row?_some hold with hkept | ⟨hc', _⟩
        · rw [hrow] at hkept
          rw [Option.some.inj hkept]
          exact ⟨sameRun_refl old, fun _ => ⟨rfl, hc⟩⟩
        · exact absurd hc' hc

/-- What the deliveries after this one can rely on. -/
theorem step (backend : Backend) :
    RerunState repository workflowName branch number (deliver backend db d) (some d) rest := by
  refine ⟨h.head, ?_, ?_, ?_, ?_⟩
  · intro runId row hrow hrepo hopen
    rcases h.row_before hrow with ⟨hid, _⟩ | ⟨old, hold, hsame, hcand⟩
    · exact ⟨d, rfl, hid⟩
    · by_cases hid : runId = d.run.runId
      · exact ⟨d, rfl, hid⟩
      -- an analysis that was not decided was a candidate
      exfalso
      obtain ⟨heq, hnot⟩ := hcand hopen
      subst heq
      refine hnot (h.candidate_of hold hrepo ?_ ?_)
      · simp [FollowupRun.unresolvedOrSameRunRetry, hopen]
      · have hle := (h.rows runId row hold hrepo).2.2.2 d List.mem_cons_self
        have hlt : row.runId < d.followup.runId := by
          rw [runId_of_row? hold]
          exact lt_of_le_of_ne hle hid
        simp [FollowupRun.priorRun, hlt]
  · intro runId row hrow hrepo
    rcases h.row_before hrow with ⟨hid, hstores, _⟩ | ⟨old, hold, hsame, _⟩
    · obtain ⟨_, _, hname, _, hbranch, hnumber, _⟩ := hstores
      have hon := h.head.branch d List.mem_cons_self
      refine ⟨hname.trans (h.head.workflowName d List.mem_cons_self), hbranch.trans hon.1, ?_, ?_⟩
      · rw [hnumber]
        exact hon.2
      · rw [hid]
        exact fun d' hd' => h.le_later hd'
    · obtain ⟨hname, hbranch, hnumber, hle⟩ := h.rows runId old hold (hsame.repository ▸ hrepo)
      refine ⟨hsame.workflowName.trans hname, hsame.headBranch.trans hbranch, ?_,
        fun d' hd' => hle d' (List.mem_cons_of_mem d hd')⟩
      rw [hsame.pullRequestNumber]
      exact hnumber
  · intro d' hd' hother
    have hne : d'.run.runId ≠ d.run.runId := fun he => hother d rfl he.symm
    have hlt : d.run.runId < d'.run.runId := lt_of_le_of_ne (h.le_later hd') hne.symm
    have hnew : db.row? d'.run.runId = none := by
      refine h.newRuns d' (List.mem_cons_of_mem d hd') fun p hp he => ?_
      have hle := h.last_le hp
      omega
    cases hrow : (deliver backend db d).row? d'.run.runId with
    | none => rfl
    | some row =>
        exact absurd (deliver_row?_none hnew (h.newDeliveries d List.mem_cons_self) hrow).1 hne
  · intro d' hd' runId row hrow
    rcases h.row_before hrow with ⟨_, _, hdelivered⟩ | ⟨old, hold, hsame, _⟩
    · rw [hdelivered]
      exact (List.pairwise_cons.mp h.head.once).1 d' hd'
    · rw [hsame.deliveryId]
      exact h.newDeliveries d' (List.mem_cons_of_mem d hd') runId old hold

end RerunState

/-! ## The analysis of a run that is repeated -/

/-- The analysis of a failure, decided by a later attempt or run or not at all. -/
def DecidedBy (db : Db) (repository : String) (r : Delivery) (next : Option Delivery) : Prop :=
  ∃ row, db.row? r.run.runId = some row ∧ row.repository = repository
    ∧ row.runAttempt = r.run.runAttempt ∧ row.runCompletedAt = some r.completedAt
    ∧ resolutionFields row = chainedTo r next

variable {r : Delivery}

/-- An attempt of the same run decides again, and any other delivery only what is not decided. -/
theorem RerunState.decides
    (h : RerunState repository workflowName branch number db last (d :: rest))
    {next : Option Delivery} (hr : DecidedBy db repository r next) (hbefore : Earlier r d)
    (htime : r.completedAt ≤ d.completedAt)
    (hnext : ∀ x, next = some x →
      d.run.runId = r.run.runId ∧ x.failed ∧ x.run.runId = r.run.runId ∧ Earlier x d) :
    DecidedBy (deliver backend db d) repository r (some d) := by
  obtain ⟨row, hrow, hrepo, hattempt, hcompleted, hfields⟩ := hr
  have hguard : d.followup.unresolvedOrSameRunRetry row = true := by
    unfold FollowupRun.unresolvedOrSameRunRetry
    have hid := runId_of_row? hrow
    cases next with
    | none =>
        have hopen : row.resolutionOutcome = none := congrArg ResolutionFields.outcome hfields
        rw [hopen]
        rfl
    | some x =>
        obtain ⟨hsame, hfailed, hxid, hearlier⟩ := hnext x rfl
        have hconclusion : x.run.conclusion ≠ .success := by
          rw [show x.run.conclusion = .failure from hfailed]
          decide
        have houtcome : row.resolutionOutcome = some .stillFailing := by
          have := congrArg ResolutionFields.outcome hfields
          rwa [chainedTo, if_neg hconclusion] at this
        have hrun : row.resolutionRunId = some x.run.runId :=
          congrArg ResolutionFields.runId hfields
        have hlast : row.resolutionRunAttempt = some x.run.runAttempt :=
          congrArg ResolutionFields.runAttempt hfields
        have hlt : x.run.runAttempt < d.run.runAttempt := by
          rcases hearlier with hlt | heq
          · omega
          · exact heq.2
        rw [houtcome, hrun, hlast]
        simp [Delivery.followup, CompletedRun.followup, hid, hsame, hxid, hlt]
  have hprior : d.followup.priorRun row = true := by
    unfold FollowupRun.priorRun
    rw [runId_of_row? hrow, hattempt]
    rcases hbefore with hlt | heq
    · simp [Delivery.followup, CompletedRun.followup, hlt]
    · simp [Delivery.followup, CompletedRun.followup, heq.1, heq.2]
  have hlinks := h.links backend hrow (h.candidate_of hrow hrepo hguard hprior)
  refine ⟨_, hlinks, hrepo, hattempt, hcompleted, ?_⟩
  have hrecovery : d.followup.recoverySeconds row
      = totalSeconds (d.completedAt - r.completedAt) := by
    unfold FollowupRun.recoverySeconds
    rw [hcompleted]
    exact max_eq_right (totalSeconds_nonneg (Int.sub_nonneg_of_le htime))
  simp only [resolutionFields, FollowupRun.resolutionValues, chainedTo, outcome_followup, hrecovery]
  rfl

/-- A run that is decided is not decided again by another run. -/
theorem DecidedBy.keeps {x : Delivery} (hr : DecidedBy db repository r (some x))
    (hother : r.run.runId ≠ d.run.runId) :
    DecidedBy (deliver backend db d) repository r (some x) := by
  obtain ⟨row, hrow, hrest⟩ := hr
  rcases deliver_row?_some (d := d) hrow with hkept | ⟨hc, _⟩
  · exact ⟨row, hkept, hrest⟩
  · exfalso
    have hguard := isCandidate_guard (mem_candidates.mp hc).2.2
    unfold FollowupRun.unresolvedOrSameRunRetry at hguard
    have hdecided : row.resolutionOutcome ≠ none := by
      have houtcome : row.resolutionOutcome = _ := congrArg ResolutionFields.outcome hrest.2.2.2
      rw [houtcome]
      exact Option.some_ne_none _
    have hid : row.runId ≠ d.followup.runId := by
      rw [runId_of_row? hrow]
      exact hother
    simp [hdecided, hid] at hguard

/-! ## Whole histories -/

theorem DecidedBy.keeps_all {x : Delivery} {ds : List Delivery}
    (hr : DecidedBy db repository r (some x)) (hothers : ∀ d ∈ ds, r.run.runId ≠ d.run.runId) :
    DecidedBy (ds.foldl (deliver backend) db) repository r (some x) := by
  induction ds generalizing db with
  | nil => exact hr
  | cons d ds ih =>
      exact ih (hr.keeps (hothers d List.mem_cons_self))
        fun d' hd' => hothers d' (List.mem_cons_of_mem d hd')

theorem RerunState.run (backend : Backend) {ds : List Delivery}
    (h : RerunState repository workflowName branch number db last (ds ++ rest)) :
    ∃ last', RerunState repository workflowName branch number (ds.foldl (deliver backend) db)
      last' rest := by
  induction ds generalizing db last with
  | nil => exact ⟨last, h⟩
  | cons d ds ih => exact ih (h.step backend)

/-- **Failed reruns.** The last of them decides the analysis. -/
theorem RerunState.rerun (backend : Backend) {reruns : List Delivery}
    (h : RerunState repository workflowName branch number db last (reruns ++ rest))
    {next : Option Delivery} (hr : DecidedBy db repository r next)
    (hreruns : ∀ d ∈ reruns, d.failed ∧ d.run.runId = r.run.runId)
    (hbefore : ∀ d ∈ reruns, Earlier r d ∧ r.completedAt ≤ d.completedAt)
    (hnext : ∀ x, next = some x →
      x.failed ∧ x.run.runId = r.run.runId ∧ ∀ d ∈ reruns, Earlier x d) :
    DecidedBy (reruns.foldl (deliver backend) db) repository r (reruns.getLast?.or next) := by
  induction reruns generalizing db last next with
  | nil => exact hr
  | cons d reruns ih =>
      obtain ⟨hfailed, hid⟩ := hreruns d List.mem_cons_self
      have hdecides : DecidedBy (deliver backend db d) repository r (some d) := by
        refine h.decides hr (hbefore d List.mem_cons_self).1 (hbefore d List.mem_cons_self).2 ?_
        intro x hx
        obtain ⟨hxfailed, hxid, hxbefore⟩ := hnext x hx
        exact ⟨hid, hxfailed, hxid, hxbefore d List.mem_cons_self⟩
      have hlater : ∀ d' ∈ reruns, Earlier d d' := fun d' hd' =>
        (List.pairwise_cons.mp h.head.attempts).1 d' (List.mem_append_left rest hd')
      have hrest := ih (h.step backend) hdecides
        (fun d' hd' => hreruns d' (List.mem_cons_of_mem d hd'))
        (fun d' hd' => hbefore d' (List.mem_cons_of_mem d hd'))
        fun x hx => by
          obtain rfl := Option.some.inj hx
          exact ⟨hfailed, hid, hlater⟩
      have hlast : (d :: reruns).getLast?.or next = reruns.getLast?.or (some d) := by
        rw [List.getLast?_cons]
        cases reruns.getLast? <;> rfl
      rw [hlast]
      exact hrest

/-- The next run decides the analysis only where no rerun did. -/
theorem RerunState.rerun_then_run (backend : Backend) {reruns after : List Delivery}
    {s : Delivery}
    (h : RerunState repository workflowName branch number db last (reruns ++ s :: after))
    (hr : DecidedBy db repository r none)
    (hreruns : ∀ d ∈ reruns, d.failed ∧ d.run.runId = r.run.runId)
    (hbefore : ∀ d ∈ reruns ++ [s], Earlier r d ∧ r.completedAt ≤ d.completedAt)
    (hlater : r.run.runId < s.run.runId) :
    DecidedBy ((reruns ++ s :: after).foldl (deliver backend) db) repository r
      (some (reruns.getLast?.getD s)) := by
  have hrerun := h.rerun backend hr hreruns
    (fun d hd => hbefore d (List.mem_append_left [s] hd))
    (fun x hx => absurd hx.symm (Option.some_ne_none x))
  obtain ⟨last', hstate⟩ := h.run backend
  have hs : DecidedBy (deliver backend (reruns.foldl (deliver backend) db) s) repository r
      (some (reruns.getLast?.getD s)) := by
    cases hlast : reruns.getLast? with
    | none =>
        rw [hlast] at hrerun
        obtain ⟨hearlier, htime⟩ := hbefore s (List.mem_append_right reruns List.mem_cons_self)
        exact hstate.decides hrerun hearlier htime
          fun x hx => absurd hx.symm (Option.some_ne_none x)
    | some x =>
        rw [hlast] at hrerun
        exact hrerun.keeps hlater.ne
  rw [List.foldl_append, List.foldl_cons]
  refine hs.keeps_all fun d hd => ?_
  have hle := hstate.le_later hd
  omega

end Reruns

/-- **Reruns in the chain.** A failure that was repeated without success ends up linked to the
last of its reruns; only without reruns is it linked to the run that comes after it. -/
theorem rerun_chain (backend : Backend) {repository workflowName branch : String}
    {number : Option Int} {before reruns after : List Delivery} {r s : Delivery}
    (horder : AttemptsInOrder repository workflowName branch number
      (before ++ r :: (reruns ++ s :: after)))
    {db : Db} (hdb : Unseen repository db (before ++ r :: (reruns ++ s :: after)))
    (hfailed : r.failed) (hfirst : r.run.runAttempt = 1)
    (hreruns : ∀ d ∈ reruns, d.failed ∧ d.run.runId = r.run.runId)
    (hlater : r.run.runId < s.run.runId) :
    ∃ row, ((before ++ r :: (reruns ++ s :: after)).foldl (deliver backend) db).row? r.run.runId
        = some row
      ∧ resolutionFields row = chainedTo r (some (reruns.getLast?.getD s)) := by
  obtain ⟨last, hbefore⟩ := (rerunState_init horder hdb).run backend
  have hnew : (before.foldl (deliver backend) db).row? r.run.runId = none := by
    refine hbefore.newRuns r List.mem_cons_self fun p hp he => ?_
    -- it would be an attempt before the first
    have hpairs := hbefore.inOrder.attempts
    rw [hp, Option.toList_some, List.singleton_append, List.pairwise_cons] at hpairs
    have hpos := p.run.runAttempt_pos
    rcases hpairs.1 r List.mem_cons_self with hlt | heq
    · omega
    · omega
  obtain ⟨row, hrow, hstores, _⟩ :=
    deliver_stores hfailed hnew (hbefore.newDeliveries r List.mem_cons_self)
  obtain ⟨_, hrepo, _, hattempt, _, _, hcompleted, hfields⟩ := hstores
  have hstart : DecidedBy (deliver backend (before.foldl (deliver backend) db) r) repository r
      none :=
    ⟨row, hrow, hrepo.trans (hbefore.head.repository r List.mem_cons_self), hattempt, hcompleted,
      hfields⟩
  have hearlier := (List.pairwise_cons.mp hbefore.head.attempts).1
  have htimes := (List.pairwise_cons.mp hbefore.head.times).1
  have hmem : ∀ d ∈ reruns ++ [s], d ∈ reruns ++ s :: after := by
    intro d hd
    rcases List.mem_append.mp hd with hd | hd
    · exact List.mem_append_left _ hd
    · rw [List.mem_singleton.mp hd]
      exact List.mem_append_right _ List.mem_cons_self
  have hdecided := (hbefore.step backend).rerun_then_run backend hstart hreruns
    (fun d hd => ⟨hearlier d (hmem d hd), htimes d (hmem d hd)⟩) hlater
  rw [List.foldl_append, List.foldl_cons]
  obtain ⟨row', hrow', _, _, _, hfields'⟩ := hdecided
  exact ⟨row', hrow', hfields'⟩

theorem secondAttempt_pos : (1 : Int) ≤ 2 := by omega

/-- The second attempt of run 77, which fails as well. -/
def widgetRerun (completedAt : Instant) : Delivery where
  run :=
    { (widgetDelivery 77 .failure completedAt).run with
      runAttempt := 2, runAttempt_pos := secondAttempt_pos }
  deliveryId := "delivery-77-2"
  clock := ⟨completedAt, completedAt, completedAt⟩
  queue := { enqueued := some true }
  complete := fun _ => ⟨rfl, rfl⟩

/-- A failure, its rerun and a success. -/
def widgetReruns : List Delivery :=
  [widgetDelivery 77 .failure 100, widgetRerun 160, widgetDelivery 80 .success 220]

theorem widgetReruns_inOrder : AttemptsInOrder "acme/widgets" "CI" "main" none widgetReruns := by
  refine ⟨?_, ?_, ?_, ?_, ?_, ?_⟩
  · simp [widgetReruns, widgetDelivery, widgetRerun]
  · simp [widgetReruns, widgetDelivery, widgetRerun]
  · simp [widgetReruns, widgetDelivery, widgetRerun, OnBranch]
  · simp [widgetReruns, widgetDelivery, widgetRerun, Earlier]
  · unfold widgetReruns
    decide
  · unfold widgetReruns
    decide

theorem rerun_chain_widgets :
    ∃ row, (widgetReruns.foldl (deliver .sqlite) Db.empty).row? 77 = some row
      ∧ resolutionFields row
        = chainedTo (widgetDelivery 77 .failure 100) (some (widgetRerun 160)) := by
  have hempty : ∀ runId, Db.empty.row? runId = none := fun _ => rfl
  have hdb : Unseen "acme/widgets" Db.empty widgetReruns := by
    refine ⟨fun runId row h => ?_, fun d _ => hempty _, fun d _ runId row h => ?_⟩
    · rw [hempty] at h
      exact absurd h (by simp)
    · rw [hempty] at h
      exact absurd h (by simp)
  refine @rerun_chain .sqlite _ _ _ _ [] [widgetRerun 160] [] (widgetDelivery 77 .failure 100)
    (widgetDelivery 80 .success 220) widgetReruns_inOrder _ hdb rfl rfl ?_ (by decide)
  intro d hd
  rw [List.mem_singleton.mp hd]
  exact ⟨rfl, rfl⟩

/-- The same delivery with a pull request. -/
def forPullRequest (number : Int) (d : Delivery) : Delivery :=
  { d with run := { d.run with pullRequestNumber := some number } }

/-- A rerun hides the recovery, and so does a pull request of its own on the same branch. -/
theorem recovery_hidden :
    (AttemptsInOrder "acme/widgets" "CI" "main" none widgetReruns
      ∧ ∃ row, (widgetReruns.foldl (deliver .sqlite) Db.empty).row? 77 = some row
        ∧ row.resolutionOutcome = some .stillFailing ∧ row.resolutionRunId = some 77)
    ∧ ∃ row, ([forPullRequest 5 (widgetDelivery 77 .failure 100),
          forPullRequest 6 (widgetRerun 160),
          forPullRequest 6 (widgetDelivery 80 .success 220)].foldl (deliver .sqlite)
            Db.empty).row? 77 = some row
      ∧ row.resolutionOutcome = none := by
  refine ⟨⟨widgetReruns_inOrder, _, rfl, rfl, rfl⟩, ⟨_, rfl, rfl⟩⟩

end PipeLens.Proof
