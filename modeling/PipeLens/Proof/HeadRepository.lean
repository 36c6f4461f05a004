import PipeLens.Proof.FailureChain
import PipeLens.Proof.Resolution

/-!
# Which runs a failure can be linked to

A payload names the repository the head commit is in. The handler does not read it: a
failure is linked to a run of the same repository and workflow that has its pull request
number, or its branch name where one of the two has no number.

A pull request has one head repository, so a link through the number stays within it. A
link through the branch name need not: a branch of a fork can have the name of a branch of
the repository itself.
-/

namespace PipeLens.Proof

open PipeLens

/-- A payload of a completed run, with `head_repository`. -/
structure Payload where
  run : CompletedRun
  headRepository : String
  deliveryId : String
  clock : HandlingClock
  queue : QueueReply

/-- What the handler leaves of the store. -/
def handle (backend : Backend) (db : Db) (p : Payload) : Db :=
  (githubWebhook backend db p.run p.deliveryId p.clock p.queue).1

def SharePullRequest (p q : Payload) : Prop :=
  p.run.repository = q.run.repository
    ∧ ∃ n, p.run.pullRequestNumber = some n ∧ q.run.pullRequestNumber = some n

/-- The same branch name, as far as the handler can tell no other pull request. -/
def ShareBranchName (p q : Payload) : Prop :=
  (p.run.pullRequestNumber = none ∨ q.run.pullRequestNumber = none)
    ∧ ∃ branch, p.run.headBranch = some branch ∧ q.run.headBranch = some branch

/-- By run id, then by attempt. -/
def Before (p q : Payload) : Prop :=
  toLex (p.run.runId, p.run.runAttempt) < toLex (q.run.runId, q.run.runAttempt)

/-! ## Where the analyses come from -/

/-- The analysis was added by a handling of this payload. -/
structure AddedBy (p : Payload) (row : AnalysisRow) : Prop where
  failed : p.run.conclusion = .failure
  runId : row.runId = p.run.runId
  runAttempt : row.runAttempt = p.run.runAttempt
  repository : row.repository = p.run.repository
  workflowName : row.workflowName = p.run.workflowName
  headBranch : row.headBranch = p.run.headBranch
  pullRequestNumber : row.pullRequestNumber = p.run.pullRequestNumber

/-- Every analysis of the repository was added by one of the payloads. -/
def Traced (repository : String) (payloads : List Payload) (db : Db) : Prop :=
  ∀ runId row, db.row? runId = some row → row.repository = repository →
    ∃ p ∈ payloads, AddedBy p row

theorem AddedBy.of_sameRun {p : Payload} {row old : AnalysisRow} (h : AddedBy p old)
    (hsame : SameRun row old) : AddedBy p row where
  failed := h.failed
  runId := hsame.runId.trans h.runId
  runAttempt := hsame.runAttempt.trans h.runAttempt
  repository := hsame.repository.trans h.repository
  workflowName := hsame.workflowName.trans h.workflowName
  headBranch := hsame.headBranch.trans h.headBranch
  pullRequestNumber := hsame.pullRequestNumber.trans h.pullRequestNumber

theorem traced_step {backend : Backend} {repository : String} {payloads : List Payload} {db : Db}
    (h : Traced repository payloads db) (p : Payload) :
    Traced repository (payloads ++ [p]) (handle backend db p) := by
  intro runId row hrow hrepo
  unfold handle at hrow
  rcases githubWebhook_cases backend db p.run p.deliveryId p.clock p.queue runId with
    hkept | ⟨_, hfailed, headSha, installationId, hnew⟩
  · rw [hkept] at hrow
    obtain ⟨old, hold, hsame, _⟩ := followup_row? hrow
    obtain ⟨q, hq, hadded⟩ := h runId old hold (hsame.repository ▸ hrepo)
    exact ⟨q, List.mem_append_left [p] hq, hadded.of_sameRun hsame⟩
  · rw [hnew] at hrow
    rw [← Option.some.inj hrow]
    exact ⟨p, List.mem_append_right payloads List.mem_cons_self,
      ⟨hfailed, rfl, rfl, rfl, rfl, rfl, rfl⟩⟩

theorem traced_run (backend : Backend) {repository : String} {payloads : List Payload} {db : Db}
    (hdb : ∀ runId row, db.row? runId = some row → row.repository ≠ repository) :
    Traced repository payloads (payloads.foldl (handle backend) db) := by
  induction payloads using List.reverseRecOn with
  | nil => exact fun runId row hrow hrepo => absurd hrepo (hdb runId row hrow)
  | append_singleton payloads p ih =>
      rw [List.foldl_append]
      exact traced_step ih p

/-! ## What a handling links -/

/-- An analysis whose resolution changes was a candidate. -/
theorem candidate_of_changed {backend : Backend} {db : Db} {p : Payload} {runId : Int}
    (h : ResolutionChanged db (handle backend db p) runId) :
    ∃ row, db.row? runId = some row ∧ row ∈ candidates db (p.run.followup p.clock) := by
  obtain ⟨row, hrow, hne⟩ := h
  refine ⟨row, hrow, ?_⟩
  by_contra hnot
  refine hne ?_
  have hkept : (db.recordFollowupRun backend (p.run.followup p.clock) p.clock.linkedAt).1.row? runId
      = some row := by
    rcases recordFollowupRun_cases backend db (p.run.followup p.clock) p.clock.linkedAt with
      ⟨_, heq⟩ | ⟨c, hc, hrows⟩
    · rw [heq, hrow]
    · have hother : runId ≠ c.runId := by
        intro he
        have hcrow := (mem_candidates.mp hc).2.1
        rw [← he, hrow] at hcrow
        rw [Option.some.inj hcrow] at hnot
        exact hnot hc
      rw [hrows, if_neg hother, hrow]
  rw [show (handle backend db p).row? runId = some row from githubWebhook_row?_of_some hkept]
  rfl

theorem target_of_targetMatch {p q : Payload} {row : AnalysisRow} (hadded : AddedBy q row)
    (hrepo : q.run.repository = p.run.repository)
    (htracked : (p.run.followup p.clock).isTracked = true)
    (h : (p.run.followup p.clock).targetMatch row = true) :
    SharePullRequest q p ∨ ShareBranchName q p := by
  unfold FollowupRun.targetMatch CompletedRun.followup at h
  unfold FollowupRun.isTracked CompletedRun.followup at htracked
  dsimp only at h htracked
  rw [hadded.headBranch, hadded.pullRequestNumber] at h
  cases hnumber : p.run.pullRequestNumber with
  | none =>
      -- a run without a pull request is only tracked if it has a branch
      rw [hnumber] at h htracked
      cases hbranch : p.run.headBranch with
      | none =>
          rw [hbranch] at htracked
          simp at htracked
      | some branch =>
          rw [hbranch] at h
          exact Or.inr ⟨Or.inr hnumber, branch, beq_iff_eq.mp h, hbranch⟩
  | some n =>
      rw [hnumber] at h
      simp only [Bool.or_eq_true, beq_iff_eq] at h
      rcases h with hsame | hname
      · exact Or.inl ⟨hrepo, n, hsame, hnumber⟩
      · cases hbranch : p.run.headBranch with
        | none =>
            rw [hbranch] at hname
            exact nomatch hname
        | some branch =>
            rw [hbranch] at hname
            simp only [Bool.and_eq_true, beq_iff_eq] at hname
            exact Or.inr ⟨Or.inl hname.1, branch, hname.2, hbranch⟩

/-- **What a link says.** A failure that a handling links came with an earlier payload of the
same repository and workflow, of a run before this one, and the two have the same pull
request and then the same head repository, or else the same branch name. -/
theorem link_stays_in_target (backend : Backend) {repository : String} {payloads : List Payload}
    {p : Payload}
    (hheads : ∀ q ∈ payloads, SharePullRequest q p → q.headRepository = p.headRepository)
    {db : Db} (hdb : ∀ runId row, db.row? runId = some row → row.repository ≠ repository)
    (hrepo : p.run.repository = repository) {runId : Int}
    (hlinked : ResolutionChanged (payloads.foldl (handle backend) db)
      (handle backend (payloads.foldl (handle backend) db) p) runId) :
    ∃ q ∈ payloads, q.run.conclusion = .failure ∧ q.run.runId = runId
      ∧ q.run.repository = repository ∧ q.run.workflowName = p.run.workflowName ∧ Before q p
      ∧ ((SharePullRequest q p ∧ q.headRepository = p.headRepository) ∨ ShareBranchName q p) := by
  obtain ⟨row, hrow, hc⟩ := candidate_of_changed hlinked
  obtain ⟨htracked, _, hcand⟩ := mem_candidates.mp hc
  have hfollows := followsUp_of_isCandidate hcand
  have hrowRepo : row.repository = repository := hfollows.repository.trans hrepo
  obtain ⟨q, hq, hadded⟩ := traced_run backend hdb runId row hrow hrowRepo
  have hsameRepo : q.run.repository = repository := hadded.repository.symm.trans hrowRepo
  have hbefore : Before q p := by
    have hlater := hfollows.later
    rw [hadded.runId, hadded.runAttempt] at hlater
    exact hlater
  have htarget : (p.run.followup p.clock).targetMatch row = true := by
    unfold FollowupRun.isCandidate at hcand
    simp only [Bool.and_eq_true] at hcand
    exact hcand.1.2
  refine ⟨q, hq, hadded.failed, hadded.runId.symm.trans (runId_of_row? hrow), hsameRepo,
    hadded.workflowName.symm.trans hfollows.workflowName, hbefore, ?_⟩
  rcases target_of_targetMatch hadded (hsameRepo.trans hrepo.symm) htracked htarget with hpr | hname
  · exact Or.inl ⟨hpr, hheads q hq hpr⟩
  · exact Or.inr hname

/-- A run on `main`, of the repository itself or of a fork. -/
def onMain (headRepository : String) (number : Option Int) (runId : Int)
    (conclusion : Conclusion) : Payload where
  run := { (widgetDelivery runId conclusion runId).run with pullRequestNumber := number }
  headRepository := headRepository
  deliveryId := "delivery-" ++ toString runId
  clock := ⟨runId, runId, runId⟩
  queue := { enqueued := some true }

/-- The failure of a pull request from a fork, and its next run. -/
theorem link_stays_in_pull_request :
    ∃ q ∈ [onMain "fork/widgets" (some 5) 77 .failure], q.run.conclusion = .failure
      ∧ q.run.runId = 77 ∧ q.run.repository = "acme/widgets" ∧ q.run.workflowName = "CI"
      ∧ Before q (onMain "fork/widgets" (some 5) 80 .success)
      ∧ ((SharePullRequest q (onMain "fork/widgets" (some 5) 80 .success)
          ∧ q.headRepository = "fork/widgets")
        ∨ ShareBranchName q (onMain "fork/widgets" (some 5) 80 .success)) := by
  refine @link_stays_in_target .sqlite _ _ (onMain "fork/widgets" (some 5) 80 .success)
    ?_ Db.empty ?_ rfl 77 ⟨_, rfl, by decide⟩
  · intro q hq _
    rw [List.mem_singleton.mp hq]
    rfl
  · intro runId row hrow
    exact nomatch hrow

/-- The failure of a fork's `main` is resolved by the `main` of the repository, and the other
way round. -/
theorem resolved_across_forks :
    (∃ q p : Payload, q.headRepository ≠ p.headRepository
      ∧ q.run.repository = p.run.repository ∧ p.headRepository = p.run.repository
      ∧ ResolutionChanged (handle .sqlite Db.empty q)
        (handle .sqlite (handle .sqlite Db.empty q) p) q.run.runId)
    ∧ ∃ q p : Payload, q.headRepository ≠ p.headRepository
      ∧ q.run.repository = p.run.repository ∧ q.headRepository = q.run.repository
      ∧ ResolutionChanged (handle .sqlite Db.empty q)
        (handle .sqlite (handle .sqlite Db.empty q) p) q.run.runId := by
  constructor
  · exact ⟨onMain "fork/widgets" none 77 .failure, onMain "acme/widgets" none 80 .success,
      by decide, rfl, rfl, _, rfl, by decide⟩
  · exact ⟨onMain "acme/widgets" none 77 .failure, onMain "fork/widgets" none 80 .success,
      by decide, rfl, rfl, _, rfl, by decide⟩

end PipeLens.Proof
