import PipeLens.Proof.StoreOps
import PipeLens.Webhook

/-!
# Follow-up runs and redelivered webhooks

`record_followup_run` runs before the handler knows whether it has seen the run
before, and it links the *newest* analysis its candidate query returns. After one
handling that analysis is no longer a candidate, but every other one still is. So
a second handling of the same payload links the next one, and handling is
idempotent exactly when there was no second candidate to begin with.
-/

namespace PipeLens.Proof

open PipeLens

/-- The resolution columns of an analysis. -/
structure ResolutionFields where
  outcome : Option ResolutionOutcome
  runId : Option Int
  runAttempt : Option Int
  htmlUrl : Option String
  completedAt : Option Instant
  recoverySeconds : Option Seconds
  deriving DecidableEq, Repr

def resolutionFields (row : AnalysisRow) : ResolutionFields where
  outcome := row.resolutionOutcome
  runId := row.resolutionRunId
  runAttempt := row.resolutionRunAttempt
  htmlUrl := row.resolutionHtmlUrl
  completedAt := row.resolutionCompletedAt
  recoverySeconds := row.recoverySeconds

/-- What the candidate query of a call returns; an untracked call asks nothing. -/
def candidates (db : Db) (f : FollowupRun) : List AnalysisRow :=
  if f.isTracked then db.analyses.select f.isCandidate else []

theorem mem_candidates {db : Db} {f : FollowupRun} {row : AnalysisRow} :
    row ∈ candidates db f ↔
      f.isTracked = true ∧ db.row? row.runId = some row ∧ f.isCandidate row = true := by
  unfold candidates Db.row?
  split
  · rename_i ht
    rw [Table.select, List.mem_filter, Table.mem_iff_find?]
    exact ⟨fun h => ⟨ht, h⟩, fun h => h.2⟩
  · rename_i ht
    simp [ht]

theorem candidates_nodup (db : Db) (f : FollowupRun) : (candidates db f).Nodup := by
  unfold candidates
  split
  · exact (List.Nodup.of_map _ db.analyses.nodup).filter _
  · exact List.nodup_nil

/-- In a list without repetitions, "at most one" can be counted. -/
theorem length_le_one_iff {α : Type} {xs : List α} (h : xs.Nodup) :
    xs.length ≤ 1 ↔ ∀ x ∈ xs, ∀ y ∈ xs, x = y := by
  match xs, h with
  | [], _ => simp
  | [x], _ => simp
  | x :: y :: zs, h =>
      have hne : x ≠ y := by
        intro he
        subst he
        exact absurd h (by simp)
      simp only [List.length_cons]
      constructor
      · intro hl; omega
      · intro hall
        exact absurd (hall x (by simp) y (by simp)) hne

/-! ## What one call links -/

/-- A candidate matches the guard that the update repeats. -/
theorem isCandidate_guard {f : FollowupRun} {row : AnalysisRow} (h : f.isCandidate row = true) :
    f.unresolvedOrSameRunRetry row = true := by
  unfold FollowupRun.isCandidate at h
  simp only [Bool.and_eq_true] at h
  exact h.1.1.2

theorem isCandidate_priorRun {f : FollowupRun} {row : AnalysisRow} (h : f.isCandidate row = true) :
    f.priorRun row = true := by
  unfold FollowupRun.isCandidate at h
  simp only [Bool.and_eq_true] at h
  exact h.2

/-- **One call links one candidate**, unless there is none to link. -/
theorem recordFollowupRun_cases (backend : Backend) (db : Db) (f : FollowupRun) (now : Instant) :
    (candidates db f = [] ∧ (db.recordFollowupRun backend f now).1 = db)
    ∨ ∃ c ∈ candidates db f, ∀ runId, (db.recordFollowupRun backend f now).1.row? runId =
        if runId = c.runId then some (f.resolutionValues c now c) else db.row? runId := by
  unfold Db.recordFollowupRun
  by_cases ht : f.isTracked = true
  · rw [if_pos ht]
    cases hsel : db.analyses.selectFirst f.isCandidate (listedBefore backend) with
    | none =>
        refine Or.inl ⟨?_, rfl⟩
        unfold candidates
        rw [if_pos ht]
        exact Table.firstBy_eq_none.mp hsel
    | some c =>
        obtain ⟨hm, hc⟩ := Table.mem_of_selectFirst hsel
        have hrow : db.analyses.find? c.runId = some c := Table.find?_of_mem hm
        refine Or.inr ⟨c, mem_candidates.mpr ⟨ht, hrow, hc⟩, ?_⟩
        intro runId
        have hrows : (db.analyses.updateKey c.runId f.unresolvedOrSameRunRetry
            (f.resolutionValues c now) (f.resolutionValues_runId c now)).1.find? runId =
            if runId = c.runId then some (f.resolutionValues c now c)
            else db.row? runId := by
          by_cases he : runId = c.runId
          · rw [if_pos he, he, Table.find?_updateKey_self, hrow]
            simp [Table.rewrite, isCandidate_guard hc]
          · rw [if_neg he, Table.find?_updateKey_ne _ he]
            rfl
        dsimp only
        split <;> exact hrows
  · rw [if_neg ht]
    refine Or.inl ⟨?_, rfl⟩
    unfold candidates
    rw [if_neg ht]

/-- A linked analysis is no candidate of the same run any more. -/
theorem not_isCandidate_resolved {f f' : FollowupRun} {c row : AnalysisRow} {now : Instant}
    (hattempt : f.runAttempt = f'.runAttempt) :
    f'.isCandidate (f.resolutionValues c now row) = false := by
  have hguard : f'.unresolvedOrSameRunRetry (f.resolutionValues c now row) = false := by
    simp [FollowupRun.unresolvedOrSameRunRetry, FollowupRun.resolutionValues, hattempt]
  cases h : f'.isCandidate (f.resolutionValues c now row) with
  | false => rfl
  | true => rw [isCandidate_guard h] at hguard; exact absurd hguard (by simp)

/-- Linking a candidate changes its resolution. -/
theorem resolutionFields_ne {f : FollowupRun} {c row : AnalysisRow} {now : Instant}
    (h : f.isCandidate row = true) :
    resolutionFields (f.resolutionValues c now row) ≠ resolutionFields row := by
  intro he
  have hguard := isCandidate_guard h
  simp only [resolutionFields, FollowupRun.resolutionValues, ResolutionFields.mk.injEq] at he
  obtain ⟨ho, -, ha, -⟩ := he
  unfold FollowupRun.unresolvedOrSameRunRetry at hguard
  rw [← ho, ← ha] at hguard
  simp at hguard

/-- What no follow-up call changes about an analysis. -/
structure SameRun (row old : AnalysisRow) : Prop where
  runId : row.runId = old.runId
  repository : row.repository = old.repository
  workflowName : row.workflowName = old.workflowName
  runAttempt : row.runAttempt = old.runAttempt
  headBranch : row.headBranch = old.headBranch
  pullRequestNumber : row.pullRequestNumber = old.pullRequestNumber
  runCompletedAt : row.runCompletedAt = old.runCompletedAt
  deliveryId : row.deliveryId = old.deliveryId

theorem sameRun_refl (row : AnalysisRow) : SameRun row row :=
  ⟨rfl, rfl, rfl, rfl, rfl, rfl, rfl, rfl⟩

theorem sameRun_resolutionValues (f : FollowupRun) (c row : AnalysisRow) (now : Instant) :
    SameRun (f.resolutionValues c now row) row := ⟨rfl, rfl, rfl, rfl, rfl, rfl, rfl, rfl⟩

/-- A follow-up call adds no row, and changes only a candidate. -/
theorem followup_row? {backend : Backend} {db : Db} {f : FollowupRun} {now : Instant} {runId : Int}
    {row : AnalysisRow} (h : (db.recordFollowupRun backend f now).1.row? runId = some row) :
    ∃ old, db.row? runId = some old ∧ SameRun row old ∧ (row = old ∨ old ∈ candidates db f) := by
  rcases recordFollowupRun_cases backend db f now with ⟨_, heq⟩ | ⟨c, hc, hrows⟩
  · rw [heq] at h
    exact ⟨row, h, sameRun_refl row, Or.inl rfl⟩
  · rw [hrows] at h
    by_cases he : runId = c.runId
    · rw [if_pos he] at h
      rw [he, ← Option.some.inj h]
      exact ⟨c, (mem_candidates.mp hc).2.1, sameRun_resolutionValues f c c now, Or.inr hc⟩
    · rw [if_neg he] at h
      exact ⟨row, h, sameRun_refl row, Or.inl rfl⟩

/-! ## What one handling does -/

section Handling

variable (backend : Backend) (db : Db) (run : CompletedRun) (deliveryId : String)
  (clock : HandlingClock) (queue : QueueReply)

/-- After its follow-up call, a handling at most adds the analysis of a failed run. -/
theorem githubWebhook_cases (runId : Int) :
    (githubWebhook backend db run deliveryId clock queue).1.row? runId
        = (db.recordFollowupRun backend (run.followup clock) clock.linkedAt).1.row? runId
    ∨ ((db.recordFollowupRun backend (run.followup clock) clock.linkedAt).1.row? runId = none
      ∧ run.conclusion = .failure
      ∧ ∃ headSha installationId, (githubWebhook backend db run deliveryId clock queue).1.row? runId
        = some (Db.insertValues (run.record deliveryId headSha installationId clock))) := by
  unfold githubWebhook
  dsimp only
  cases run.conclusion with
  | success => exact Or.inl rfl
  | failure =>
      cases run.installationId with
      | none => exact Or.inl rfl
      | some installationId =>
          cases run.headSha with
          | none => exact Or.inl rfl
          | some headSha =>
              rcases createIfAbsent_row? (db.recordFollowupRun backend (run.followup clock)
                  clock.linkedAt).1 (run.record deliveryId headSha installationId clock) runId with
                h | ⟨hnone, _, hrow⟩
              · exact Or.inl h
              · exact Or.inr ⟨hnone, rfl, headSha, installationId, hrow⟩

theorem githubWebhook_row? (runId : Int) :
    (githubWebhook backend db run deliveryId clock queue).1.row? runId
        = (db.recordFollowupRun backend (run.followup clock) clock.linkedAt).1.row? runId
    ∨ ((db.recordFollowupRun backend (run.followup clock) clock.linkedAt).1.row? runId = none
      ∧ ∃ row, row.runId = run.runId ∧ row.runAttempt = run.runAttempt
        ∧ (githubWebhook backend db run deliveryId clock queue).1.row? runId = some row) := by
  rcases githubWebhook_cases backend db run deliveryId clock queue runId with
    h | ⟨hnone, _, headSha, installationId, hrow⟩
  · exact Or.inl h
  · exact Or.inr ⟨hnone, _, rfl, rfl, hrow⟩

variable {backend db run deliveryId clock queue}

/-- A row the follow-up call left is still there after the handling. -/
theorem githubWebhook_row?_of_some {runId : Int} {row : AnalysisRow}
    (h : (db.recordFollowupRun backend (run.followup clock) clock.linkedAt).1.row? runId
      = some row) :
    (githubWebhook backend db run deliveryId clock queue).1.row? runId = some row := by
  rcases githubWebhook_row? backend db run deliveryId clock queue runId with he | ⟨hn, _⟩
  · rw [he, h]
  · rw [h] at hn
    exact absurd hn (by simp)

/-- The candidate query does not look at the clock. -/
theorem isCandidate_followup (clock clock' : HandlingClock) (row : AnalysisRow) :
    (run.followup clock').isCandidate row = (run.followup clock).isCandidate row := rfl

theorem isTracked_followup (clock clock' : HandlingClock) :
    (run.followup clock').isTracked = (run.followup clock).isTracked := rfl

/-- The analysis a handling adds is no candidate of its own run. -/
theorem not_isCandidate_own {row : AnalysisRow} (hid : row.runId = run.runId)
    (hattempt : row.runAttempt = run.runAttempt) (clock : HandlingClock) :
    (run.followup clock).isCandidate row = false := by
  have hprior : (run.followup clock).priorRun row = false := by
    simp [FollowupRun.priorRun, CompletedRun.followup, hid, hattempt]
  cases h : (run.followup clock).isCandidate row with
  | false => rfl
  | true => rw [isCandidate_priorRun h] at hprior; exact absurd hprior (by simp)

/-- **Candidates of the second handling**: those of the first that were not linked. -/
theorem candidates_after {clock' : HandlingClock} {row : AnalysisRow}
    (hm : row ∈ candidates (githubWebhook backend db run deliveryId clock queue).1
      (run.followup clock')) :
    row ∈ candidates db (run.followup clock)
    ∧ (db.recordFollowupRun backend (run.followup clock) clock.linkedAt).1.row? row.runId
      = db.row? row.runId := by
  obtain ⟨ht, hrow, hc⟩ := mem_candidates.mp hm
  rw [isCandidate_followup clock] at hc
  rw [isTracked_followup clock] at ht
  rcases githubWebhook_row? backend db run deliveryId clock queue row.runId with
    he | ⟨_, row', hid, hattempt, hr'⟩
  · rw [he] at hrow
    rcases recordFollowupRun_cases backend db (run.followup clock) clock.linkedAt with
      ⟨_, heq⟩ | ⟨c, _, hrows⟩
    · rw [heq] at hrow ⊢
      exact ⟨mem_candidates.mpr ⟨ht, hrow, hc⟩, rfl⟩
    · rw [hrows] at hrow
      by_cases hid : row.runId = c.runId
      · rw [if_pos hid] at hrow
        rw [← Option.some.inj hrow, not_isCandidate_resolved rfl] at hc
        exact absurd hc (by simp)
      · rw [if_neg hid] at hrow
        refine ⟨mem_candidates.mpr ⟨ht, hrow, hc⟩, ?_⟩
        rw [hrows, if_neg hid]
  · rw [hrow] at hr'
    rw [← Option.some.inj hr'] at hid hattempt
    rw [not_isCandidate_own hid hattempt] at hc
    exact absurd hc (by simp)

end Handling

/-! ## Handling a payload twice -/

/-- The resolution of a stored analysis differs between two states. -/
def ResolutionChanged (db db' : Db) (runId : Int) : Prop :=
  ∃ row, db.row? runId = some row
    ∧ (db'.row? runId).map resolutionFields ≠ some (resolutionFields row)

/-- What redelivery should do: nothing new the second time, one link in all. -/
structure RedeliveryIdempotent (db db₁ db₂ : Db) : Prop where
  second : ∀ runId, ¬ ResolutionChanged db₁ db₂ runId
  single : ∀ runId runId', ResolutionChanged db db₂ runId → ResolutionChanged db db₂ runId' →
    runId = runId'

/-- A handling that finds no candidate changes no resolution. -/
theorem not_changed_of_candidates_nil (backend : Backend) {db : Db} {run : CompletedRun}
    (deliveryId : String) {clock : HandlingClock} (queue : QueueReply)
    (hnil : candidates db (run.followup clock) = []) (runId : Int) :
    ¬ ResolutionChanged db (githubWebhook backend db run deliveryId clock queue).1 runId := by
  rintro ⟨row, hrow, hne⟩
  rcases recordFollowupRun_cases backend db (run.followup clock) clock.linkedAt with
    ⟨_, heq⟩ | ⟨c, hc, _⟩
  · have hkept : (db.recordFollowupRun backend (run.followup clock) clock.linkedAt).1.row? runId
        = some row := by
      rw [heq]
      exact hrow
    rw [githubWebhook_row?_of_some hkept] at hne
    exact hne rfl
  · rw [hnil] at hc
    exact absurd hc (by simp)

/--
A handling that finds a candidate changes the resolution of one and of no other,
and leaves exactly the others to a second handling.
-/
theorem links_one_candidate (backend : Backend) {db : Db} {run : CompletedRun}
    (deliveryId : String) {clock : HandlingClock} (queue : QueueReply) {row : AnalysisRow}
    (hm : row ∈ candidates db (run.followup clock)) :
    ∃ c ∈ candidates db (run.followup clock),
      (∀ runId, ResolutionChanged db (githubWebhook backend db run deliveryId clock queue).1 runId
        ↔ runId = c.runId)
      ∧ ∀ clock' other,
        other ∈ candidates (githubWebhook backend db run deliveryId clock queue).1
            (run.followup clock')
          ↔ other ∈ candidates db (run.followup clock) ∧ other ≠ c := by
  rcases recordFollowupRun_cases backend db (run.followup clock) clock.linkedAt with
    ⟨hnil, _⟩ | ⟨c, hc, hrows⟩
  · rw [hnil] at hm
    exact absurd hm (by simp)
  · obtain ⟨_, hcrow, hcand⟩ := mem_candidates.mp hc
    have hlinked := hrows c.runId
    rw [if_pos rfl] at hlinked
    refine ⟨c, hc, fun runId => ⟨?_, ?_⟩, fun clock' other => ⟨?_, ?_⟩⟩
    · rintro ⟨row', hrow', hne⟩
      by_contra hid
      have hsame := hrows runId
      rw [if_neg hid, hrow'] at hsame
      rw [githubWebhook_row?_of_some hsame] at hne
      exact hne rfl
    · rintro rfl
      refine ⟨c, hcrow, ?_⟩
      rw [githubWebhook_row?_of_some hlinked]
      simpa using resolutionFields_ne hcand
    · intro hother
      obtain ⟨hmem, hsame⟩ := candidates_after hother
      refine ⟨hmem, ?_⟩
      rintro rfl
      rw [hlinked, hcrow] at hsame
      exact resolutionFields_ne hcand (congrArg resolutionFields (Option.some.inj hsame))
    · rintro ⟨hmem, hne⟩
      obtain ⟨ht, hrow, hcand'⟩ := mem_candidates.mp hmem
      have hid : other.runId ≠ c.runId := by
        intro he
        rw [he, hcrow] at hrow
        exact hne (Option.some.inj hrow).symm
      have hsame := hrows other.runId
      rw [if_neg hid, hrow] at hsame
      exact mem_candidates.mpr ⟨ht, githubWebhook_row?_of_some hsame, hcand'⟩

/--
**When redelivery is idempotent.**

For every store, every completed run and any two handlings of its payload with
nothing in between (whatever the delivery ids, the clocks and the answers of the
queue), the second handling leaves every resolution as it was and one run links
at most one analysis, if and only if the candidate query returned at most one
analysis before the first.
-/
theorem redelivery_idempotent_iff (backend : Backend) (db : Db) (run : CompletedRun)
    (delivery₁ delivery₂ : String) (clock₁ clock₂ : HandlingClock) (queue₁ queue₂ : QueueReply) :
    RedeliveryIdempotent db (githubWebhook backend db run delivery₁ clock₁ queue₁).1
      (githubWebhook backend (githubWebhook backend db run delivery₁ clock₁ queue₁).1 run
        delivery₂ clock₂ queue₂).1
    ↔ (candidates db (run.followup clock₁)).length ≤ 1 := by
  rw [length_le_one_iff (candidates_nodup db _)]
  constructor
  · intro h x hx y hy
    by_contra hne
    obtain ⟨c, _, _, hleft⟩ := links_one_candidate backend delivery₁ queue₁ hx
    -- one of the two was not linked, so the second handling links something
    have hother : ∃ z, z ∈ candidates (githubWebhook backend db run delivery₁ clock₁ queue₁).1
        (run.followup clock₂) := by
      by_cases hxc : x = c
      · exact ⟨y, (hleft clock₂ y).mpr ⟨hy, fun hyc => hne (hxc.trans hyc.symm)⟩⟩
      · exact ⟨x, (hleft clock₂ x).mpr ⟨hx, hxc⟩⟩
    obtain ⟨z, hz⟩ := hother
    obtain ⟨c', _, hchanged, _⟩ := links_one_candidate backend delivery₂ queue₂ hz
    exact h.second c'.runId ((hchanged c'.runId).mpr rfl)
  · intro hall
    have hnil : candidates (githubWebhook backend db run delivery₁ clock₁ queue₁).1
        (run.followup clock₂) = [] := by
      refine List.eq_nil_iff_forall_not_mem.mpr fun z hz => ?_
      obtain ⟨c, hc, _, hleft⟩ :=
        links_one_candidate backend delivery₁ queue₁ (candidates_after hz).1
      obtain ⟨hzm, hzc⟩ := (hleft clock₂ z).mp hz
      exact hzc (hall z hzm c hc)
    have hsecond := not_changed_of_candidates_nil backend delivery₂ queue₂ hnil
    refine ⟨hsecond, ?_⟩
    -- what both handlings changed, the first one changed
    have hfirst : ∀ runId, ResolutionChanged db
        (githubWebhook backend (githubWebhook backend db run delivery₁ clock₁ queue₁).1 run
          delivery₂ clock₂ queue₂).1 runId →
        ResolutionChanged db (githubWebhook backend db run delivery₁ clock₁ queue₁).1 runId := by
      rintro runId ⟨row, hrow, hne⟩
      refine ⟨row, hrow, fun he => hsecond runId ?_⟩
      obtain ⟨row₁, hrow₁, hfields⟩ := Option.map_eq_some_iff.mp he
      exact ⟨row₁, hrow₁, by rw [hfields]; exact hne⟩
    intro runId runId' hch hch'
    by_cases hempty : candidates db (run.followup clock₁) = []
    · exact absurd (hfirst runId hch) (not_changed_of_candidates_nil _ _ _ hempty runId)
    · obtain ⟨x, hx⟩ := List.exists_mem_of_ne_nil _ hempty
      obtain ⟨c, _, hchanged, _⟩ := links_one_candidate backend delivery₁ queue₁ hx
      rw [(hchanged runId).mp (hfirst runId hch), (hchanged runId').mp (hfirst runId' hch')]

/-! ## Two failures in a row -/

/-- An unresolved failure on `main`. -/
def failureOnMain (runId : Int) (deliveryId : String) (completedAt : Instant) : AnalysisRecord :=
  { runId := runId, deliveryId := deliveryId, repository := "acme/example", workflowName := "CI",
    headSha := "abc123", htmlUrl := "https://github.com/acme/example/actions/runs/40",
    headBranch := some "main", runCompletedAt := some completedAt, createdAt := completedAt,
    updatedAt := completedAt }

/-- Runs 40 and 41 failed, one minute apart, and neither is resolved. -/
def twoFailures : Db :=
  ((Db.empty.createIfAbsent (failureOnMain 40 "delivery-40" 0)).1.createIfAbsent
    (failureOnMain 41 "delivery-41" 60000000)).1

/-- Run 42 succeeds on the same branch. -/
def successOnMain : CompletedRun :=
  { repository := "acme/example", runId := 42, runAttempt := 1, runAttempt_pos := by decide,
    workflowName := "CI", headBranch := some "main", pullRequestNumber := none,
    updatedAt := some 180000000,
    htmlUrl := "https://github.com/acme/example/actions/runs/42", conclusion := .success,
    headSha := some "abc123", installationId := some 7 }

def atMinutes (n : Int) : HandlingClock :=
  { receivedAt := n * 60000000, linkedAt := n * 60000000, createdAt := n * 60000000 }

/-- The delivery and its redelivery resolve both failures. -/
theorem redelivery_resolves_both :
    ¬ RedeliveryIdempotent twoFailures
      (githubWebhook .postgresql twoFailures successOnMain "delivery-42" (atMinutes 3)
        { enqueued := none }).1
      (githubWebhook .postgresql
        (githubWebhook .postgresql twoFailures successOnMain "delivery-42" (atMinutes 3)
          { enqueued := none }).1
        successOnMain "delivery-42" (atMinutes 4) { enqueued := none }).1 := by
  intro h
  refine h.second 40 ⟨Db.insertValues (failureOnMain 40 "delivery-40" 0), ?_, ?_⟩
  · decide +kernel
  · decide +kernel

end PipeLens.Proof
