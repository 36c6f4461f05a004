import PipeLens.Lib.Transition
import PipeLens.Proof.AttemptEffect
import PipeLens.Publication

/-!
# Only the newest attempt publishes

The token is checked when `PUBLISHING` is recorded as started, and not again before
the requests of the stage go out. Between the two lies a window. As long as no
begin is committed while a call is in its window:

* at most one call is in the window, and its attempt is the newest;
* hence nobody else writes between its listing and its write, the listing is
  complete, and a comment it does not find does not exist.

The second point takes more than fencing: the comment must be looked for where it
was created, and a `POST` that GitHub carried out must not be sent again.
-/

namespace PipeLens.Proof

open PipeLens Transition

/-! ## Writes that are fenced -/

/-- The attempt that began last, in a log with the newest event first. -/
def newestBegun : List PublishEvent → Option Token
  | [] => none
  | .begun token :: _ => some token
  | .sent _ :: log => newestBegun log

/-- Every write was sent by the attempt that had begun last. -/
def WritesFenced : List PublishEvent → Prop
  | [] => True
  | .begun _ :: log => WritesFenced log
  | .sent token :: log => newestBegun log = some token ∧ WritesFenced log

instance decidableWritesFenced : (log : List PublishEvent) → Decidable (WritesFenced log)
  | [] => inferInstanceAs (Decidable True)
  | .begun _ :: log => decidableWritesFenced log
  | .sent token :: log =>
      haveI := decidableWritesFenced log
      inferInstanceAs (Decidable (newestBegun log = some token ∧ WritesFenced log))

/-! ## The discipline -/

/-- The attempt of a call. -/
def token? : CallPhase → Option Token
  | .running a => some a.token
  | .publishing a _ _ => some a.token
  | _ => none

/-- The call has passed the token check of `PUBLISHING` and may still send a write. -/
def inWindow : CallPhase → Bool
  | .running a => decide (a.pc = .body .publishing)
  | .publishing _ _ _ => true
  | _ => false

/-- The transaction is not rolled back. -/
def commits : StoreFate → Bool
  | .answered => true
  | .failed _ => false
  | .unacknowledged _ => true

/-- An upsert that looks for the comment looks where one was created before. -/
def SamePullRequest (created : List Int) : Option UpsertPc → Prop
  | some (.listComments number _ _) => ∀ n ∈ created, n = number
  | _ => True

/-- A comment that was created is not sent again. -/
def NotResent (policy : RetryPolicy) (reply : Reply) : CallPhase → Prop
  | .publishing _ _ pc => pc.creates ≠ none → reply.performed = true →
      requestWithRetry policy pc.method pc.attempt reply ≠ .resend
  | _ => True

variable {α : Type} {app : GitHubApp} {policy : RetryPolicy} {runId : Int}

/-- What keeps publications in order. -/
def Orderly (policy : RetryPolicy) (runId : Int) (s : PublicationSystem α) :
    PublishLabel α → Prop
  | .begin _ _ fate _ => Startable s.store runId → commits fate = true →
      ∀ c, inWindow (s.call c) = false
  | .publish _ publication => SamePullRequest s.created publication.firstRequest
  | .request c reply _ => NotResent policy reply (s.call c)
  | _ => True

/-! ## The steps -/

variable [DecidableEq α]

/-- The steps, each with what it needs. -/
inductive PublishStep (app : GitHubApp) (policy : RetryPolicy) (runId : Int)
    (s : PublicationSystem α) : PublishLabel α → PublicationSystem α → Prop where
  | begin (c : α) (token : Token) (fate : StoreFate) (now : Instant) (h : s.call c = .ready)
      (fresh : token ∉ s.used) :
      PublishStep app policy runId s (.begin c token fate now)
        { s with
          store := (beginAttempt s.store runId token fate now).2
          used := token :: s.used
          log := if beginCommits s.store runId token fate now then .begun token :: s.log
            else s.log
          call := Function.update s.call c
            (CallPhase.ofProgress (beginAttempt s.store runId token fate now).1) }
  | advance (c : α) (event : AnalyzeEvent) (a : Attempt) (p : Progress) (store : Db)
      (h : s.call c = .running a) (hs : a.step s.store runId event = some (p, store)) :
      PublishStep app policy runId s (.advance c event)
        { s with
          store := store
          call := Function.update s.call c (CallPhase.ofProgress p) }
  | publishNothing (c : α) (publication : Publication) (a : Attempt) (h : s.call c = .running a)
      (hpc : a.pc = .body .publishing) (hfirst : publication.firstRequest = none) :
      PublishStep app policy runId s (.publish c publication)
        (s.setCall c (.running { a with pc := .leave .publishing }))
  | publish (c : α) (publication : Publication) (a : Attempt) (pc : UpsertPc)
      (h : s.call c = .running a) (hpc : a.pc = .body .publishing)
      (hfirst : publication.firstRequest = some pc) :
      PublishStep app policy runId s (.publish c publication)
        (s.setCall c (.publishing a publication.body pc))
  | request (c : α) (reply : Reply) (checkRuns : List CheckRun) (a : Attempt) (body : String)
      (pc : UpsertPc) (h : s.call c = .publishing a body pc) :
      PublishStep app policy runId s (.request c reply checkRuns)
        ((s.sendRequest app runId a body pc reply).setCall c
          (PublicationSystem.afterReply app runId s.comments a body pc checkRuns
            (requestWithRetry policy pc.method pc.attempt reply)))
  | handled (status : AnalysisStatus) (error : String) (now : Instant) :
      PublishStep app policy runId s (.handled status error now)
        { s with store := (s.store.update runId status { error := some error } none now).2 }
  | comment (number : Int) (comment : Comment) :
      PublishStep app policy runId s (.comment number comment)
        { s with
          comments := Function.update s.comments number (s.comments number ++ [comment]) }

/-- **Every step is one of these.** -/
theorem publishStep {s s' : PublicationSystem α} {l : PublishLabel α}
    (h : s.step app policy runId l = some s') : PublishStep app policy runId s l s' := by
  cases l with
  | begin c token fate now =>
      simp only [PublicationSystem.step] at h
      split at h
      · rename_i hc
        split at h
        · exact absurd h (by simp)
        · rename_i hfresh
          rw [← Option.some.inj h]
          exact .begin c token fate now hc hfresh
      · exact absurd h (by simp)
  | advance c event =>
      simp only [PublicationSystem.step] at h
      split at h
      · rename_i a hc
        split at h
        · exact absurd h (by simp)
        · split at h
          · exact absurd h (by simp)
          · rename_i p store hs
            rw [← Option.some.inj h]
            exact .advance c event a p store hc hs
      · exact absurd h (by simp)
  | publish c publication =>
      simp only [PublicationSystem.step] at h
      split at h
      · rename_i a hc
        split at h
        · rename_i hpc
          split at h
          · rename_i hfirst
            rw [← Option.some.inj h]
            exact .publishNothing c publication a hc hpc hfirst
          · rename_i pc hfirst
            rw [← Option.some.inj h]
            exact .publish c publication a pc hc hpc hfirst
        · exact absurd h (by simp)
      · exact absurd h (by simp)
  | request c reply checkRuns =>
      simp only [PublicationSystem.step] at h
      split at h
      · rename_i a body pc hc
        rw [← Option.some.inj h]
        exact .request c reply checkRuns a body pc hc
      · exact absurd h (by simp)
  | handled status error now =>
      rw [← Option.some.inj h]
      exact .handled status error now
  | comment number comment =>
      rw [← Option.some.inj h]
      exact .comment number comment

/-! ## What the steps do to tokens, begins and the store -/

section Steps

variable {s s' : PublicationSystem α} {l : PublishLabel α}

/-- A begin is committed, or it leaves the database and starts nothing. -/
theorem beginCommits_cases (db : Db) (runId : Int) (t : Token) (fate : StoreFate) (now : Instant) :
    (beginCommits db runId t fate now = true ∧ Startable db runId ∧ commits fate = true
      ∧ ∃ row', Wrote db (beginAttempt db runId t fate now).2 runId row'
        ∧ row'.attemptToken = some t)
    ∨ (beginCommits db runId t fate now = false ∧ (beginAttempt db runId t fate now).2 = db
      ∧ ∀ a, (beginAttempt db runId t fate now).1 ≠ .running a) := by
  unfold beginCommits beginAttempt storeCall
  rcases begin_fenced db runId t now with ⟨row, db₁, hr, hs, he, hw, _⟩ | ⟨hn, message, he⟩
  · rw [he]
    cases fate with
    | answered => exact Or.inl ⟨rfl, ⟨row, hr, hs⟩, rfl, _, hw, rfl⟩
    | failed message => exact Or.inr ⟨rfl, rfl, by simp⟩
    | unacknowledged message => exact Or.inl ⟨rfl, ⟨row, hr, hs⟩, rfl, _, hw, rfl⟩
  · rw [he]
    cases fate with
    | answered => exact Or.inr ⟨rfl, rfl, by simp⟩
    | failed message' => exact Or.inr ⟨rfl, rfl, by simp⟩
    | unacknowledged message' => exact Or.inr ⟨rfl, rfl, by simp⟩

/-- An attempt that begins stands before its first stage, under its own token. -/
theorem begin_running {db : Db} {t : Token} {fate : StoreFate} {now : Instant} {a : Attempt}
    (h : (beginAttempt db runId t fate now).1 = .running a) :
    a.token = t ∧ a.pc = .enter .collecting := by
  have heff := beginEffect db runId t fate now
  rw [h] at heff
  generalize (beginAttempt db runId t fate now).2 = store at heff
  cases heff with
  | begun _ row' htoken hpc _ _ _ _ => exact ⟨htoken, hpc⟩

theorem token?_afterReply (comments : Int → List Comment) (a : Attempt) (body : String)
    (pc : UpsertPc) (checkRuns : List CheckRun) (verdict : Verdict) :
    token? (PublicationSystem.afterReply app runId comments a body pc checkRuns verdict)
      = some a.token := by
  unfold PublicationSystem.afterReply
  split
  · rfl
  · rfl
  · split <;> rfl

/-- A call keeps the token it began with. -/
theorem token?_step (h : PublishStep app policy runId s l s') {c : α} {t : Token}
    (ht : token? (s'.call c) = some t) :
    token? (s.call c) = some t
    ∨ ∃ fate now, l = .begin c t fate now ∧ newestBegun s'.log = some t := by
  -- a call whose phase is set to one with the token it had
  have hset : ∀ {c' : α} {phase : CallPhase},
      (token? phase = some t → token? (s.call c') = some t) →
      token? (Function.update s.call c' phase c) = some t → token? (s.call c) = some t := by
    intro c' phase hp hu
    by_cases he : c = c'
    · subst he
      rw [Function.update_self] at hu
      exact hp hu
    · rwa [Function.update_of_ne he] at hu
  cases h with
  | begin c' token fate now hc fresh =>
      by_cases he : c = c'
      · subst he
        simp only [Function.update_self] at ht
        cases hp : (beginAttempt s.store runId token fate now).1 with
        | running a =>
            rw [hp] at ht
            -- an attempt that runs was begun by a committed transaction
            have htok : token = t := (begin_running hp).1.symm.trans (Option.some.inj ht)
            subst htok
            rcases beginCommits_cases s.store runId token fate now with
              ⟨hcommit, _⟩ | ⟨_, _, hnot⟩
            · exact Or.inr ⟨fate, now, rfl, by simp [hcommit, newestBegun]⟩
            · exact absurd hp (hnot a)
        | returned => rw [hp] at ht; exact absurd ht (by simp [CallPhase.ofProgress, token?])
        | raised message => rw [hp] at ht; exact absurd ht (by simp [CallPhase.ofProgress, token?])
      · simp only [Function.update_of_ne he] at ht
        exact Or.inl ht
  | advance c' event a p store hc hs =>
      refine Or.inl (hset (fun hp => ?_) ht)
      rw [hc]
      cases attemptEffect hs with
      | quiet a' htoken _ _ => rw [← hp]; exact congrArg some htoken.symm
      | wrote a' htoken _ _ => rw [← hp]; exact congrArg some htoken.symm
      | superseded | completed | failed | broke | brokeFinished =>
          exact absurd hp (by simp [CallPhase.ofProgress, token?])
  | publishNothing c' publication a hc hpc hfirst =>
      exact Or.inl (hset (fun hp => by rw [hc]; exact hp) ht)
  | publish c' publication a pc hc hpc hfirst =>
      exact Or.inl (hset (fun hp => by rw [hc]; exact hp) ht)
  | request c' reply checkRuns a body pc hc =>
      exact Or.inl (hset (fun hp => by rw [token?_afterReply] at hp; rw [hc]; exact hp) ht)
  | handled => exact Or.inl ht
  | comment => exact Or.inl ht

/-- Only a begin changes which attempt is the newest, or makes one current. -/
theorem newest_step (h : PublishStep app policy runId s l s') :
    (newestBegun s'.log = newestBegun s.log
      ∧ ∀ t, Current s'.store runId t → Current s.store runId t)
    ∨ ∃ c t fate now, l = .begin c t fate now ∧ newestBegun s'.log = some t
      ∧ Startable s.store runId ∧ commits fate = true
      ∧ ∀ t', Current s'.store runId t' → t' = t := by
  cases h with
  | begin c token fate now hc fresh =>
      rcases beginCommits_cases s.store runId token fate now with
        ⟨hcommit, hstart, hfate, row', hw, htok⟩ | ⟨hcommit, hsame, _⟩
      · refine Or.inr ⟨c, token, fate, now, rfl, by simp [hcommit, newestBegun], hstart, hfate, ?_⟩
        intro t' hcur
        rw [current_iff hw.self, htok] at hcur
        exact (Option.some.inj hcur).symm
      · exact Or.inl ⟨by simp [hcommit], fun t hcur => by rw [← hsame]; exact hcur⟩
  | advance c event a p store hc hs =>
      exact Or.inl ⟨rfl, fun t hcur => (attemptEffect hs).current_back hcur⟩
  | publishNothing => exact Or.inl ⟨rfl, fun t hcur => hcur⟩
  | publish => exact Or.inl ⟨rfl, fun t hcur => hcur⟩
  | request c reply checkRuns a body pc hc =>
      refine Or.inl ⟨?_, fun t hcur => hcur⟩
      by_cases hget : pc.method = .get <;>
        simp [PublicationSystem.sendRequest, PublicationSystem.setCall, hget, newestBegun]
  | handled status error now =>
      exact Or.inl ⟨rfl, fun t hcur => current_of_update_unfenced hcur⟩
  | comment => exact Or.inl ⟨rfl, fun t hcur => hcur⟩

end Steps

/-! ## Fencing -/

/-- The newest attempt, the current attempt and the window. -/
structure PublishInv (runId : Int) (s : PublicationSystem α) : Prop where
  /-- Tokens are drawn, and each for one call. -/
  used : ∀ c t, token? (s.call c) = some t → t ∈ s.used
  distinct : ∀ c c' t, token? (s.call c) = some t → token? (s.call c') = some t → c = c'
  /-- The current attempt is the newest, and so is one in its window. -/
  newest : ∀ c t, token? (s.call c) = some t → Current s.store runId t →
    newestBegun s.log = some t
  window : ∀ c t, token? (s.call c) = some t → inWindow (s.call c) = true →
    newestBegun s.log = some t
  fenced : WritesFenced s.log

omit [DecidableEq α] in
theorem publishInv_init (db : Db) (comments : Int → List Comment) :
    PublishInv runId (PublicationSystem.init db comments : PublicationSystem α) where
  used := by intro c t h; exact absurd h (by simp [PublicationSystem.init, token?])
  distinct := by intro c c' t h; exact absurd h (by simp [PublicationSystem.init, token?])
  newest := by intro c t h; exact absurd h (by simp [PublicationSystem.init, token?])
  window := by intro c t h; exact absurd h (by simp [PublicationSystem.init, token?])
  fenced := trivial

omit [DecidableEq α] in
/-- At most one call is in its window. -/
theorem PublishInv.alone {s : PublicationSystem α} (h : PublishInv runId s) {c c' : α}
    (hc : inWindow (s.call c) = true) (hc' : inWindow (s.call c') = true) : c = c' := by
  have htok : ∀ {phase : CallPhase}, inWindow phase = true → ∃ t, token? phase = some t := by
    intro phase hw
    cases phase with
    | running a => exact ⟨a.token, rfl⟩
    | publishing a body pc => exact ⟨a.token, rfl⟩
    | ready => exact absurd hw (by simp [inWindow])
    | ended => exact absurd hw (by simp [inWindow])
  obtain ⟨t, ht⟩ := htok hc
  obtain ⟨t', ht'⟩ := htok hc'
  have heq := (h.window c t ht hc).symm.trans (h.window c' t' ht' hc')
  rw [← Option.some.inj heq] at ht'
  exact h.distinct c c' t ht ht'

section Step

variable {s s' : PublicationSystem α} {l : PublishLabel α}

theorem used_publishStep (hs : PublishStep app policy runId s l s') {t : Token} (h : t ∈ s.used) :
    t ∈ s'.used := by
  cases hs with
  | begin => exact List.mem_cons_of_mem _ h
  | advance | publishNothing | publish | request | handled | comment => exact h

/-- A call comes into its window by passing the token check. -/
theorem window_entered (hs : PublishStep app policy runId s l s') {c : α}
    (hw : inWindow (s'.call c) = true) :
    inWindow (s.call c) = true
    ∨ (s'.log = s.log ∧ ∃ t, token? (s.call c) = some t ∧ Current s.store runId t) := by
  have hset : ∀ {c' : α} {phase : CallPhase},
      (inWindow phase = true → inWindow (s.call c') = true
        ∨ (s'.log = s.log ∧ ∃ t, token? (s.call c') = some t ∧ Current s.store runId t)) →
      inWindow (Function.update s.call c' phase c) = true → inWindow (s.call c) = true
        ∨ (s'.log = s.log ∧ ∃ t, token? (s.call c) = some t ∧ Current s.store runId t) := by
    intro c' phase hp hu
    by_cases he : c = c'
    · subst he
      rw [Function.update_self] at hu
      exact hp hu
    · rw [Function.update_of_ne he] at hu
      exact Or.inl hu
  cases hs with
  | begin c' token fate now hc fresh =>
      refine hset (fun hp => ?_) hw
      cases hr : (beginAttempt s.store runId token fate now).1 with
      | running a =>
          rw [hr] at hp
          exact absurd hp (by simp [CallPhase.ofProgress, inWindow, (begin_running hr).2])
      | returned => rw [hr] at hp; exact absurd hp (by simp [CallPhase.ofProgress, inWindow])
      | raised message =>
          rw [hr] at hp; exact absurd hp (by simp [CallPhase.ofProgress, inWindow])
  | advance c' event a p store hc hstep =>
      refine hset (fun hp => Or.inr ?_) hw
      cases p with
      | running a' =>
          have hpc : a'.pc = .body .publishing := of_decide_eq_true hp
          exact ⟨rfl, a.token, by rw [hc]; rfl, (body_entered hstep hpc).2⟩
      | returned => exact absurd hp (by simp [CallPhase.ofProgress, inWindow])
      | raised message => exact absurd hp (by simp [CallPhase.ofProgress, inWindow])
  | publishNothing c' publication a hc hpc hfirst =>
      exact hset (fun hp => absurd hp (by simp [inWindow])) hw
  | publish c' publication a pc hc hpc hfirst =>
      exact hset (fun _ => Or.inl (by rw [hc]; simp [inWindow, hpc])) hw
  | request c' reply checkRuns a body pc hc =>
      exact hset (fun _ => Or.inl (by rw [hc]; rfl)) hw
  | handled => exact Or.inl hw
  | comment => exact Or.inl hw

theorem publishInv_step (h : PublishInv runId s) (hok : Orderly policy runId s l)
    (hs : PublishStep app policy runId s l s') : PublishInv runId s' where
  used := by
    intro c t ht
    rcases token?_step hs ht with hold | ⟨fate, now, rfl, _⟩
    · exact used_publishStep hs (h.used c t hold)
    · cases hs with
      | begin => exact List.mem_cons_self
  distinct := by
    intro c c' t ht ht'
    -- a call that begins holds a token no other call can hold
    have hfresh : ∀ {c c' : α} {fate now}, l = .begin c t fate now →
        token? (s.call c') ≠ some t := by
      rintro c c' fate now rfl hold
      cases hs with
      | begin _ _ _ _ _ fresh => exact fresh (h.used c' t hold)
    rcases token?_step hs ht with hold | ⟨fate, now, hl, _⟩
    · rcases token?_step hs ht' with hold' | ⟨fate', now', hl', _⟩
      · exact h.distinct c c' t hold hold'
      · exact absurd hold (hfresh hl')
    · rcases token?_step hs ht' with hold' | ⟨fate', now', hl', _⟩
      · exact absurd hold' (hfresh hl)
      · rw [hl] at hl'
        exact (PublishLabel.begin.inj hl').1
  newest := by
    intro c t ht hcur
    rcases token?_step hs ht with hold | ⟨fate, now, _, hnew⟩
    · rcases newest_step hs with ⟨hlog, hback⟩ | ⟨c', t', fate, now, _, hlog, _, _, honly⟩
      · rw [hlog]
        exact h.newest c t hold (hback t hcur)
      · rw [hlog, honly t hcur]
    · exact hnew
  window := by
    intro c t ht hw
    rcases token?_step hs ht with hold | ⟨fate, now, _, hnew⟩
    · rcases window_entered hs hw with hin | ⟨hlog, t', ht', hcur⟩
      · rcases newest_step hs with ⟨hlog, _⟩ | ⟨c', t', fate, now, rfl, _, hstart, hfate, _⟩
        · rw [hlog]
          exact h.window c t hold hin
        · -- nobody begins while a call is in its window
          rw [hok hstart hfate c] at hin
          exact absurd hin (by simp)
      · -- it has just passed the token check, so it was the current attempt
        rw [hold] at ht'
        rw [hlog, Option.some.inj ht']
        exact h.newest c t' (by rw [hold, ht']) hcur
    · exact hnew
  fenced := by
    cases hs with
    | begin c token fate now hc fresh =>
        dsimp only
        split
        · exact h.fenced
        · exact h.fenced
    | request c reply checkRuns a body pc hc =>
        show WritesFenced (if pc.method = .get then s.log else .sent a.token :: s.log)
        split
        · exact h.fenced
        · exact ⟨h.window c a.token (by rw [hc]; rfl) (by rw [hc]; rfl), h.fenced⟩
    | advance | publishNothing | publish | handled | comment => exact h.fenced

end Step

/-! ## The comment of the run -/

/-- The comments hold one that an upsert for the run would find. -/
def HasRunComment (app : GitHubApp) (runId : Int) (comments : List Comment) : Prop :=
  ∃ comment ∈ comments, app.isRunComment runId comment = true

theorem marker_isIn (runId : Int) (body : String) :
    isIn (marker runId) (commentBody runId body) = true := by
  have hprefix : (marker runId).toList <+: (commentBody runId body).toList := by
    refine ⟨("\n" ++ body).toList, ?_⟩
    rw [commentBody, String.append_assoc, String.toList_append (s := marker runId)]
  exact List.any_eq_true.mpr ⟨_, by simp, List.isPrefixOf_iff_prefix.mpr hprefix⟩

/-- What the app writes for a run is found again, whoever wrote the comment with it first. -/
theorem isRunComment_commentBody (app : GitHubApp) (runId : Int) (comment : Comment)
    (body : String) :
    app.isRunComment runId { comment with body := commentBody runId body }
      = app.isOwnComment comment := by
  simp only [GitHubApp.isRunComment, marker_isIn, Bool.true_and]
  rfl

theorem HasRunComment.append {comments : List Comment} (h : HasRunComment app runId comments)
    (comment : Comment) : HasRunComment app runId (comments ++ [comment]) := by
  obtain ⟨found, hm, hfound⟩ := h
  exact ⟨found, List.mem_append_left _ hm, hfound⟩

theorem HasRunComment.modify {comments : List Comment} (h : HasRunComment app runId comments)
    (id : Nat) (body : String) :
    HasRunComment app runId
      (comments.modify id fun comment => { comment with body := commentBody runId body }) := by
  obtain ⟨found, hm, hfound⟩ := h
  obtain ⟨i, hi, rfl⟩ := List.mem_iff_getElem.mp hm
  refine ⟨_, List.getElem_mem (n := i) (by simpa using hi), ?_⟩
  rw [List.getElem_modify]
  split
  · rw [isRunComment_commentBody]
    unfold GitHubApp.isRunComment at hfound
    rw [Bool.and_eq_true] at hfound
    exact hfound.2
  · exact hfound

theorem hasRunComment_created (comments : List Comment) (body : String) :
    HasRunComment app runId
      (comments ++ [{ app := some app.id, body := commentBody runId body }]) := by
  refine ⟨_, List.mem_append_right _ List.mem_cons_self, ?_⟩
  rw [isRunComment_commentBody app runId { app := some app.id, body := "" } body]
  simp [GitHubApp.isOwnComment, app.configured]

/-! ## The search for it -/

/-- The pages before `page` are full and hold no comment of the run. -/
def Searched (app : GitHubApp) (runId : Int) (comments : List Comment) (page : Nat) : Prop :=
  1 ≤ page ∧ 100 * (page - 1) ≤ comments.length
  ∧ ¬ HasRunComment app runId (comments.take (100 * (page - 1)))

theorem searched_one (app : GitHubApp) (runId : Int) (comments : List Comment) :
    Searched app runId comments 1 := by
  refine ⟨le_refl 1, by simp, ?_⟩
  rintro ⟨comment, hm, _⟩
  exact absurd hm (by simp)

/-- Comments that are added later do not matter. -/
theorem Searched.append {comments : List Comment} {page : Nat}
    (h : Searched app runId comments page) (comment : Comment) :
    Searched app runId (comments ++ [comment]) page := by
  obtain ⟨hpage, hlen, hnone⟩ := h
  refine ⟨hpage, by simp; omega, ?_⟩
  rw [List.take_append_of_le_length hlen]
  exact hnone

theorem commentsPage_map_fst (comments : List Comment) (page : Nat) :
    (commentsPage comments page).map Prod.fst = (comments.drop (100 * (page - 1))).take 100 := by
  unfold commentsPage
  rw [List.map_take, List.map_drop, List.zipIdx_map_fst]

theorem hasRunComment_append {xs ys : List Comment}
    (h : HasRunComment app runId (xs ++ ys)) :
    HasRunComment app runId xs ∨ HasRunComment app runId ys := by
  obtain ⟨comment, hm, hfound⟩ := h
  rcases List.mem_append.mp hm with hx | hy
  · exact Or.inl ⟨comment, hx, hfound⟩
  · exact Or.inr ⟨comment, hy, hfound⟩

/-- **A page without the comment** ends the search, or is a full page more. -/
theorem Searched.next {comments : List Comment} {page : Nat}
    (h : Searched app runId comments page)
    (hfind : (commentsPage comments page).find? (fun item => app.isRunComment runId item.1)
      = none) :
    if (commentsPage comments page).length < 100 then ¬ HasRunComment app runId comments
    else Searched app runId comments (page + 1) := by
  obtain ⟨hpage, hlen, hnone⟩ := h
  have hitems := commentsPage_map_fst comments page
  have hlength : (commentsPage comments page).length
      = min 100 (comments.length - 100 * (page - 1)) := by
    rw [← List.length_map (f := Prod.fst), hitems, List.length_take, List.length_drop]
  -- the page itself holds no comment of the run
  have hhere : ¬ HasRunComment app runId ((comments.drop (100 * (page - 1))).take 100) := by
    rintro ⟨comment, hm, hfound⟩
    rw [← hitems] at hm
    obtain ⟨item, hitem, rfl⟩ := List.mem_map.mp hm
    exact absurd hfound (List.find?_eq_none.mp hfind item hitem)
  split
  · -- a short page ends the list: the pages before it and this one are all there is
    rename_i hshort
    intro hall
    rw [← List.take_append_drop (100 * (page - 1)) comments] at hall
    rcases hasRunComment_append hall with hbefore | hrest
    · exact hnone hbefore
    · rw [← List.take_of_length_le (i := 100) (l := comments.drop (100 * (page - 1)))
        (by rw [List.length_drop]; omega)] at hrest
      exact hhere hrest
  · rename_i hfull
    refine ⟨by omega, by omega, ?_⟩
    rw [show 100 * (page + 1 - 1) = 100 * (page - 1) + 100 by omega, List.take_add]
    intro hall
    rcases hasRunComment_append hall with hbefore | hrest
    · exact hnone hbefore
    · exact hhere hrest

/-! ## At most one comment -/

/-- What an upsert knows about the comments. -/
def Knows (app : GitHubApp) (runId : Int) (comments : Int → List Comment) (created : List Int) :
    UpsertPc → Prop
  | .listComments number page _ =>
      (∀ n ∈ created, n = number) ∧ Searched app runId (comments number) page
  | .writeComment _ none _ => created = []
  | _ => True

structure UpsertInv (app : GitHubApp) (runId : Int) (s : PublicationSystem α) : Prop where
  /-- A created comment can be found. -/
  found : ∀ n ∈ s.created, HasRunComment app runId (s.comments n)
  once : s.created.length ≤ 1
  knows : ∀ c a body pc, s.call c = .publishing a body pc →
    Knows app runId s.comments s.created pc

omit [DecidableEq α] in
theorem upsertInv_init (db : Db) (comments : Int → List Comment) :
    UpsertInv app runId (PublicationSystem.init db comments : PublicationSystem α) where
  found := by intro n h; exact absurd h (by simp [PublicationSystem.init])
  once := by simp [PublicationSystem.init]
  knows := by intro c a body pc h; exact absurd h (by simp [PublicationSystem.init])

/-- The same request, sent once more, relies on the same. -/
theorem Knows.resend {comments : Int → List Comment} {created : List Int} {pc : UpsertPc}
    (h : Knows app runId comments created pc) : Knows app runId comments created pc.resend := by
  cases pc with
  | writeComment number existing attempt => cases existing <;> exact h
  | listComments | listChecks | writeCheck => exact h

/-- A listing that went through prepares the next request. -/
theorem Knows.proceed {comments : Int → List Comment} {created : List Int} {pc pc' : UpsertPc}
    {checkRuns : List CheckRun} (hfound : ∀ n ∈ created, HasRunComment app runId (comments n))
    (h : Knows app runId comments created pc)
    (hp : pc.proceed app runId comments checkRuns = some pc') :
    Knows app runId comments created pc' := by
  cases pc with
  | writeComment number existing attempt => exact absurd hp (by simp [UpsertPc.proceed])
  | writeCheck existing attempt => exact absurd hp (by simp [UpsertPc.proceed])
  | listChecks attempt => rw [← Option.some.inj hp]; trivial
  | listComments number page attempt =>
      obtain ⟨hsame, hsearched⟩ := h
      simp only [UpsertPc.proceed] at hp
      split at hp
      · rw [← Option.some.inj hp]; trivial
      · rename_i hfind
        have hnext := hsearched.next hfind
        split at hp
        · -- the search is over: what was created would have been found
          rename_i hshort
          rw [if_pos hshort] at hnext
          rw [← Option.some.inj hp]
          refine List.eq_nil_iff_forall_not_mem.mpr fun n hn => hnext ?_
          rw [← hsame n hn]
          exact hfound n hn
        · rename_i hfull
          rw [if_neg hfull] at hnext
          rw [← Option.some.inj hp]
          exact ⟨hsame, hnext⟩

/-- An upsert starts with everything still to be searched. -/
theorem knows_first {comments : Int → List Comment} {created : List Int}
    {publication : Publication} {pc : UpsertPc} (hfirst : publication.firstRequest = some pc)
    (hsame : SamePullRequest created (some pc)) : Knows app runId comments created pc := by
  unfold Publication.firstRequest at hfirst
  split at hfirst
  · split at hfirst
    · rw [← Option.some.inj hfirst] at hsame ⊢
      exact ⟨hsame, searched_one app runId _⟩
    · rw [← Option.some.inj hfirst] at hsame ⊢
      exact ⟨hsame, searched_one app runId _⟩
    · rw [← Option.some.inj hfirst]
      trivial
    · exact absurd hfirst (by simp)
  · exact absurd hfirst (by simp)

section Step

variable {s s' : PublicationSystem α}

/-- What a request that is carried out creates is found, and it is the only one. -/
theorem perform_found {comments : Int → List Comment} {created : List Int} {pc : UpsertPc}
    (hfound : ∀ n ∈ created, HasRunComment app runId (comments n)) (honce : created.length ≤ 1)
    (h : Knows app runId comments created pc) (body : String) :
    (∀ n ∈ pc.creates.toList ++ created,
      HasRunComment app runId (pc.perform app runId body comments n))
    ∧ (pc.creates.toList ++ created).length ≤ 1 := by
  cases pc with
  | listComments | listChecks | writeCheck => exact ⟨hfound, honce⟩
  | writeComment number existing attempt =>
      cases existing with
      | some id =>
          refine ⟨fun n hn => ?_, honce⟩
          simp only [UpsertPc.perform]
          by_cases he : n = number
          · subst he
            rw [Function.update_self]
            exact (hfound n hn).modify id body
          · rw [Function.update_of_ne he]
            exact hfound n hn
      | none =>
          -- the search came to its end without a comment, so this is the first
          have hnil : created = [] := h
          subst hnil
          refine ⟨fun n hn => ?_, by simp [UpsertPc.creates]⟩
          obtain rfl : n = number := by simpa [UpsertPc.creates] using hn
          simp only [UpsertPc.perform, Function.update_self]
          exact hasRunComment_created (comments n) body

/-- Nothing is performed, or nothing is created, by a request that is followed by another. -/
theorem Knows.sent {comments : Int → List Comment} {created : List Int} {a : Attempt}
    {body : String} {pc : UpsertPc} {reply : Reply} (h : Knows app runId comments created pc)
    (hok : NotResent policy reply (.publishing a body pc))
    (hnext : requestWithRetry policy pc.method pc.attempt reply = .resend) :
    Knows app runId (if reply.performed then pc.perform app runId body comments else comments)
      (if reply.performed then pc.creates.toList ++ created else created) pc := by
  cases pc with
  | listComments => cases reply.performed <;> exact h
  | listChecks => trivial
  | writeCheck => trivial
  | writeComment number existing attempt =>
      cases existing with
      | some id => trivial
      | none =>
          cases hperf : reply.performed with
          | false => exact h
          | true => exact absurd hnext (hok (by simp [UpsertPc.creates]) hperf)

theorem upsertInv_request (hp : PublishInv runId s) (h : UpsertInv app runId s) {c : α}
    {a : Attempt} {body : String} {pc : UpsertPc} {reply : Reply} {checkRuns : List CheckRun}
    (hc : s.call c = .publishing a body pc) (hok : NotResent policy reply (s.call c)) :
    UpsertInv app runId ((s.sendRequest app runId a body pc reply).setCall c
      (PublicationSystem.afterReply app runId s.comments a body pc checkRuns
        (requestWithRetry policy pc.method pc.attempt reply))) := by
  have hknows := h.knows c a body pc hc
  have hdone := perform_found h.found h.once hknows body
  rw [hc] at hok
  refine ⟨?_, ?_, ?_⟩
  · show ∀ n ∈ (if reply.performed then pc.creates.toList ++ s.created else s.created),
      HasRunComment app runId
        ((if reply.performed then pc.perform app runId body s.comments else s.comments) n)
    split
    · exact hdone.1
    · exact h.found
  · show (if reply.performed then pc.creates.toList ++ s.created else s.created).length ≤ 1
    split
    · exact hdone.2
    · exact h.once
  · intro c' a' body' pc' hc'
    by_cases he : c' = c
    · subst he
      simp only [PublicationSystem.setCall, Function.update_self] at hc'
      cases hv : requestWithRetry policy pc.method pc.attempt reply with
      | resend =>
          rw [hv] at hc'
          obtain ⟨_, _, rfl⟩ := CallPhase.publishing.inj hc'
          exact (hknows.sent hok hv).resend
      | raised message => rw [hv] at hc'; exact absurd hc' (by simp [PublicationSystem.afterReply])
      | returned =>
          rw [hv] at hc'
          simp only [PublicationSystem.afterReply] at hc'
          split at hc'
          · rename_i pc'' hproceed
            obtain ⟨_, _, rfl⟩ := CallPhase.publishing.inj hc'
            -- only a listing is followed by another request, and it changes nothing
            have hget : ∀ performed : Bool,
                (if performed then pc.perform app runId body s.comments else s.comments)
                  = s.comments
                ∧ (if performed then pc.creates.toList ++ s.created else s.created)
                  = s.created := by
              intro performed
              cases pc with
              | listComments => cases performed <;> exact ⟨rfl, rfl⟩
              | listChecks => cases performed <;> exact ⟨rfl, rfl⟩
              | writeComment => exact absurd hproceed (by simp [UpsertPc.proceed])
              | writeCheck => exact absurd hproceed (by simp [UpsertPc.proceed])
            show Knows app runId
              (if reply.performed then pc.perform app runId body s.comments else s.comments)
              (if reply.performed then pc.creates.toList ++ s.created else s.created) _
            rw [(hget _).1, (hget _).2]
            exact hknows.proceed h.found hproceed
          · exact absurd hc' (by simp)
    · -- no other call is in an upsert
      simp only [PublicationSystem.setCall, Function.update_of_ne he] at hc'
      have hin : inWindow (s.call c') = true := by
        rw [show s.call c' = _ from hc']
        rfl
      exact absurd (hp.alone hin (by rw [hc]; rfl)) he

theorem upsertInv_step {l : PublishLabel α} (hp : PublishInv runId s) (h : UpsertInv app runId s)
    (hok : Orderly policy runId s l) (hs : PublishStep app policy runId s l s') :
    UpsertInv app runId s' := by
  -- a call that does not come to an upsert
  have hset : ∀ {c : α} {phase : CallPhase}, (∀ a body pc, phase ≠ .publishing a body pc) →
      ∀ c' a body pc, Function.update s.call c phase c' = .publishing a body pc →
        Knows app runId s.comments s.created pc := by
    intro c phase hne c' a body pc hc'
    by_cases he : c' = c
    · rw [he, Function.update_self] at hc'
      exact absurd hc' (hne a body pc)
    · rw [Function.update_of_ne he] at hc'
      exact h.knows c' a body pc hc'
  have hprogress : ∀ (p : Progress) (a : Attempt) (body : String) (pc : UpsertPc),
      CallPhase.ofProgress p ≠ .publishing a body pc := by
    intro p a body pc
    cases p <;> simp [CallPhase.ofProgress]
  cases hs with
  | begin c token fate now hc fresh => exact ⟨h.found, h.once, hset (hprogress _)⟩
  | advance c event a p store hc hstep => exact ⟨h.found, h.once, hset (hprogress _)⟩
  | publishNothing c publication a hc hpc hfirst => exact ⟨h.found, h.once, hset (by simp)⟩
  | publish c publication a pc hc hpc hfirst =>
      refine ⟨h.found, h.once, fun c' a' body' pc' hc' => ?_⟩
      by_cases he : c' = c
      · subst he
        simp only [PublicationSystem.setCall, Function.update_self] at hc'
        obtain ⟨_, _, rfl⟩ := CallPhase.publishing.inj hc'
        have hsame : SamePullRequest s.created publication.firstRequest := hok
        rw [hfirst] at hsame
        exact knows_first hfirst hsame
      · simp only [PublicationSystem.setCall, Function.update_of_ne he] at hc'
        exact h.knows c' a' body' pc' hc'
  | request c reply checkRuns a body pc hc => exact upsertInv_request hp h hc hok
  | handled status error now => exact ⟨h.found, h.once, h.knows⟩
  | comment number comment =>
      have happend : ∀ n, (Function.update s.comments number (s.comments number ++ [comment])) n
          = if n = number then s.comments n ++ [comment] else s.comments n := by
        intro n
        rw [Function.update_apply]
        split
        · rename_i he
          rw [he]
        · rfl
      refine ⟨fun n hn => ?_, h.once, fun c a body pc hc => ?_⟩
      · show HasRunComment app runId
          ((Function.update s.comments number (s.comments number ++ [comment])) n)
        rw [happend]
        split
        · exact (h.found n hn).append comment
        · exact h.found n hn
      · have hknows := h.knows c a body pc hc
        cases pc with
        | listComments m page attempt =>
            refine ⟨hknows.1, ?_⟩
            dsimp only
            rw [happend]
            split
            · exact hknows.2.append comment
            · exact hknows.2
        | writeComment m existing attempt => cases existing <;> exact hknows
        | listChecks | writeCheck => trivial

end Step

/--
**Only the newest attempt publishes, and one comment at most.**

Take any number of `analyze` calls for one run, on any database and any comments,
interleaved at every transaction and every request with each other, with failure
handlers and with other people's comments. Let no begin be committed while a call
is between the token check of `PUBLISHING` and its last write, let a comment be
looked for where one was created, and let no `POST` that created one be sent again.
Then every write was sent by the attempt that had begun last, and at most one
comment was created.
-/
theorem publication_fenced {db : Db} {comments : Int → List Comment} {s : PublicationSystem α}
    (h : Reach (PublicationSystem.step app policy runId) (Orderly policy runId)
      (PublicationSystem.init db comments) s) :
    WritesFenced s.log ∧ s.created.length ≤ 1 := by
  have hinv : PublishInv runId s ∧ UpsertInv app runId s := by
    refine h.invariant (P := fun s => PublishInv runId s ∧ UpsertInv app runId s)
      ⟨publishInv_init db comments, upsertInv_init db comments⟩ ?_
    intro s s' l _ hi hok hs
    exact ⟨publishInv_step hi.1 hok (publishStep hs),
      upsertInv_step hi.1 hi.2 hok (publishStep hs)⟩
  exact ⟨hinv.1.fenced, hinv.2.once⟩

/-! ## The window, used and kept shut -/

section Decidable

variable {β : Type} [Fintype β]

instance (created : List Int) (pc : Option UpsertPc) : Decidable (SamePullRequest created pc) :=
  match pc with
  | some (.listComments number _ _) => inferInstanceAs (Decidable (∀ n ∈ created, n = number))
  | some (.writeComment _ _ _) | some (.listChecks _) | some (.writeCheck _ _) | none =>
      inferInstanceAs (Decidable True)

instance (reply : Reply) (phase : CallPhase) : Decidable (NotResent policy reply phase) := by
  apply CallPhase.casesOn (motive := fun phase => Decidable (NotResent policy reply phase)) phase <;>
    intros <;> dsimp only [NotResent] <;> infer_instance

instance (s : PublicationSystem β) (l : PublishLabel β) : Decidable (Orderly policy runId s l) := by
  apply PublishLabel.casesOn (motive := fun l => Decidable (Orderly policy runId s l)) l <;>
    intros <;> dsimp only [Orderly] <;> infer_instance

end Decidable

def pipelensApp : GitHubApp := { id := "4242", configured := by decide }

/-- A database with one queued run, 77. -/
def widgetQueued : Db :=
  (Db.empty.createIfAbsent
    { runId := 77, deliveryId := "delivery-77", repository := "acme/widgets", workflowName := "CI",
      headSha := "abc123", htmlUrl := "https://github.com/acme/widgets/actions/runs/77",
      installationId := some 5, createdAt := 0, updatedAt := 0 }).1

/-- The stages before `PUBLISHING` go through, and it is recorded as started. -/
def reachesPublishing (c : Duo) : List (PublishLabel Duo) :=
  let store := PublishLabel.advance c (.store .answered {} 20)
  let body := PublishLabel.advance c .bodyCompleted
  List.flatten [[store, body, store, store], [store, body, store], [store, body, store],
    [store, body, store], [store, body, store, store], [store]]

/-- A trusted run of pull request 12. -/
def onPullRequest : Publication :=
  { publishChecks := true, trustLevel := .trusted, pullRequestNumber := some 12,
    body := "The build needs libfoo 2." }

/--
The first call has passed the token check when the second begins. Both look for the
comment before either writes, and both create one.
-/
def bothPublish : List (PublishLabel Duo) :=
  List.flatten [[.begin .first 100 .answered 10], reachesPublishing .first,
    [.begin .second 101 .answered 30, .publish .first onPullRequest, .request .first .success []],
    reachesPublishing .second,
    [.publish .second onPullRequest, .request .second .success [], .request .first .success [],
      .request .second .success []]]

theorem publication_overtaken :
    ∃ s : PublicationSystem Duo, Reach (PublicationSystem.step pipelensApp {} 77) anyStep
        (PublicationSystem.init widgetQueued fun _ => []) s
      ∧ ¬ WritesFenced s.log ∧ ¬ s.created.length ≤ 1 := by
  have hrun : (exec (PublicationSystem.step pipelensApp {} 77) anyStep
      (PublicationSystem.init widgetQueued fun _ => []) bothPublish).any (fun s =>
        decide (¬ WritesFenced s.log) && decide (¬ s.created.length ≤ 1)) = true := by
    decide +kernel
  obtain ⟨s, hs, hbad⟩ := (Option.any_eq_true _ _).mp hrun
  rw [Bool.and_eq_true, decide_eq_true_eq, decide_eq_true_eq] at hbad
  exact ⟨s, reach_of_exec Reach.init hs, hbad⟩

/-- The second begins after the write of the first; it finds the comment and updates it. -/
def publishInTurn : List (PublishLabel Duo) :=
  List.flatten [[.begin .first 100 .answered 10], reachesPublishing .first,
    [.publish .first onPullRequest, .request .first .success [], .request .first .success [],
      .comment 12 { app := none, body := "Thanks!" }, .begin .second 101 .answered 30],
    reachesPublishing .second,
    [.publish .second onPullRequest, .request .second .success [], .request .second .success []]]

theorem publication_fenced_inTurn :
    ∃ s, exec (PublicationSystem.step pipelensApp {} 77) (Orderly {} 77)
        (PublicationSystem.init widgetQueued fun _ => []) publishInTurn = some s
      ∧ s.log = [.sent 101, .begun 101, .sent 100, .begun 100] ∧ s.created = [12]
      ∧ WritesFenced s.log ∧ s.created.length ≤ 1 := by
  have hrun : (exec (PublicationSystem.step pipelensApp {} 77) (Orderly {} 77)
      (PublicationSystem.init widgetQueued fun _ => []) publishInTurn).any (fun s =>
        decide (s.log = [.sent 101, .begun 101, .sent 100, .begun 100])
        && decide (s.created = [12])) = true := by decide +kernel
  obtain ⟨s, hs, hend⟩ := (Option.any_eq_true _ _).mp hrun
  rw [Bool.and_eq_true, decide_eq_true_eq, decide_eq_true_eq] at hend
  exact ⟨s, hs, hend.1, hend.2, publication_fenced (reach_of_exec Reach.init hs)⟩

end PipeLens.Proof
