import PipeLens.Access
import PipeLens.Lib.Program
import PipeLens.Proof.Isolation
import PipeLens.Proof.KeyRotation

/-!
# What a request has been through

In each phase of a request that needs a session something is known of the login it was made
with. Once `authenticate` has returned, the login was still in time, and the access token is
the one it handed out; once GitHub has been asked, it has listed the installations that the
request goes on with, for this token and during this request. Behind it is that the token
that is stored of a login is always its own, under whichever key.
-/

namespace PipeLens.Proof

open PipeLens Transition Api

variable {ω κ τ : Type} {api : Api κ τ} {s s' : Site ω κ τ}

/-! ## The steps -/

/-- Nothing changes but the clock, the keys, the logins and what users may install. -/
structure SiteQuiet (s s' : Site ω κ τ) : Prop where
  db : s'.db = s.db
  users : s'.users = s.users
  sessions : s'.sessions = s.sessions
  visits : s'.visits = s.visits
  issued : s'.issued = s.issued
  answers : s'.answers = s.answers

/-- The steps, each with what it needs. -/
inductive SiteStep [DecidableEq κ] (api : Api κ τ) (s : Site ω κ τ) :
    SiteLabel ω κ → Site ω κ τ → Prop where
  | quiet (l : SiteLabel ω κ) (s' : Site ω κ τ) (h : SiteQuiet s s') : SiteStep api s l s'
  | others (db : Database) : SiteStep api s (.others db) { s with db := db }
  | upsertUser (j : Nat) (user : GitHubUser) (logins : List Login) :
      SiteStep api s (.upsertUser j)
        { s with users := Function.update s.users user.githubUserId user, logins := logins }
  | createSession (j : Nat) (w : ω) (token : String) (nonce : Nat) (grant : SessionGrant)
      (logins : List Login) (hfresh : s.issued (api.hashToken token) = none) :
      SiteStep api s (.createSession j w token nonce)
        { s with
          sessions := Function.update s.sessions (api.hashToken token) (some
            { githubUserId := grant.githubUserId
              encryptedAccessToken :=
                api.fernet.encrypt (s.keys w).primary nonce grant.accessToken.toUTF8
              expiresAt := grant.expiresAt })
          issued := Function.update s.issued (api.hashToken token) (some grant)
          logins := logins }
  | request (w : ω) (token : String) (route : Route) :
      SiteStep api s (.request w token route)
        { s with visits := s.visits ++ [api.arrive s w token route] }
  | check (i : Nat) (visit : Visit ω τ)
      (row : Option (AuthSession τ × GitHubUser)) (hi : s.visits[i]? = some visit)
      (hphase : visit.phase = .authenticating row .fetched) :
      SiteStep api s (.check i)
        (s.setVisit i { visit with
          checkedAt := some s.now
          phase := api.settle visit.route row (checkSession api.fernet (s.keys visit.api) s.now
            (api.hashToken visit.token) row) })
  | write (i nonce : Nat) (visit : Visit ω τ) (session : AuthSession τ) (user : GitHubUser)
      (token : ByteArray) (hi : s.visits[i]? = some visit)
      (hphase : visit.phase = .authenticating (some (session, user)) (.rewriting token)) :
      SiteStep api s (.write i nonce)
        ((s.setSession (api.hashToken visit.token)
          ((s.sessions (api.hashToken visit.token)).map fun session =>
            { session with
              encryptedAccessToken :=
                api.fernet.encrypt (s.keys visit.api).primary nonce token })).setVisit i
          { visit with
            phase := api.settle visit.route (some (session, user))
              (decodeToken (api.hashToken visit.token) user token) })
  | delete (i : Nat) (visit : Visit ω τ) (row : Option (AuthSession τ × GitHubUser))
      (hi : s.visits[i]? = some visit) (hphase : visit.phase = .authenticating row .deleting) :
      SiteStep api s (.delete i)
        ((s.setSession (api.hashToken visit.token) none).setVisit i
          { visit with phase := .replied (.status 401) })
  | ask (i : Nat) (visit : Visit ω τ) (session : AuthenticatedSession)
      (installations : List GitHubInstallation) (hi : s.visits[i]? = some visit)
      (hphase : visit.phase = .asking session) :
      SiteStep api s (.ask i (.ok installations))
        ({ s with
          answers := ⟨i, session.accessToken, installations⟩ :: s.answers }.setVisit i
          { visit with phase := .replacing session installations })
  /-- GitHub has not answered, or the transaction was refused. -/
  | failed (l : SiteLabel ω κ) (i : Nat) (visit : Visit ω τ) (hi : s.visits[i]? = some visit)
      (session : AuthenticatedSession)
      (hphase : visit.phase = .asking session
        ∨ ∃ installations, visit.phase = .replacing session installations) :
      SiteStep api s l (s.setVisit i { visit with phase := .replied (.status 500) })
  | replace (i : Nat) (visit : Visit ω τ) (session : AuthenticatedSession)
      (installations : List GitHubInstallation) (hi : s.visits[i]? = some visit)
      (hphase : visit.phase = .replacing session installations) :
      SiteStep api s (.replace i true)
        ((s.replaceUserInstallations session.user.githubUserId installations true).setVisit i
          { visit with phase := withInstallations visit.route session installations })
  | serve (i : Nat) (visit : Visit ω τ) (ids : Option (Finset Int))
      (hi : s.visits[i]? = some visit) (hphase : visit.phase = .serving ids) :
      SiteStep api s (.serve i)
        ({ s with db := (api.serve s.db s.now ids visit.route).1 }.setVisit i
          { visit with phase := .replied (api.serve s.db s.now ids visit.route).2 })
  | leave (i : Nat) (visit : Visit ω τ) (session : AuthenticatedSession)
      (hi : s.visits[i]? = some visit) (hphase : visit.phase = .leaving session) :
      SiteStep api s (.leave i)
        ((s.setSession session.sessionHash none).setVisit i
          { visit with phase := .replied (.status 204) })

theorem quiet_replace (githubUserId : Int) (installations : List GitHubInstallation)
    (committed : Bool) (j : Nat) (login : Login) :
    SiteQuiet s
      ((s.replaceUserInstallations githubUserId installations committed).setLogin j login) := by
  cases committed with
  | true => exact ⟨rfl, rfl, rfl, rfl, rfl, rfl⟩
  | false => exact ⟨rfl, rfl, rfl, rfl, rfl, rfl⟩

theorem siteStep_login [DecidableEq ω] [DecidableEq κ] {j : Nat} {login : Login} {l : SiteLabel ω κ}
    (hl : l = .upsertUser j ∨ (∃ answer, l = .askLogin j answer)
      ∨ (∃ committed, l = .replaceLogin j committed)
      ∨ ∃ w token nonce, l = .createSession j w token nonce)
    (h : api.loginStep s j login l = some s') : SiteStep api s l s' := by
  rcases hl with rfl | ⟨answer, rfl⟩ | ⟨committed, rfl⟩ | ⟨w, token, nonce, rfl⟩
  · simp only [loginStep] at h
    split at h
    · rw [← Option.some.inj h]
      exact .upsertUser j login.user _
    · exact nomatch h
  · simp only [loginStep] at h
    split at h
    · rw [← Option.some.inj h]
      exact .quiet _ _ ⟨rfl, rfl, rfl, rfl, rfl, rfl⟩
    · rw [← Option.some.inj h]
      exact .quiet _ _ ⟨rfl, rfl, rfl, rfl, rfl, rfl⟩
    · exact nomatch h
  · simp only [loginStep] at h
    split at h
    · rw [← Option.some.inj h]
      exact .quiet _ _ (quiet_replace _ _ _ _ _)
    · exact nomatch h
  · simp only [loginStep] at h
    split at h
    · split at h
      · rename_i hfresh
        rw [← Option.some.inj h]
        exact .createSession j w token nonce
          ⟨login.user.githubUserId, login.accessToken, s.now + api.ttl login.expiresIn⟩ _ hfresh
      · exact nomatch h
    · exact nomatch h

theorem siteStep_visit [DecidableEq κ] {i : Nat} {visit : Visit ω τ} {l : SiteLabel ω κ}
    (hi : s.visits[i]? = some visit)
    (hl : l = .check i ∨ (∃ nonce, l = .write i nonce) ∨ l = .delete i
      ∨ (∃ answer, l = .ask i answer) ∨ (∃ committed, l = .replace i committed)
      ∨ l = .serve i ∨ l = .leave i)
    (h : api.visitStep s i visit l = some s') : SiteStep api s l s' := by
  rcases hl with rfl | ⟨nonce, rfl⟩ | rfl | ⟨answer, rfl⟩ | ⟨committed, rfl⟩ | rfl | rfl
  · simp only [visitStep] at h
    split at h
    · rename_i row hphase
      rw [← Option.some.inj h]
      exact .check i visit row hi hphase
    · cases h
  · simp only [visitStep] at h
    split at h
    · rename_i session user token hphase
      rw [← Option.some.inj h]
      exact .write i nonce visit session user token hi hphase
    · cases h
  · simp only [visitStep] at h
    split at h
    · rename_i row hphase
      rw [← Option.some.inj h]
      exact .delete i visit row hi hphase
    · cases h
  · simp only [visitStep] at h
    split at h
    · rename_i session installations hphase
      rw [← Option.some.inj h]
      exact .ask i visit session installations hi hphase
    · rename_i session _ hphase
      rw [← Option.some.inj h]
      exact .failed _ i visit hi session (Or.inl hphase)
    · cases h
  · simp only [visitStep] at h
    split at h
    · rename_i session installations hphase
      rw [← Option.some.inj h]
      cases committed with
      | true => exact .replace i visit session installations hi hphase
      | false => exact .failed _ i visit hi session (Or.inr ⟨installations, hphase⟩)
    · cases h
  · simp only [visitStep] at h
    split at h
    · rename_i ids hphase
      rw [← Option.some.inj h]
      exact .serve i visit ids hi hphase
    · cases h
  · simp only [visitStep] at h
    split at h
    · rename_i session hphase
      rw [← Option.some.inj h]
      exact .leave i visit session hi hphase
    · cases h

/-- **Every step is one of these.** -/
theorem siteStep [DecidableEq ω] [DecidableEq κ] {l : SiteLabel ω κ} (h : api.step s l = some s') :
    SiteStep api s l s' := by
  cases l with
  | tick d | deploy w keys | login user accessToken expiresIn =>
      rw [← Option.some.inj h]
      exact .quiet _ _ ⟨rfl, rfl, rfl, rfl, rfl, rfl⟩
  | others db =>
      rw [← Option.some.inj h]
      exact .others db
  | request w token route =>
      rw [← Option.some.inj h]
      exact .request w token route
  | upsertUser j | askLogin j answer | replaceLogin j committed | createSession j w token nonce =>
      simp only [Api.step] at h
      split at h
      · refine siteStep_login ?_ h
        simp
      · cases h
  | check i | write i nonce | delete i | ask i answer | replace i committed | serve i | leave i =>
      simp only [Api.step] at h
      split at h
      · rename_i visit hi
        refine siteStep_visit hi ?_ h
        simp
      · cases h

/-! ## What is stored of a login -/

/-- The session is that of the login that was given this hash. -/
structure Backed (api : Api κ τ) (s : Site ω κ τ) (hash : String) (session : AuthSession τ)
    (grant : SessionGrant) : Prop where
  issued : s.issued hash = some grant
  githubUserId : session.githubUserId = grant.githubUserId
  expiresAt : session.expiresAt = grant.expiresAt
  token : ∃ key nonce,
    session.encryptedAccessToken = api.fernet.encrypt key nonce grant.accessToken.toUTF8

/-- The expiry was compared with the clock in time. -/
def CheckedInTime (visit : Visit ω τ) (grant : SessionGrant) : Prop :=
  ∃ t, visit.checkedAt = some t ∧ t < grant.expiresAt

/-- The session that the request goes on with is that of a login in time. -/
structure Admitted (api : Api κ τ) (s : Site ω κ τ) (visit : Visit ω τ)
    (session : AuthenticatedSession) (grant : SessionGrant) : Prop where
  issued : s.issued (api.hashToken visit.token) = some grant
  inTime : CheckedInTime visit grant
  sessionHash : session.sessionHash = api.hashToken visit.token
  githubUserId : session.user.githubUserId = grant.githubUserId
  accessToken : session.accessToken = grant.accessToken

/-- GitHub has listed the installations for the login, when this request asked it to. -/
structure Authorized (api : Api κ τ) (s : Site ω κ τ) (i : Nat) (visit : Visit ω τ)
    (grant : SessionGrant) (installations : List GitHubInstallation) : Prop where
  issued : s.issued (api.hashToken visit.token) = some grant
  inTime : CheckedInTime visit grant
  listed : ⟨i, grant.accessToken, installations⟩ ∈ s.answers

def OwnedBy (installations : List GitHubInstallation) (installationId : Option Int) : Prop :=
  ∃ installation ∈ installations, installationId = some installation.installationId

/-- The reply shows nothing beyond these installations. -/
def Shows (grant : SessionGrant) (installations : List GitHubInstallation) : ApiReply → Prop
  | .status _ | .feedback _ => True
  | .user user listed => user.githubUserId = grant.githubUserId ∧ listed = installations
  | .page page => ∀ record ∈ page.records, OwnedBy installations record.installationId
  | .analysis record => OwnedBy installations record.installationId

/-- The reply is covered by a login. -/
def Covered (api : Api κ τ) (s : Site ω κ τ) (i : Nat) (visit : Visit ω τ) (reply : ApiReply) :
    Prop :=
  (∃ code, reply = .status code)
    ∨ ∃ grant installations, Authorized api s i visit grant installations
      ∧ Shows grant installations reply

/-- A request that has to come with a session. -/
def NeedsSession (api : Api κ τ) (route : Route) : Prop :=
  api.authRequired = true ∨ route.isData = false

/-- What holds of a request in each phase. -/
def PhaseInv (api : Api κ τ) (s : Site ω κ τ) (i : Nat) (visit : Visit ω τ) : Prop :=
  match visit.phase with
  | .authenticating row phase =>
      (∀ session user, row = some (session, user) →
        user.githubUserId = session.githubUserId
          ∧ ∃ grant, Backed api s (api.hashToken visit.token) session grant)
      ∧ ∀ token, phase = .rewriting token →
        ∃ grant, s.issued (api.hashToken visit.token) = some grant
          ∧ token = grant.accessToken.toUTF8 ∧ CheckedInTime visit grant
  | .asking session | .leaving session => ∃ grant, Admitted api s visit session grant
  | .replacing session installations => ∃ grant, Admitted api s visit session grant
      ∧ ⟨i, grant.accessToken, installations⟩ ∈ s.answers
  | .serving ids => NeedsSession api visit.route →
      ∃ grant installations, ids = some (installationIds installations)
        ∧ Authorized api s i visit grant installations
  | .replied reply => NeedsSession api visit.route → Covered api s i visit reply

structure SiteInv (api : Api κ τ) (s : Site ω κ τ) : Prop where
  users : ∀ id user, s.users id = some user → user.githubUserId = id
  sessions : ∀ hash session, s.sessions hash = some session →
    ∃ grant, Backed api s hash session grant
  visits : ∀ i visit, s.visits[i]? = some visit → PhaseInv api s i visit

theorem siteInv_init (now : Instant) (keys : ω → TokenKeys κ) (db : Database) :
    SiteInv api (Site.init now keys db : Site ω κ τ) where
  users _ _ h := nomatch h
  sessions _ _ h := nomatch h
  visits _ _ h := nomatch h

/-! ## `authenticate` -/

/-- Whatever key decrypts a token, it is the token that was encrypted. -/
theorem decrypt_encrypt {key key' : κ} {nonce : Nat} {token token' : ByteArray}
    (h : api.fernet.decrypt key' (api.fernet.encrypt key nonce token) = some token') :
    token' = token := by
  by_cases hkey : key = key'
  · rw [hkey, api.fernet.decrypt_own] at h
    exact (Option.some.inj h).symm
  · rw [api.fernet.decrypt_other key key' nonce token hkey] at h
    exact nomatch h

/-- How the check of a session ends. -/
theorem checkSession_backed [DecidableEq κ] {hash : String} {session : AuthSession τ}
    {grant : SessionGrant} (h : Backed api s hash session grant) (user : GitHubUser)
    (keys : TokenKeys κ) (now : Instant) :
    checkSession api.fernet keys now hash (some (session, user)) = .deleting
    ∨ (now < grant.expiresAt
      ∧ (checkSession api.fernet keys now hash (some (session, user))
          = .returned (some ⟨hash, user, grant.accessToken⟩)
        ∨ checkSession api.fernet keys now hash (some (session, user))
          = .rewriting grant.accessToken.toUTF8)) := by
  obtain ⟨key, nonce, htoken⟩ := h.token
  rw [← h.expiresAt]
  unfold checkSession
  by_cases hexpired : session.expiresAt ≤ now
  · exact Or.inl (if_pos hexpired)
  · dsimp only
    rw [if_neg hexpired, htoken]
    have hlive : now < session.expiresAt := lt_of_not_ge hexpired
    cases hown : api.fernet.decrypt keys.primary
        (api.fernet.encrypt key nonce grant.accessToken.toUTF8) with
    | some token =>
        obtain rfl := decrypt_encrypt hown
        exact Or.inr ⟨hlive, Or.inl (decodeToken_toUTF8 hash user grant.accessToken)⟩
    | none =>
        cases hring : keys.decrypt api.fernet
            (api.fernet.encrypt key nonce grant.accessToken.toUTF8) with
        | none => exact Or.inl rfl
        | some token =>
            obtain ⟨other, _, hother⟩ := List.exists_of_findSome?_eq_some hring
            obtain rfl := decrypt_encrypt hother
            exact Or.inr ⟨hlive, Or.inr rfl⟩

/-! ## The bodies of the routes -/

theorem ownedBy_of_installationIn {installations : List GitHubInstallation} {row : AnalysisRow}
    (h : installationIn (some (installationIds installations)) row = true) :
    OwnedBy installations row.installationId := by
  unfold installationIn at h
  obtain ⟨id, hid, hm⟩ := (Option.any_eq_true _ _).mp h
  have hlisted := List.mem_toFinset.mp (of_decide_eq_true hm)
  obtain ⟨installation, hinstallation, heq⟩ := List.mem_map.mp hlisted
  exact ⟨installation, hinstallation, by rw [hid, heq]⟩

theorem toRecord_installationId {row : AnalysisRow} {feedback : Option FeedbackRecord}
    {stageHistory : List AnalysisStageEvent} {record : AnalysisDetail}
    (h : toRecord row feedback stageHistory = .ok record) :
    record.installationId = row.installationId := by
  unfold toRecord at h
  split at h
  · exact nomatch h
  · rw [← Except.ok.inj h]

theorem get_owned {db : Database} {runId : Int} {installations : List GitHubInstallation}
    {record : AnalysisDetail}
    (h : db.get runId (some (installationIds installations)) = .ok (some record)) :
    OwnedBy installations record.installationId := by
  unfold Database.get at h
  split at h
  · cases h
  · split at h
    · cases h
    · rename_i row hrow
      have hin := (Option.filter_eq_some_iff.mp hrow).2
      cases hrecord : toRecord row (db.feedback.find? row.runId)
          (db.stageHistory [runId] runId) with
      | error e =>
          rw [hrecord] at h
          cases h
      | ok found =>
          rw [hrecord] at h
          obtain rfl := Option.some.inj (Except.ok.inj h)
          rw [toRecord_installationId hrecord]
          exact ownedBy_of_installationIn hin

theorem listPage_owned {db : Database} {backend : Backend} {limit : Int} {filter : AnalysisFilter}
    {cursor : Option AnalysisCursor} {installations : List GitHubInstallation}
    {page : AnalysisPage} (hids : filter.installationIds = some (installationIds installations))
    (h : db.listPage backend limit filter cursor = .ok page) :
    ∀ record ∈ page.records, OwnedBy installations record.installationId := by
  unfold Database.listPage at h
  split at h
  · obtain rfl := Except.ok.inj h
    exact fun record hm => absurd hm List.not_mem_nil
  · obtain ⟨rows, hrows, h⟩ := Program.bind_eq_ok h
    obtain ⟨records, hrecords, h⟩ := Program.bind_eq_ok h
    obtain rfl := Except.ok.inj h
    intro record hm
    obtain ⟨row, hrow, hrecord⟩ := Program.mapM_eq_ok_mem hrecords record hm
    have hselected := mem_of_sqlLimit hrows (mem_of_mem_pySlice hrow)
    rw [Keyset.mem_orderDesc] at hselected
    have hmatches := (List.mem_filter.mp hselected).2
    simp only [AnalysisFilter.matches, Bool.and_eq_true] at hmatches
    rw [toRecord_installationId hrecord]
    refine ownedBy_of_installationIn ?_
    rw [← hids]
    exact hmatches.1.1.1.1

/-- A listing is a page of the installations it was asked for, or a status. -/
theorem serve_listAnalyses (api : Api κ τ) (db : Database) (now : Instant) (ids : Option (Finset Int))
    (limit : Int) (repository : Option String) (status : Option AnalysisStatus)
    (category : Option ErrorCategory) (cursor : Option String) :
    (∃ filter after page, filter.installationIds = ids
        ∧ db.listPage api.backend limit filter after = .ok page
        ∧ api.serve db now ids (.listAnalyses limit repository status category cursor)
          = (db, .page page))
      ∨ ∃ code, api.serve db now ids (.listAnalyses limit repository status category cursor)
          = (db, .status code) := by
  unfold Api.serve
  dsimp only
  split
  · split
    · rename_i page hlist
      exact Or.inl ⟨_, _, page, rfl, hlist, rfl⟩
    · exact Or.inr ⟨500, rfl⟩
  · split
    · rename_i page hlist
      exact Or.inl ⟨_, _, page, rfl, hlist, rfl⟩
    · exact Or.inr ⟨500, rfl⟩
  · split
    · split
      · rename_i page hlist
        exact Or.inl ⟨_, _, page, rfl, hlist, rfl⟩
      · exact Or.inr ⟨500, rfl⟩
    · exact Or.inr ⟨422, rfl⟩

theorem serve_shows (db : Database) (now : Instant) (grant : SessionGrant)
    (installations : List GitHubInstallation) (route : Route) :
    Shows grant installations
      (api.serve db now (some (installationIds installations)) route).2 := by
  cases route with
  | listAnalyses limit repository status category cursor =>
      rcases serve_listAnalyses api db now (some (installationIds installations)) limit
        repository status category cursor with ⟨filter, _, page, hids, hlist, heq⟩ | ⟨code, heq⟩
      · rw [heq]
        exact listPage_owned hids hlist
      · rw [heq]
        trivial
  | getAnalysis runId =>
      unfold Api.serve
      dsimp only
      split
      · rename_i record hget
        exact get_owned hget
      · trivial
      · trivial
  | saveFeedback runId feedback =>
      unfold Api.serve
      dsimp only
      split
      · trivial
      · trivial
  | me | install | setup _ | logout => trivial

/-! ## The invariant -/

/-- What is remembered is not forgotten. -/
structure Remembers (s s' : Site ω κ τ) : Prop where
  issued : ∀ hash grant, s.issued hash = some grant → s'.issued hash = some grant
  answers : ∀ answer ∈ s.answers, answer ∈ s'.answers

section Remembering

variable {i : Nat} {visit : Visit ω τ} {grant : SessionGrant}
  {installations : List GitHubInstallation}

theorem Remembers.of_eq (hissued : s'.issued = s.issued) (hanswers : s'.answers = s.answers) :
    Remembers s s' := by
  constructor
  · intro hash grant h
    rw [hissued]
    exact h
  · intro answer hm
    rw [hanswers]
    exact hm

variable (hm : Remembers s s')
include hm

theorem Backed.later {hash : String} {session : AuthSession τ} (h : Backed api s hash session grant) :
    Backed api s' hash session grant :=
  ⟨hm.issued _ _ h.issued, h.githubUserId, h.expiresAt, h.token⟩

theorem Admitted.later {session : AuthenticatedSession} (h : Admitted api s visit session grant) :
    Admitted api s' visit session grant :=
  ⟨hm.issued _ _ h.issued, h.inTime, h.sessionHash, h.githubUserId, h.accessToken⟩

theorem Authorized.later (h : Authorized api s i visit grant installations) :
    Authorized api s' i visit grant installations :=
  ⟨hm.issued _ _ h.issued, h.inTime, hm.answers _ h.listed⟩

theorem Covered.later {reply : ApiReply} (h : Covered api s i visit reply) :
    Covered api s' i visit reply := by
  rcases h with hcode | ⟨grant, installations, h, hshows⟩
  · exact Or.inl hcode
  · exact Or.inr ⟨grant, installations, h.later hm, hshows⟩

theorem PhaseInv.later (h : PhaseInv api s i visit) : PhaseInv api s' i visit := by
  unfold PhaseInv at h ⊢
  split
  · rename_i row phase hphase
    rw [hphase] at h
    obtain ⟨hrow, hrewriting⟩ := h
    constructor
    · intro session user heq
      obtain ⟨huser, grant, hbacked⟩ := hrow session user heq
      exact ⟨huser, grant, hbacked.later hm⟩
    · intro token heq
      obtain ⟨grant, hissued, htoken⟩ := hrewriting token heq
      exact ⟨grant, hm.issued _ _ hissued, htoken⟩
  · rename_i session hphase
    rw [hphase] at h
    obtain ⟨grant, h⟩ := h
    exact ⟨grant, h.later hm⟩
  · rename_i session hphase
    rw [hphase] at h
    obtain ⟨grant, h⟩ := h
    exact ⟨grant, h.later hm⟩
  · rename_i session installations hphase
    rw [hphase] at h
    obtain ⟨grant, h, hanswer⟩ := h
    exact ⟨grant, h.later hm, hm.answers _ hanswer⟩
  · rename_i ids hphase
    rw [hphase] at h
    intro hneeds
    obtain ⟨grant, installations, heq, h⟩ := h hneeds
    exact ⟨grant, installations, heq, h.later hm⟩
  · rename_i reply hphase
    rw [hphase] at h
    exact fun hneeds => (h hneeds).later hm

end Remembering

theorem phaseInv_settle {i : Nat} (visit : Visit ω τ) (row : Option (AuthSession τ × GitHubUser))
    (phase : AuthPhase)
    (hrow : ∀ session user, row = some (session, user) →
      user.githubUserId = session.githubUserId
        ∧ ∃ grant, Backed api s (api.hashToken visit.token) session grant)
    (hrewriting : ∀ token, phase = .rewriting token →
      ∃ grant, s.issued (api.hashToken visit.token) = some grant
        ∧ token = grant.accessToken.toUTF8 ∧ CheckedInTime visit grant)
    (hreturned : ∀ session, phase = .returned (some session) →
      ∃ grant, Admitted api s visit session grant) :
    PhaseInv api s i { visit with phase := api.settle visit.route row phase } := by
  cases phase with
  | fetched => exact ⟨hrow, hrewriting⟩
  | rewriting token => exact ⟨hrow, hrewriting⟩
  | deleting => exact ⟨hrow, hrewriting⟩
  | returned result =>
      cases result with
      | none => exact fun _ => Or.inl ⟨401, rfl⟩
      | some session =>
          obtain ⟨grant, h⟩ := hreturned session rfl
          unfold PhaseInv settle enter
          dsimp only
          cases visit.route with
          | install => exact fun _ => Or.inl ⟨_, rfl⟩
          | me | setup _ | logout | listAnalyses _ _ _ _ _ | getAnalysis _ | saveFeedback _ _ =>
              exact ⟨grant, h.issued, h.inTime, h.sessionHash, h.githubUserId, h.accessToken⟩

theorem phaseInv_withInstallations {i : Nat} (visit : Visit ω τ) {session : AuthenticatedSession}
    {grant : SessionGrant} {installations : List GitHubInstallation}
    (h : Admitted api s visit session grant)
    (hlisted : ⟨i, grant.accessToken, installations⟩ ∈ s.answers) :
    PhaseInv api s i
      { visit with phase := withInstallations visit.route session installations } := by
  unfold PhaseInv withInstallations
  dsimp only
  cases visit.route with
  | me =>
      exact fun _ => Or.inr ⟨grant, installations, ⟨h.issued, h.inTime, hlisted⟩,
        h.githubUserId, rfl⟩
  | setup _ => exact fun _ => Or.inl ⟨_, rfl⟩
  | install | logout | listAnalyses _ _ _ _ _ | getAnalysis _ | saveFeedback _ _ =>
      exact fun _ => ⟨grant, installations, rfl, h.issued, h.inTime, hlisted⟩

/-- One request goes on; the others are where they were. -/
theorem phaseInv_set {i : Nat} {visit : Visit ω τ} (hinv : SiteInv api s) (hm : Remembers s s')
    (hvisits : s'.visits = s.visits.set i visit) (hvisit : PhaseInv api s' i visit) :
    ∀ k other, s'.visits[k]? = some other → PhaseInv api s' k other := by
  intro k other hk
  rw [hvisits, List.getElem?_set] at hk
  split at hk
  · rename_i heq
    split at hk
    · obtain rfl := Option.some.inj hk
      rw [← heq]
      exact hvisit
    · exact nomatch hk
  · exact (hinv.visits k other hk).later hm

/-- What a step leaves of the users and the sessions. -/
theorem siteInv_frame (hinv : SiteInv api s) (hm : Remembers s s') (husers : s'.users = s.users)
    (hsessions : s'.sessions = s.sessions)
    (hvisits : ∀ k visit, s'.visits[k]? = some visit → PhaseInv api s' k visit) :
    SiteInv api s' := by
  refine ⟨fun id user h => ?_, fun hash session h => ?_, hvisits⟩
  · rw [husers] at h
    exact hinv.users id user h
  · rw [hsessions] at h
    obtain ⟨grant, hbacked⟩ := hinv.sessions hash session h
    exact ⟨grant, hbacked.later hm⟩

/-- The row that `get_auth_session` reads. -/
theorem getAuthSession_backed (hinv : SiteInv api s) {hash : String} {session : AuthSession τ}
    {user : GitHubUser} (h : s.getAuthSession hash = some (session, user)) :
    user.githubUserId = session.githubUserId ∧ ∃ grant, Backed api s hash session grant := by
  unfold Site.getAuthSession at h
  split at h
  · exact nomatch h
  · rename_i found hfound
    obtain ⟨known, hknown, heq⟩ := Option.map_eq_some_iff.mp h
    obtain ⟨rfl, rfl⟩ := Prod.mk.inj heq
    exact ⟨hinv.users _ _ hknown, hinv.sessions hash _ hfound⟩

/-- A session that changes, or goes, is still that of its login. -/
theorem siteInv_setSession (hinv : SiteInv api s) {hash : String} {session : Option (AuthSession τ)}
    (h : ∀ changed, session = some changed → ∃ grant, Backed api s hash changed grant) :
    SiteInv api (s.setSession hash session) := by
  have hm : Remembers s (s.setSession hash session) := Remembers.of_eq rfl rfl
  refine ⟨hinv.users, fun other found hfound => ?_,
    fun k visit hk => (hinv.visits k visit hk).later hm⟩
  have hbefore : ∃ grant, Backed api s other found grant := by
    change Function.update s.sessions hash session other = some found at hfound
    by_cases heq : other = hash
    · subst heq
      rw [Function.update_self] at hfound
      exact h found hfound
    · rw [Function.update_of_ne heq] at hfound
      exact hinv.sessions other found hfound
  obtain ⟨grant, hbacked⟩ := hbefore
  exact ⟨grant, hbacked.later hm⟩

theorem siteInv_setVisit (hinv : SiteInv api s) {i : Nat} {visit : Visit ω τ}
    (h : PhaseInv api s i visit) : SiteInv api (s.setVisit i visit) := by
  have hm : Remembers s (s.setVisit i visit) := Remembers.of_eq rfl rfl
  exact siteInv_frame hinv hm rfl rfl (phaseInv_set hinv hm rfl (h.later hm))

theorem siteInv_request (hinv : SiteInv api s) (w : ω) (token : String) (route : Route) :
    SiteInv api { s with visits := s.visits ++ [api.arrive s w token route] } := by
  have hm : Remembers s { s with visits := s.visits ++ [api.arrive s w token route] } :=
    Remembers.of_eq rfl rfl
  refine siteInv_frame hinv hm rfl rfl fun k visit hk => ?_
  rw [List.getElem?_append] at hk
  split at hk
  · exact (hinv.visits k visit hk).later hm
  · rw [List.getElem?_singleton] at hk
    split at hk
    · obtain rfl := Option.some.inj hk
      refine PhaseInv.later hm ?_
      unfold PhaseInv arrive
      dsimp only
      by_cases hopen : (route.isData && !api.authRequired) = true
      · rw [if_pos hopen]
        rw [Bool.and_eq_true, Bool.not_eq_true'] at hopen
        intro hneeds
        rcases hneeds with hneeds | hneeds
        · exact absurd (hneeds.symm.trans hopen.2) (by decide)
        · exact absurd (hneeds.symm.trans hopen.1) (by decide)
      · rw [if_neg hopen]
        by_cases hempty : token = ""
        · rw [if_pos hempty]
          exact fun _ => Or.inl ⟨401, rfl⟩
        · rw [if_neg hempty]
          exact ⟨fun session user h => getAuthSession_backed hinv h, fun _ h => nomatch h⟩
    · exact nomatch hk

theorem phaseInv_check [DecidableEq κ] (hinv : SiteInv api s) {i : Nat} {visit : Visit ω τ}
    {row : Option (AuthSession τ × GitHubUser)} (hi : s.visits[i]? = some visit)
    (hphase : visit.phase = .authenticating row .fetched) (keys : TokenKeys κ) :
    PhaseInv api s i { visit with
      checkedAt := some s.now
      phase := api.settle visit.route row
        (checkSession api.fernet keys s.now (api.hashToken visit.token) row) } := by
  have hbefore := hinv.visits i visit hi
  unfold PhaseInv at hbefore
  rw [hphase] at hbefore
  obtain ⟨hrow, _⟩ := hbefore
  have hsettle : ∀ phase, (∀ token, phase = .rewriting token →
      ∃ grant, s.issued (api.hashToken visit.token) = some grant
        ∧ token = grant.accessToken.toUTF8 ∧ s.now < grant.expiresAt) →
      (∀ session, phase = .returned (some session) →
        ∃ grant, Admitted api s { visit with checkedAt := some s.now } session grant) →
      PhaseInv api s i { visit with
        checkedAt := some s.now, phase := api.settle visit.route row phase } := by
    intro phase hrewriting hreturned
    refine phaseInv_settle { visit with checkedAt := some s.now } row phase hrow
      (fun token htoken => ?_) hreturned
    obtain ⟨grant, hissued, heq, hlive⟩ := hrewriting token htoken
    exact ⟨grant, hissued, heq, s.now, rfl, hlive⟩
  cases row with
  | none => exact hsettle (.returned none) (fun _ => nofun) fun _ => nofun
  | some read =>
      obtain ⟨stored, user⟩ := read
      obtain ⟨huser, grant, hbacked⟩ := hrow stored user rfl
      rcases checkSession_backed hbacked user keys s.now with h | ⟨hlive, h | h⟩
      · rw [h]
        exact hsettle .deleting (fun _ => nofun) fun _ => nofun
      · rw [h]
        refine hsettle _ (fun _ => nofun) fun session hreturned => ?_
        obtain rfl := Option.some.inj (AuthPhase.returned.inj hreturned)
        exact ⟨grant, hbacked.issued, ⟨s.now, rfl, hlive⟩, rfl,
          huser.trans hbacked.githubUserId, rfl⟩
      · rw [h]
        refine hsettle _ (fun token htoken => ?_) fun _ => nofun
        exact ⟨grant, hbacked.issued, (AuthPhase.rewriting.inj htoken).symm, hlive⟩

theorem siteInv_write (hinv : SiteInv api s) {i nonce : Nat} {visit : Visit ω τ}
    {session : AuthSession τ} {user : GitHubUser} {token : ByteArray}
    (hi : s.visits[i]? = some visit)
    (hphase : visit.phase = .authenticating (some (session, user)) (.rewriting token))
    (key : κ) :
    SiteInv api ((s.setSession (api.hashToken visit.token)
        ((s.sessions (api.hashToken visit.token)).map fun session =>
          { session with encryptedAccessToken := api.fernet.encrypt key nonce token })).setVisit i
      { visit with
        phase := api.settle visit.route (some (session, user))
          (decodeToken (api.hashToken visit.token) user token) }) := by
  have hbefore := hinv.visits i visit hi
  unfold PhaseInv at hbefore
  rw [hphase] at hbefore
  obtain ⟨hrow, hrewriting⟩ := hbefore
  obtain ⟨grant, hissued, htoken, hintime⟩ := hrewriting token rfl
  obtain ⟨huser, grant', hbacked⟩ := hrow session user rfl
  obtain rfl := Option.some.inj (hissued.symm.trans hbacked.issued)
  rw [htoken]
  refine siteInv_setVisit (siteInv_setSession hinv fun changed hchanged => ?_)
    (PhaseInv.later (Remembers.of_eq (s := s) rfl rfl) ?_)
  · obtain ⟨stored, hstored, rfl⟩ := Option.map_eq_some_iff.mp hchanged
    obtain ⟨grant', hbacked'⟩ := hinv.sessions _ stored hstored
    obtain rfl := Option.some.inj (hissued.symm.trans hbacked'.issued)
    exact ⟨grant, hissued, hbacked'.githubUserId, hbacked'.expiresAt, key, nonce, rfl⟩
  · rw [decodeToken_toUTF8]
    refine phaseInv_settle visit _ _ hrow (fun _ => nofun) fun result hresult => ?_
    obtain rfl := Option.some.inj (AuthPhase.returned.inj hresult)
    exact ⟨grant, hissued, hintime, rfl, huser.trans hbacked.githubUserId, rfl⟩

theorem siteInv_createSession (hinv : SiteInv api s) {hash : String}
    (hfresh : s.issued hash = none) (grant : SessionGrant) (key : κ) (nonce : Nat)
    (logins : List Login) :
    SiteInv api { s with
      sessions := Function.update s.sessions hash (some
        { githubUserId := grant.githubUserId
          encryptedAccessToken := api.fernet.encrypt key nonce grant.accessToken.toUTF8
          expiresAt := grant.expiresAt })
      issued := Function.update s.issued hash (some grant)
      logins := logins } := by
  have hm : Remembers s { s with
      sessions := Function.update s.sessions hash (some
        { githubUserId := grant.githubUserId
          encryptedAccessToken := api.fernet.encrypt key nonce grant.accessToken.toUTF8
          expiresAt := grant.expiresAt })
      issued := Function.update s.issued hash (some grant)
      logins := logins } := by
    refine ⟨fun other known hknown => ?_, fun _ hm => hm⟩
    have hne : other ≠ hash := by
      rintro rfl
      exact absurd (hknown.symm.trans hfresh) (by simp)
    dsimp only
    rw [Function.update_of_ne hne]
    exact hknown
  refine ⟨hinv.users, fun other found hfound => ?_,
    fun k visit hk => (hinv.visits k visit hk).later hm⟩
  dsimp only at hfound
  by_cases heq : other = hash
  · subst heq
    rw [Function.update_self] at hfound
    obtain rfl := Option.some.inj hfound
    exact ⟨grant, Function.update_self .., rfl, rfl, key, nonce, rfl⟩
  · rw [Function.update_of_ne heq] at hfound
    obtain ⟨known, hbacked⟩ := hinv.sessions other found hfound
    exact ⟨known, hbacked.later hm⟩

theorem siteInv_ask (hinv : SiteInv api s) {i : Nat} {visit : Visit ω τ}
    {session : AuthenticatedSession} (installations : List GitHubInstallation)
    (hi : s.visits[i]? = some visit) (hphase : visit.phase = .asking session) :
    SiteInv api ({ s with
      answers := ⟨i, session.accessToken, installations⟩ :: s.answers }.setVisit i
      { visit with phase := .replacing session installations }) := by
  have hm : Remembers s { s with
      answers := ⟨i, session.accessToken, installations⟩ :: s.answers } :=
    ⟨fun _ _ h => h, fun _ h => List.mem_cons_of_mem _ h⟩
  have hbefore := (hinv.visits i visit hi).later hm
  unfold PhaseInv at hbefore
  rw [hphase] at hbefore
  obtain ⟨grant, hadmitted⟩ := hbefore
  have hnext := siteInv_frame hinv hm rfl rfl fun k visit hk => (hinv.visits k visit hk).later hm
  refine siteInv_setVisit hnext ⟨grant, ⟨hadmitted.issued, hadmitted.inTime,
    hadmitted.sessionHash, hadmitted.githubUserId, hadmitted.accessToken⟩, ?_⟩
  rw [hadmitted.accessToken]
  exact List.mem_cons_self

theorem siteInv_replace (hinv : SiteInv api s) {i : Nat} {visit : Visit ω τ}
    {session : AuthenticatedSession} {installations : List GitHubInstallation}
    (hi : s.visits[i]? = some visit) (hphase : visit.phase = .replacing session installations) :
    SiteInv api ((s.replaceUserInstallations session.user.githubUserId installations true).setVisit i
      { visit with phase := withInstallations visit.route session installations }) := by
  have hbefore := hinv.visits i visit hi
  unfold PhaseInv at hbefore
  rw [hphase] at hbefore
  obtain ⟨grant, hadmitted, hlisted⟩ := hbefore
  have hm : Remembers s
      (s.replaceUserInstallations session.user.githubUserId installations true) :=
    Remembers.of_eq rfl rfl
  have hnext := siteInv_frame hinv hm rfl rfl fun k visit hk => (hinv.visits k visit hk).later hm
  refine siteInv_setVisit hnext (PhaseInv.later hm ?_)
  exact phaseInv_withInstallations visit hadmitted hlisted

theorem siteInv_others (hinv : SiteInv api s) (db : Database) :
    SiteInv api { s with db := db } := by
  have hm : Remembers s { s with db := db } := Remembers.of_eq rfl rfl
  exact siteInv_frame hinv hm rfl rfl fun k visit hk => (hinv.visits k visit hk).later hm

theorem siteInv_serve (hinv : SiteInv api s) {i : Nat} {visit : Visit ω τ}
    {ids : Option (Finset Int)} (hi : s.visits[i]? = some visit)
    (hphase : visit.phase = .serving ids) :
    SiteInv api ({ s with db := (api.serve s.db s.now ids visit.route).1 }.setVisit i
      { visit with phase := .replied (api.serve s.db s.now ids visit.route).2 }) := by
  have hbefore := hinv.visits i visit hi
  unfold PhaseInv at hbefore
  rw [hphase] at hbefore
  refine siteInv_setVisit (siteInv_others hinv _) fun hneeds => ?_
  obtain ⟨grant, installations, rfl, hauthorized⟩ := hbefore hneeds
  exact Or.inr ⟨grant, installations,
    ⟨hauthorized.issued, hauthorized.inTime, hauthorized.listed⟩, serve_shows ..⟩

/-- A request that ends without data. -/
theorem siteInv_status (hinv : SiteInv api s) {i : Nat} {visit : Visit ω τ} (code : Nat) :
    SiteInv api (s.setVisit i { visit with phase := .replied (.status code) }) :=
  siteInv_setVisit hinv fun _ => Or.inl ⟨code, rfl⟩

theorem siteInv_delete (hinv : SiteInv api s) {i : Nat} {visit : Visit ω τ} (hash : String)
    (code : Nat) :
    SiteInv api ((s.setSession hash none).setVisit i
      { visit with phase := .replied (.status code) }) := by
  have hgone : ∀ changed, (none : Option (AuthSession τ)) = some changed →
      ∃ grant, Backed api s hash changed grant := by
    intro changed h
    exact nomatch h
  exact siteInv_status (siteInv_setSession hinv hgone) code

/-- **Every step keeps the invariant.** -/
theorem siteInv_step [DecidableEq κ] {l : SiteLabel ω κ} (hinv : SiteInv api s)
    (hs : SiteStep api s l s') : SiteInv api s' := by
  cases hs with
  | quiet _ _ h =>
      have hm : Remembers s s' := Remembers.of_eq h.issued h.answers
      refine siteInv_frame hinv hm h.users h.sessions fun k visit hk => ?_
      rw [h.visits] at hk
      exact (hinv.visits k visit hk).later hm
  | others db => exact siteInv_others hinv db
  | upsertUser j user logins =>
      have hm : Remembers s { s with
          users := Function.update s.users user.githubUserId user, logins := logins } :=
        Remembers.of_eq rfl rfl
      refine ⟨fun id known hknown => ?_, fun hash session h => ?_, fun k visit hk =>
        (hinv.visits k visit hk).later hm⟩
      · dsimp only at hknown
        by_cases heq : id = user.githubUserId
        · subst heq
          rw [Function.update_self] at hknown
          rw [← Option.some.inj hknown]
        · rw [Function.update_of_ne heq] at hknown
          exact hinv.users id known hknown
      · obtain ⟨grant, hbacked⟩ := hinv.sessions hash session h
        exact ⟨grant, hbacked.later hm⟩
  | createSession j w token nonce grant logins hfresh =>
      exact siteInv_createSession hinv hfresh grant _ nonce logins
  | request w token route => exact siteInv_request hinv w token route
  | check i visit row hi hphase =>
      exact siteInv_setVisit hinv (phaseInv_check hinv hi hphase _)
  | write i nonce visit session user token hi hphase => exact siteInv_write hinv hi hphase _
  | delete i visit row hi hphase => exact siteInv_delete hinv _ 401
  | ask i visit session installations hi hphase => exact siteInv_ask hinv installations hi hphase
  | failed _ i visit hi session hphase => exact siteInv_status hinv 500
  | replace i visit session installations hi hphase => exact siteInv_replace hinv hi hphase
  | serve i visit ids hi hphase => exact siteInv_serve hinv hi hphase
  | leave i visit session hi hphase => exact siteInv_delete hinv _ 204

theorem siteInv_reach [DecidableEq ω] [DecidableEq κ] {now : Instant} {keys : ω → TokenKeys κ}
    {db : Database} (h : Reach api.step anyStep (Site.init now keys db) s) : SiteInv api s :=
  h.invariant (siteInv_init now keys db) fun _ hinv _ hs => siteInv_step hinv (siteStep hs)

end PipeLens.Proof
