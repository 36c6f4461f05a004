import PipeLens.Proof.Access

/-!
# Who gets to see an analysis

Whatever other requests, logins, key changes and failures come between its steps, a request
is answered with data, and writes feedback, only for a login in time, and only about the
installations that GitHub has listed for this login during this request. A session that has
been logged out of is refused to every later request.
-/

namespace PipeLens.Proof

open PipeLens Transition Api

variable {ω κ τ : Type} {api : Api κ τ} {s s' : Site ω κ τ}

section Results

variable [DecidableEq ω] [DecidableEq κ]

/-- **Every reply with data is covered by a login**: GitHub has listed the installations it is
about, for the access token of that login, while this request was going on. -/
theorem replies_are_authorized (api : Api κ τ) (now : Instant) (keys : ω → TokenKeys κ)
    (db : Database) (s : Site ω κ τ) (h : Reach api.step anyStep (Site.init now keys db) s)
    {i : Nat} {visit : Visit ω τ} {reply : ApiReply} (hi : s.visits[i]? = some visit)
    (hphase : visit.phase = .replied reply) (hneeds : NeedsSession api visit.route)
    (hdata : ∀ code, reply ≠ .status code) :
    ∃ grant installations, Authorized api s i visit grant installations
      ∧ Shows grant installations reply := by
  have hreplied := (siteInv_reach h).visits i visit hi
  unfold PhaseInv at hreplied
  rw [hphase] at hreplied
  rcases hreplied hneeds with ⟨code, hcode⟩ | hcovered
  · exact absurd hcode (hdata code)
  · exact hcovered

omit [DecidableEq ω] [DecidableEq κ] in
/-- A query changes at most the feedback that it is about, to the value that it gives. -/
theorem serve_db (api : Api κ τ) (db : Database) (now : Instant) (ids : Finset Int) (route : Route) :
    (api.serve db now (some ids) route).1.toDb = db.toDb
      ∧ ∀ runId, (api.serve db now (some ids) route).1.feedback.find? runId
          ≠ db.feedback.find? runId →
        ∃ feedback row record, route = .saveFeedback runId feedback
          ∧ db.row? runId = some row ∧ installationIn (some ids) row = true
          ∧ (api.serve db now (some ids) route).1.feedback.find? runId = some record
          ∧ record.toFeedbackRequest = feedback := by
  cases route with
  | saveFeedback runId feedback =>
      have hserve : (api.serve db now (some ids) (.saveFeedback runId feedback)).1
          = (db.saveFeedback runId feedback (some ids) now).1 := by
        unfold Api.serve
        dsimp only
        rcases db.saveFeedback runId feedback (some ids) now with ⟨db', record | record⟩
        · rfl
        · rfl
      rw [hserve]
      rcases saveFeedback_cases db runId feedback ids now with
        ⟨_, heq⟩ | ⟨⟨row, hrow⟩, hsaved, hdb, hothers⟩
      · rw [heq]
        exact ⟨rfl, fun runId hne => absurd rfl hne⟩
      · refine ⟨hdb, fun other hne => ?_⟩
        have hother : other = runId := by
          by_contra hdiff
          exact hne (hothers other hdiff)
        subst hother
        obtain ⟨hfind, hin⟩ := Option.filter_eq_some_iff.mp hrow
        exact ⟨feedback, row, _, rfl, hfind, hin, saveFeedback_returns hsaved,
          savedFeedback_request db other feedback now⟩
  | listAnalyses limit repository status category cursor =>
      rcases serve_listAnalyses api db now (some ids) limit repository status category cursor with
        ⟨_, _, page, _, _, heq⟩ | ⟨code, heq⟩
      · rw [heq]
        exact ⟨rfl, fun runId hne => absurd rfl hne⟩
      · rw [heq]
        exact ⟨rfl, fun runId hne => absurd rfl hne⟩
  | getAnalysis runId =>
      have hsame : (api.serve db now (some ids) (.getAnalysis runId)).1 = db := by
        unfold Api.serve
        dsimp only
        split
        · rfl
        · rfl
        · rfl
      rw [hsame]
      exact ⟨rfl, fun runId hne => absurd rfl hne⟩
  | me | install | setup _ | logout => exact ⟨rfl, fun runId hne => absurd rfl hne⟩

/-- The step is the query of a request to save feedback for this run, with the installations
that GitHub has listed for its login, and leaves the feedback that the request gives. -/
def SavesFeedback (api : Api κ τ) (s s' : Site ω κ τ) (l : SiteLabel ω κ) (runId : Int) : Prop :=
  ∃ i visit feedback grant installations row record, l = .serve i
    ∧ s.visits[i]? = some visit
    ∧ visit.route = .saveFeedback runId feedback
    ∧ visit.phase = .serving (some (installationIds installations))
    ∧ Authorized api s i visit grant installations
    ∧ s.db.row? runId = some row ∧ OwnedBy installations row.installationId
    ∧ s'.db.feedback.find? runId = some record ∧ record.toFeedbackRequest = feedback

/-- **Feedback is written for a login only** that GitHub has listed the installation of the
analysis for; nothing else that requests and logins do changes the analyses. -/
theorem feedback_is_authorized (api : Api κ τ) (hrequired : api.authRequired = true)
    (now : Instant) (keys : ω → TokenKeys κ) (db : Database) {s s' : Site ω κ τ}
    {l : SiteLabel ω κ} (h : Reach api.step anyStep (Site.init now keys db) s)
    (hs : api.step s l = some s') (hl : ∀ db, l ≠ .others db) :
    s'.db.toDb = s.db.toDb
      ∧ ∀ runId, s'.db.feedback.find? runId ≠ s.db.feedback.find? runId →
        SavesFeedback api s s' l runId := by
  have hkept : s'.db = s.db → s'.db.toDb = s.db.toDb
      ∧ ∀ runId, s'.db.feedback.find? runId ≠ s.db.feedback.find? runId →
        SavesFeedback api s s' l runId := by
    intro heq
    rw [heq]
    exact ⟨rfl, fun runId hne => absurd rfl hne⟩
  cases siteStep hs with
  | quiet _ _ hquiet => exact hkept hquiet.db
  | others db => exact absurd rfl (hl db)
  | upsertUser | createSession | request | check | write | delete | ask | failed | leave =>
      exact hkept rfl
  | replace => exact hkept rfl
  | serve i visit ids hi hphase =>
      have hinv := (siteInv_reach h).visits i visit hi
      unfold PhaseInv at hinv
      rw [hphase] at hinv
      obtain ⟨grant, installations, rfl, hauthorized⟩ := hinv (Or.inl hrequired)
      obtain ⟨hdb, hfeedback⟩ :=
        serve_db api s.db s.now (installationIds installations) visit.route
      refine ⟨hdb, fun runId hne => ?_⟩
      obtain ⟨feedback, row, record, hroute, hrow, hin, hrecord, hvalue⟩ := hfeedback runId hne
      exact ⟨i, visit, feedback, grant, installations, row, record, rfl, hi, hroute, hphase,
        hauthorized, hrow, ownedBy_of_installationIn hin, hrecord, hvalue⟩

/-! ## Sessions that have ended -/

/-- The session with this hash is gone, and no request from number `start` on has it. -/
structure Gone (api : Api κ τ) (hash : String) (start : Nat) (s : Site ω κ τ) : Prop where
  issued : s.issued hash ≠ none
  sessions : s.sessions hash = none
  visits : ∀ i visit, start ≤ i → s.visits[i]? = some visit →
    api.hashToken visit.token = hash → NeedsSession api visit.route →
    visit.phase = .authenticating none .fetched ∨ visit.phase = .replied (.status 401)

omit [DecidableEq ω] [DecidableEq κ]

/-- A request that has gone on from another phase began earlier. -/
theorem gone_setVisit {hash : String} {start : Nat} (hgone : Gone api hash start s) {i : Nat}
    {visit visit' : Visit ω τ} (hi : s.visits[i]? = some visit) (htoken : visit'.token = visit.token)
    (hroute : visit'.route = visit.route)
    (hphase : visit.phase = .authenticating none .fetched ∨ visit.phase = .replied (.status 401) →
      visit'.phase = .replied (.status 401)) :
    Gone api hash start (s.setVisit i visit') := by
  refine ⟨hgone.issued, hgone.sessions, fun k other hstart hk hhash hneeds => ?_⟩
  unfold Site.setVisit at hk
  dsimp only at hk
  rw [List.getElem?_set] at hk
  split at hk
  · rename_i heq
    subst heq
    split at hk
    · obtain rfl := Option.some.inj hk
      rw [htoken] at hhash
      rw [hroute] at hneeds
      exact Or.inr (hphase (hgone.visits i visit hstart hi hhash hneeds))
    · exact nomatch hk
  · exact hgone.visits k other hstart hk hhash hneeds

theorem gone_setSession {hash : String} {start : Nat} (hgone : Gone api hash start s)
    (other : String) (session : Option (AuthSession τ)) (h : other = hash → session = none) :
    Gone api hash start (s.setSession other session) := by
  refine ⟨hgone.issued, ?_, hgone.visits⟩
  change Function.update s.sessions other session hash = none
  by_cases heq : hash = other
  · subst heq
    rw [Function.update_self]
    exact h rfl
  · rw [Function.update_of_ne heq]
    exact hgone.sessions

theorem gone_request {hash : String} {start : Nat} (hgone : Gone api hash start s) (w : ω)
    (token : String) (route : Route) :
    Gone api hash start { s with visits := s.visits ++ [api.arrive s w token route] } := by
  refine ⟨hgone.issued, hgone.sessions, fun k visit hstart hk hhash hneeds => ?_⟩
  dsimp only at hk
  rw [List.getElem?_append] at hk
  split at hk
  · exact hgone.visits k visit hstart hk hhash hneeds
  · rw [List.getElem?_singleton] at hk
    split at hk
    · obtain rfl := Option.some.inj hk
      unfold arrive at hhash hneeds ⊢
      dsimp only at hhash hneeds ⊢
      have hclosed : ¬ (route.isData && !api.authRequired) = true := by
        rw [Bool.and_eq_true, Bool.not_eq_true']
        rintro ⟨hdata, hopen⟩
        rcases hneeds with hneeds | hneeds
        · exact absurd (hneeds.symm.trans hopen) (by decide)
        · exact absurd (hneeds.symm.trans hdata) (by decide)
      rw [if_neg hclosed]
      by_cases hempty : token = ""
      · rw [if_pos hempty]
        exact Or.inr rfl
      · rw [if_neg hempty]
        have hread : s.getAuthSession (api.hashToken token) = none := by
          unfold Site.getAuthSession
          rw [hhash, hgone.sessions]
        rw [hread]
        exact Or.inl rfl
    · exact nomatch hk

/-- **A session that is gone stays gone**, whatever the requests do that have read it before. -/
theorem gone_step [DecidableEq κ] {hash : String} {start : Nat} {l : SiteLabel ω κ}
    (hgone : Gone api hash start s) (hs : SiteStep api s l s') : Gone api hash start s' := by
  have helsewhere : ∀ phase phase' : VisitPhase τ,
      phase = phase' → (phase' ≠ .authenticating none .fetched) → (phase' ≠ .replied (.status 401)) →
      ∀ wanted : Prop, phase = .authenticating none .fetched ∨ phase = .replied (.status 401) →
      wanted := by
    rintro phase phase' rfl hfetched hreplied wanted (h | h)
    · exact absurd h hfetched
    · exact absurd h hreplied
  cases hs with
  | quiet _ _ h =>
      refine ⟨?_, ?_, fun k visit hstart hk => ?_⟩
      · rw [h.issued]
        exact hgone.issued
      · rw [h.sessions]
        exact hgone.sessions
      · rw [h.visits] at hk
        exact hgone.visits k visit hstart hk
  | others db => exact ⟨hgone.issued, hgone.sessions, hgone.visits⟩
  | upsertUser j user logins => exact ⟨hgone.issued, hgone.sessions, hgone.visits⟩
  | createSession j w token nonce grant logins hfresh =>
      have hne : hash ≠ api.hashToken token := by
        rintro rfl
        exact hgone.issued hfresh
      refine ⟨?_, ?_, hgone.visits⟩
      · dsimp only
        rw [Function.update_of_ne hne]
        exact hgone.issued
      · dsimp only
        rw [Function.update_of_ne hne]
        exact hgone.sessions
  | request w token route => exact gone_request hgone w token route
  | check i visit row hi hphase =>
      refine gone_setVisit hgone hi rfl rfl fun h => ?_
      rw [hphase] at h
      rcases h with h | h
      · obtain rfl := (VisitPhase.authenticating.inj h).1
        rfl
      · exact nomatch h
  | write i nonce visit session user token hi hphase =>
      refine gone_setVisit (gone_setSession hgone _ _ fun heq => ?_) hi rfl rfl
        (helsewhere _ _ hphase nofun nofun _)
      rw [heq, hgone.sessions]
      rfl
  | delete i visit row hi hphase =>
      exact gone_setVisit (gone_setSession hgone _ none fun _ => rfl) hi rfl rfl fun _ => rfl
  | ask i visit session installations hi hphase =>
      have hnext : Gone api hash start { s with
          answers := ⟨i, session.accessToken, installations⟩ :: s.answers } :=
        ⟨hgone.issued, hgone.sessions, hgone.visits⟩
      exact gone_setVisit hnext hi rfl rfl (helsewhere _ _ hphase nofun nofun _)
  | failed _ i visit hi session hphase =>
      refine gone_setVisit hgone hi rfl rfl ?_
      rcases hphase with hphase | ⟨installations, hphase⟩
      · exact helsewhere _ _ hphase nofun nofun _
      · exact helsewhere _ _ hphase nofun nofun _
  | replace i visit session installations hi hphase =>
      have hnext : Gone api hash start
          (s.replaceUserInstallations session.user.githubUserId installations true) :=
        ⟨hgone.issued, hgone.sessions, hgone.visits⟩
      exact gone_setVisit hnext hi rfl rfl (helsewhere _ _ hphase nofun nofun _)
  | serve i visit ids hi hphase =>
      have hnext : Gone api hash start
          { s with db := (api.serve s.db s.now ids visit.route).1 } :=
        ⟨hgone.issued, hgone.sessions, hgone.visits⟩
      exact gone_setVisit hnext hi rfl rfl (helsewhere _ _ hphase nofun nofun _)
  | leave i visit session hi hphase =>
      exact gone_setVisit (gone_setSession hgone _ none fun _ => rfl) hi rfl rfl
        (helsewhere _ _ hphase nofun nofun _)

/-- **Logging out ends the session**: a request with its cookie that begins later is refused,
even while requests that began before go on and write the session's token back. -/
theorem logout_revokes [DecidableEq ω] [DecidableEq κ] (api : Api κ τ) (now : Instant)
    (keys : ω → TokenKeys κ) (db : Database) {s s₁ s₂ : Site ω κ τ} {j : Nat} {visit : Visit ω τ}
    {session : AuthenticatedSession} (h : Reach api.step anyStep (Site.init now keys db) s)
    (hj : s.visits[j]? = some visit) (hleaving : visit.phase = .leaving session)
    (hs : api.step s (.leave j) = some s₁) (hlater : Reach api.step anyStep s₁ s₂)
    {i : Nat} {later : Visit ω τ} {reply : ApiReply} (hbegan : s.visits.length ≤ i)
    (hi : s₂.visits[i]? = some later) (hsame : later.token = visit.token)
    (hneeds : NeedsSession api later.route) (hreply : later.phase = .replied reply) :
    reply = .status 401 := by
  have hinv := (siteInv_reach h).visits j visit hj
  unfold PhaseInv at hinv
  rw [hleaving] at hinv
  obtain ⟨grant, hadmitted⟩ := hinv
  have hleft : s₁ = (s.setSession session.sessionHash none).setVisit j
      { visit with phase := .replied (.status 204) } := by
    simp only [Api.step, visitStep, hj, hleaving] at hs
    exact (Option.some.inj hs).symm
  have hgone : Gone api (api.hashToken visit.token) s.visits.length s₁ := by
    rw [hleft, hadmitted.sessionHash]
    refine ⟨?_, Function.update_self .., fun k other hstart hk => ?_⟩
    · change s.issued (api.hashToken visit.token) ≠ none
      rw [hadmitted.issued]
      exact Option.some_ne_none grant
    · have hlength := (List.getElem?_eq_some_iff.mp hk).1
      change k < (s.visits.set j _).length at hlength
      rw [List.length_set] at hlength
      omega
  have hend : Gone api (api.hashToken visit.token) s.visits.length s₂ :=
    hlater.invariant hgone fun _ hgone _ hs => gone_step hgone (siteStep hs)
  rcases hend.visits i later hbegan hi (by rw [hsame]) hneeds with h | h
  · cases hreply.symm.trans h
  · exact VisitPhase.replied.inj (hreply.symm.trans h)

end Results

/-! ## A login that lists and comments -/

/-- A third analysis is of another installation. -/
def foreignListed : Database :=
  createAnalysis twoListed { listedRecord 90 "delivery-90" 130 with installationId := some 6 }

def duoApi : Api Duo (Duo × ByteArray) where
  authRequired := true
  githubAppSlug := "pipelens"
  sessionTtl := 604800
  backend := .sqlite
  fernet := openFernet
  hashToken := fun token => "sha256:" ++ token
  decodeCursor := fun _ => none

def duoSite : Site Duo Duo (Duo × ByteArray) :=
  Site.init 0 (fun _ => ⟨.first, []⟩) foreignListed

def octocatInstallations : List GitHubInstallation := [{ installationId := 5, accountLogin := "acme" }]

/-- A login, after which one instance gets another primary key. -/
def octocatLogin : List (SiteLabel Duo Duo) :=
  [.login ⟨7, "octocat", none⟩ "gho_token" (some 28800), .upsertUser 0,
    .askLogin 0 (.ok octocatInstallations), .replaceLogin 0 true, .createSession 0 .first "cookie" 0,
    .deploy .second ⟨.second, [.first]⟩]

/-- The steps of a request up to its query. -/
def upToQuery (i : Nat) (route : Route) : List (SiteLabel Duo Duo) :=
  [.request .second "cookie" route, .check i, .write i 1, .ask i (.ok octocatInstallations),
    .replace i true]

def listRoute : Route := .listAnalyses 10 none none none none

def feedbackRoute : Route :=
  .saveFeedback 78 ⟨some .accurate, none, none, by decide, by decide⟩

def visitPhase (s : Site Duo Duo (Duo × ByteArray)) (i : Nat) : VisitPhase (Duo × ByteArray) :=
  match s.visits[i]? with
  | some visit => visit.phase
  | none => .serving none

/-- A reply with the two analyses that are not of the other installation. -/
def isPage : VisitPhase (Duo × ByteArray) → Bool
  | .replied (.page page) => decide ((page.records.map fun record => record.runId) = [78, 77])
  | _ => false

def isLeaving : VisitPhase (Duo × ByteArray) → Bool
  | .leaving _ => true
  | _ => false

def isReplied : VisitPhase (Duo × ByteArray) → Bool
  | .replied _ => true
  | _ => false

theorem visit_of_phase {s : Site Duo Duo (Duo × ByteArray)} {i : Nat}
    {phase : VisitPhase (Duo × ByteArray)} (h : visitPhase s i = phase)
    (hne : phase ≠ .serving none) : ∃ visit, s.visits[i]? = some visit ∧ visit.phase = phase := by
  unfold visitPhase at h
  split at h
  · rename_i visit hi
    exact ⟨visit, hi, h⟩
  · exact absurd h.symm hne

theorem replies_are_authorized_octocat :
    ∃ s visit page grant installations,
      exec duoApi.step anyStep duoSite (octocatLogin ++ upToQuery 0 listRoute ++ [.serve 0]) = some s
      ∧ s.visits[0]? = some visit ∧ visit.phase = .replied (.page page)
      ∧ (page.records.map fun record => record.runId) = [78, 77]
      ∧ Authorized duoApi s 0 visit grant installations
      ∧ ∀ record ∈ page.records, OwnedBy installations record.installationId := by
  have hrun : (exec duoApi.step anyStep duoSite
      (octocatLogin ++ upToQuery 0 listRoute ++ [.serve 0])).any
        (fun s => isPage (visitPhase s 0)) = true := by
    decide +kernel
  obtain ⟨s, hs, hpage⟩ := (Option.any_eq_true _ _).mp hrun
  unfold isPage at hpage
  split at hpage
  · rename_i page hphase
    obtain ⟨visit, hi, hreplied⟩ := visit_of_phase hphase (by simp)
    obtain ⟨grant, installations, hauthorized, hshows⟩ := replies_are_authorized duoApi 0 _
      foreignListed s (reach_of_exec Reach.init hs) hi hreplied (Or.inl rfl) (by simp)
    exact ⟨s, visit, page, grant, installations, hs, hi, hreplied, of_decide_eq_true hpage,
      hauthorized, hshows⟩
  · cases hpage

theorem feedback_is_authorized_octocat :
    ∃ s s', exec duoApi.step anyStep duoSite (octocatLogin ++ upToQuery 0 feedbackRoute) = some s
      ∧ duoApi.step s (.serve 0) = some s'
      ∧ s'.db.feedback.find? 78 ≠ s.db.feedback.find? 78
      ∧ SavesFeedback duoApi s s' (.serve 0) 78 := by
  have hrun : (exec duoApi.step anyStep duoSite
      (octocatLogin ++ upToQuery 0 feedbackRoute)).any
        (fun s => (duoApi.step s (.serve 0)).any fun s' =>
          decide (s'.db.feedback.find? 78 ≠ s.db.feedback.find? 78)) = true := by
    decide +kernel
  obtain ⟨s, hs, hserved⟩ := (Option.any_eq_true _ _).mp hrun
  obtain ⟨s', hs', hchanged⟩ := (Option.any_eq_true _ _).mp hserved
  have hne := of_decide_eq_true hchanged
  obtain ⟨_, hwritten⟩ := feedback_is_authorized duoApi rfl 0 _ foreignListed
    (reach_of_exec Reach.init hs) hs' nofun
  exact ⟨s, s', hs, hs', hne, hwritten 78 hne⟩

/-- While a session is logged out of, another request has read it. -/
def leavesWhileRead : List (SiteLabel Duo Duo) :=
  octocatLogin ++
    [.request .first "cookie" .logout, .check 0, .request .second "cookie" listRoute, .check 1]

/-- The other request writes its token back, and a third one begins. -/
def goesOn : List (SiteLabel Duo Duo) :=
  [.write 1 1, .request .second "cookie" listRoute, .check 2]

theorem logout_revokes_octocat :
    ∃ s s₁ s₂ later, exec duoApi.step anyStep duoSite leavesWhileRead = some s
      ∧ duoApi.step s (.leave 0) = some s₁ ∧ exec duoApi.step anyStep s₁ goesOn = some s₂
      ∧ s₂.visits[2]? = some later ∧ later.phase = .replied (.status 401) := by
  have hrun : (exec duoApi.step anyStep duoSite leavesWhileRead).any (fun s =>
      isLeaving (visitPhase s 0) && decide (s.visits.length = 2)
      && decide (s.visits[0]?.map Visit.token = some "cookie")
      && (duoApi.step s (.leave 0)).any fun s₁ =>
        (exec duoApi.step anyStep s₁ goesOn).any fun s₂ => isReplied (visitPhase s₂ 2)
          && decide (s₂.visits[2]?.map Visit.token = some "cookie")) = true := by
    decide +kernel
  obtain ⟨s, hs, hall⟩ := (Option.any_eq_true _ _).mp hrun
  simp only [Bool.and_eq_true, decide_eq_true_eq, Option.any_eq_true] at hall
  obtain ⟨⟨⟨hleaving, hlength⟩, htoken⟩, s₁, hs₁, s₂, hs₂, hreplied, htoken₂⟩ := hall
  obtain ⟨visit, hvisit, hcookie⟩ := Option.map_eq_some_iff.mp htoken
  obtain ⟨later, hlater, hcookie₂⟩ := Option.map_eq_some_iff.mp htoken₂
  have hphase : visitPhase s 0 = visit.phase := by
    unfold visitPhase
    rw [hvisit]
  have hphase₂ : visitPhase s₂ 2 = later.phase := by
    unfold visitPhase
    rw [hlater]
  rw [hphase] at hleaving
  rw [hphase₂] at hreplied
  unfold isLeaving at hleaving
  unfold isReplied at hreplied
  split at hleaving
  · rename_i session hsession
    split at hreplied
    · rename_i reply hreply
      have hrefused := logout_revokes duoApi 0 _ foreignListed (reach_of_exec Reach.init hs) hvisit
        hsession hs₁ (reach_of_exec Reach.init hs₂) (Nat.le_of_eq hlength) hlater
        (hcookie₂.trans hcookie.symm) (Or.inl rfl) hreply
      rw [hrefused] at hreply
      exact ⟨s, s₁, s₂, later, hs, hs₁, hs₂, hlater, hreply⟩
    · cases hreplied
  · cases hleaving

end PipeLens.Proof
