import PipeLens.Auth
import PipeLens.Queries

/-!
# The API behind the login

The routes of `main.py` that need a session, with `AuthService` of `auth.py`, on any number
of API instances that share one database. Every store call is a step of its own, and so is
every answer of GitHub: requests and logins of any number of users go on between the steps
of one request. Meanwhile workers and webhooks change the analyses, and instances get other
keys.

`issued` and `answers` are no part of the code. They remember what the logins handed out,
and what GitHub has said when it was asked for the installations of a user.
-/

namespace PipeLens

structure GitHubInstallation where
  installationId : Int
  accountLogin : String
  accountType : String := "Unknown"
  repositorySelection : String := "selected"
  deriving DecidableEq, Repr

/-- The routes that need a login, with arguments that FastAPI has accepted. -/
inductive Route where
  | me
  | install
  | setup (installationId : Int)
  | logout
  | listAnalyses (limit : Int) (repository : Option String) (status : Option AnalysisStatus)
      (category : Option ErrorCategory) (cursor : Option String)
  | getAnalysis (runId : Int)
  | saveFeedback (runId : Int) (feedback : FeedbackRequest)

/-- The routes with `analysis_access`. -/
def Route.isData : Route → Bool
  | .listAnalyses _ _ _ _ _ | .getAnalysis _ | .saveFeedback _ _ => true
  | _ => false

inductive ApiReply where
  /-- A response without data. -/
  | status (code : Nat)
  | user (user : GitHubUser) (installations : List GitHubInstallation)
  | page (page : AnalysisPage)
  | analysis (record : AnalysisDetail)
  | feedback (record : FeedbackRecord)

/-- Where a request stands. -/
inductive VisitPhase (τ : Type) where
  /-- In `authenticate`, which has read this row. -/
  | authenticating (row : Option (AuthSession τ × GitHubUser)) (phase : AuthPhase)
  /-- `user_installations` is next. -/
  | asking (session : AuthenticatedSession)
  /-- `replace_user_installations` is next. -/
  | replacing (session : AuthenticatedSession) (installations : List GitHubInstallation)
  /-- The query is next, with the result of `analysis_access`. -/
  | serving (installationIds : Option (Finset Int))
  /-- `delete_auth_session` of `logout` is next. -/
  | leaving (session : AuthenticatedSession)
  | replied (reply : ApiReply)

/-- A request on an instance. -/
structure Visit (ω τ : Type) where
  api : ω
  /-- The cookie `pipelens_session`, empty if there is none. -/
  token : String
  route : Route
  /-- When the expiry was compared with the clock. -/
  checkedAt : Option Instant
  phase : VisitPhase τ

inductive LoginPhase where
  /-- `upsert_github_user` is next. -/
  | upserting
  | asking
  | replacing (installations : List GitHubInstallation)
  /-- `create_auth_session` is next. -/
  | creating
  | finished

/-- `complete_login`, once GitHub has told who the user is. -/
structure Login where
  user : GitHubUser
  accessToken : String
  expiresIn : Option Duration
  phase : LoginPhase

/-- What a login handed out. -/
structure SessionGrant where
  githubUserId : Int
  accessToken : String
  expiresAt : Instant
  deriving DecidableEq, Repr

/-- What GitHub said when a request asked it with this token. -/
structure InstallationAnswer where
  visit : Nat
  accessToken : String
  installations : List GitHubInstallation
  deriving DecidableEq, Repr

/-- The database, the instances and what is going on. -/
structure Site (ω κ τ : Type) where
  now : Instant
  keys : ω → TokenKeys κ
  db : Database
  /-- `github_users`. -/
  users : Int → Option GitHubUser
  /-- `auth_sessions`, by `session_hash`. -/
  sessions : String → Option (AuthSession τ)
  userInstallations : Int → List GitHubInstallation
  visits : List (Visit ω τ)
  logins : List Login
  issued : String → Option SessionGrant
  answers : List InstallationAnswer

inductive SiteLabel (ω κ : Type) where
  | tick (d : Nat)
  | deploy (w : ω) (keys : TokenKeys κ)
  /-- Workers and webhooks change the analyses. -/
  | others (db : Database)
  /-- `exchange_user_code` and `authenticated_user` have answered. -/
  | login (user : GitHubUser) (accessToken : String) (expiresIn : Option Duration)
  | upsertUser (j : Nat)
  | askLogin (j : Nat) (answer : Except String (List GitHubInstallation))
  | replaceLogin (j : Nat) (committed : Bool)
  | createSession (j : Nat) (w : ω) (token : String) (nonce : Nat)
  | request (w : ω) (token : String) (route : Route)
  | check (i : Nat)
  | write (i : Nat) (nonce : Nat)
  | delete (i : Nat)
  | ask (i : Nat) (answer : Except String (List GitHubInstallation))
  | replace (i : Nat) (committed : Bool)
  | serve (i : Nat)
  | leave (i : Nat)

/-- The settings of the instances, and what is not modelled. -/
structure Api (κ τ : Type) where
  authRequired : Bool
  githubAppSlug : String
  sessionTtl : Duration
  backend : Backend
  fernet : Fernet κ τ
  /-- `_hash_token`. -/
  hashToken : String → String
  /-- `_decode_analysis_cursor`; `none` is the response with status 422. -/
  decodeCursor : String → Option AnalysisCursor

/-- `{item.installation_id for item in installations}`. -/
def installationIds (installations : List GitHubInstallation) : Finset Int :=
  (installations.map GitHubInstallation.installationId).toFinset

namespace Site

variable {ω κ τ : Type}

/-- `get_auth_session`: an inner join with the user. -/
def getAuthSession (s : Site ω κ τ) (sessionHash : String) :
    Option (AuthSession τ × GitHubUser) :=
  match s.sessions sessionHash with
  | none => none
  | some session => (s.users session.githubUserId).map fun user => (session, user)

def setVisit (s : Site ω κ τ) (i : Nat) (visit : Visit ω τ) : Site ω κ τ :=
  { s with visits := s.visits.set i visit }

def setLogin (s : Site ω κ τ) (j : Nat) (login : Login) : Site ω κ τ :=
  { s with logins := s.logins.set j login }

def setSession (s : Site ω κ τ) (sessionHash : String) (session : Option (AuthSession τ)) :
    Site ω κ τ :=
  { s with sessions := Function.update s.sessions sessionHash session }

/-- `replace_user_installations`, a transaction that may be refused. -/
def replaceUserInstallations (s : Site ω κ τ) (githubUserId : Int)
    (installations : List GitHubInstallation) (committed : Bool) : Site ω κ τ :=
  if committed then
    { s with
      userInstallations := Function.update s.userInstallations githubUserId installations }
  else s

end Site

namespace Api

variable {ω κ τ : Type} (api : Api κ τ)

/-- What a route does once it has its session. -/
def enter (route : Route) (session : AuthenticatedSession) : VisitPhase τ :=
  match route with
  | .install => .replied (.status (if api.githubAppSlug = "" then 503 else 302))
  | .logout => .leaving session
  | _ => .asking session

/-- `require_session`, where `authenticate` has got so far. -/
def settle (route : Route) (row : Option (AuthSession τ × GitHubUser)) :
    AuthPhase → VisitPhase τ
  | .returned none => .replied (.status 401)
  | .returned (some session) => api.enter route session
  | phase => .authenticating row phase

/-- What a route does with the installations that GitHub has listed. -/
def withInstallations (route : Route) (session : AuthenticatedSession)
    (installations : List GitHubInstallation) : VisitPhase τ :=
  match route with
  | .me => .replied (.user session.user installations)
  | .setup installationId =>
      .replied (.status (if installationId ∈ installationIds installations then 303 else 403))
  | _ => .serving (some (installationIds installations))

/-- The bodies of the routes with `analysis_access`. -/
def serve (db : Database) (now : Instant) (ids : Option (Finset Int)) (route : Route) :
    Database × ApiReply :=
  match route with
  | .listAnalyses limit repository status category cursor =>
      let filter : AnalysisFilter :=
        { installationIds := ids, repository := repository, status := status, category := category }
      let page (cursor : Option AnalysisCursor) : Database × ApiReply :=
        match db.listPage api.backend limit filter cursor with
        | .ok page => (db, .page page)
        | .error _ => (db, .status 500)
      match cursor with
      | none | some "" => page none
      | some text =>
          match api.decodeCursor text with
          | some cursor => page (some cursor)
          | none => (db, .status 422)
  | .getAnalysis runId =>
      match db.get runId ids with
      | .ok (some record) => (db, .analysis record)
      | .ok none => (db, .status 404)
      | .error _ => (db, .status 500)
  | .saveFeedback runId feedback =>
      match db.saveFeedback runId feedback ids now with
      | (db, some record) => (db, .feedback record)
      | (db, none) => (db, .status 404)
  -- no other route gets here
  | _ => (db, .status 500)

/-- `session_ttl` of `complete_login`. -/
def ttl (expiresIn : Option Duration) : Duration :=
  match expiresIn with
  | none => api.sessionTtl
  | some expiresIn => min api.sessionTtl expiresIn

section Step

variable [DecidableEq ω] [DecidableEq κ]

/-- The steps of a login. -/
def loginStep (s : Site ω κ τ) (j : Nat) (login : Login) : SiteLabel ω κ → Option (Site ω κ τ)
  | .upsertUser _ =>
      match login.phase with
      | .upserting =>
          some ({ s with users := Function.update s.users login.user.githubUserId login.user }.setLogin
            j { login with phase := .asking })
      | _ => none
  | .askLogin _ answer =>
      match login.phase, answer with
      | .asking, .ok installations =>
          some (s.setLogin j { login with phase := .replacing installations })
      | .asking, .error _ => some (s.setLogin j { login with phase := .finished })
      | _, _ => none
  | .replaceLogin _ committed =>
      match login.phase with
      | .replacing installations =>
          some ((s.replaceUserInstallations login.user.githubUserId installations committed).setLogin
            j { login with phase := if committed then .creating else .finished })
      | _ => none
  | .createSession _ w token nonce =>
      match login.phase with
      | .creating =>
          -- `secrets.token_urlsafe(48)`: no session token is drawn twice
          if s.issued (api.hashToken token) = none then
            let expiresAt := s.now + api.ttl login.expiresIn
            let session : AuthSession τ :=
              { githubUserId := login.user.githubUserId
                encryptedAccessToken :=
                  api.fernet.encrypt (s.keys w).primary nonce login.accessToken.toUTF8
                expiresAt := expiresAt }
            some ({ s.setSession (api.hashToken token) (some session) with
              issued := Function.update s.issued (api.hashToken token)
                (some ⟨login.user.githubUserId, login.accessToken, expiresAt⟩) }.setLogin
              j { login with phase := .finished })
          else none
      | _ => none
  | _ => none

/-- The steps of a request. -/
def visitStep (s : Site ω κ τ) (i : Nat) (visit : Visit ω τ) :
    SiteLabel ω κ → Option (Site ω κ τ)
  | .check _ =>
      match visit.phase with
      | .authenticating row .fetched =>
          some (s.setVisit i { visit with
            checkedAt := some s.now
            phase := api.settle visit.route row (checkSession api.fernet (s.keys visit.api) s.now
              (api.hashToken visit.token) row) })
      | _ => none
  | .write _ nonce =>
      match visit.phase with
      | .authenticating (some (session, user)) (.rewriting token) =>
          let hash := api.hashToken visit.token
          let rewritten := (s.sessions hash).map fun session =>
            { session with
              encryptedAccessToken :=
                api.fernet.encrypt (s.keys visit.api).primary nonce token }
          some ((s.setSession hash rewritten).setVisit i { visit with
            phase := api.settle visit.route (some (session, user)) (decodeToken hash user token) })
      | _ => none
  | .delete _ =>
      match visit.phase with
      | .authenticating _ .deleting =>
          some ((s.setSession (api.hashToken visit.token) none).setVisit i
            { visit with phase := .replied (.status 401) })
      | _ => none
  | .ask _ answer =>
      match visit.phase, answer with
      | .asking session, .ok installations =>
          some ({ s with
            answers := ⟨i, session.accessToken, installations⟩ :: s.answers }.setVisit i
            { visit with phase := .replacing session installations })
      | .asking _, .error _ => some (s.setVisit i { visit with phase := .replied (.status 500) })
      | _, _ => none
  | .replace _ committed =>
      match visit.phase with
      | .replacing session installations =>
          some ((s.replaceUserInstallations session.user.githubUserId installations
            committed).setVisit i { visit with
              phase := if committed then withInstallations visit.route session installations
                else .replied (.status 500) })
      | _ => none
  | .serve _ =>
      match visit.phase with
      | .serving ids =>
          let served := api.serve s.db s.now ids visit.route
          some ({ s with db := served.1 }.setVisit i { visit with phase := .replied served.2 })
      | _ => none
  | .leave _ =>
      match visit.phase with
      | .leaving session =>
          some ((s.setSession session.sessionHash none).setVisit i
            { visit with phase := .replied (.status 204) })
      | _ => none
  | _ => none

/-- The first steps of a request. -/
def arrive (s : Site ω κ τ) (w : ω) (token : String) (route : Route) : Visit ω τ :=
  { api := w
    token := token
    route := route
    checkedAt := none
    phase :=
      if route.isData && !api.authRequired then .serving none
      else if token = "" then .replied (.status 401)
      else .authenticating (s.getAuthSession (api.hashToken token)) .fetched }

def step (s : Site ω κ τ) (label : SiteLabel ω κ) : Option (Site ω κ τ) :=
  match label with
  | .tick d => some { s with now := s.now + d }
  | .deploy w keys => some { s with keys := Function.update s.keys w keys }
  | .others db => some { s with db := db }
  | .login user accessToken expiresIn =>
      some { s with logins := s.logins ++ [⟨user, accessToken, expiresIn, .upserting⟩] }
  | .request w token route => some { s with visits := s.visits ++ [api.arrive s w token route] }
  | .upsertUser j | .askLogin j _ | .replaceLogin j _ | .createSession j _ _ _ =>
      match s.logins[j]? with
      | some login => api.loginStep s j login label
      | none => none
  | .check i | .write i _ | .delete i | .ask i _ | .replace i _ | .serve i | .leave i =>
      match s.visits[i]? with
      | some visit => api.visitStep s i visit label
      | none => none

end Step

end Api

/-- Nobody has logged in yet. -/
def Site.init {ω κ τ : Type} (now : Instant) (keys : ω → TokenKeys κ) (db : Database) :
    Site ω κ τ where
  now := now
  keys := keys
  db := db
  users := fun _ => none
  sessions := fun _ => none
  userInstallations := fun _ => []
  visits := []
  logins := []
  issued := fun _ => none
  answers := []

end PipeLens
