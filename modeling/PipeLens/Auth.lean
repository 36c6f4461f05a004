import PipeLens.Lib.Transition
import PipeLens.Models

/-!
# Sessions and the rotation of their key

`AuthService` of `auth.py` on any number of API instances that share one database.
An access token is stored encrypted. `authenticate` decrypts it with the primary key
of its instance, else with the whole key ring; in the second case it writes the token
back under the primary key, and a token that no key decrypts costs the session.

The instances go through the stages of a key rotation, each at its own pace within the
documented order. Every store call is a step of its own, and so is the check between
the read of a session and what follows from it.

`cryptography` is not modelled. What the service needs of it is `Fernet`.
-/

namespace PipeLens

/-- `Fernet` under keys `κ`, with ciphertexts `τ`. -/
structure Fernet (κ τ : Type) where
  /-- `encrypt`; the number stands for its random vector and its clock. -/
  encrypt : κ → Nat → ByteArray → τ
  /-- `decrypt`; `none` is `InvalidToken`. -/
  decrypt : κ → τ → Option ByteArray
  decrypt_own : ∀ key nonce token, decrypt key (encrypt key nonce token) = some token
  decrypt_other : ∀ key key' nonce token, key ≠ key' →
    decrypt key' (encrypt key nonce token) = none

/-- The keys of an instance: `token_encryption_key` and the fallbacks. -/
structure TokenKeys (κ : Type) where
  primary : κ
  fallbacks : List κ
  deriving DecidableEq

namespace TokenKeys

variable {κ τ : Type} [DecidableEq κ]

/-- `token_encryption_key_ring`: every key once, in the order of `dict.fromkeys`. -/
def ring (keys : TokenKeys κ) : List κ :=
  (keys.primary :: keys.fallbacks).foldl (fun ring key => if key ∈ ring then ring else ring ++ [key])
    []

/-- `MultiFernet.decrypt`: the first key of the ring that decrypts. -/
def decrypt (fernet : Fernet κ τ) (keys : TokenKeys κ) (text : τ) : Option ByteArray :=
  keys.ring.findSome? fun key => fernet.decrypt key text

end TokenKeys

structure GitHubUser where
  githubUserId : Int
  login : String
  avatarUrl : Option String
  deriving DecidableEq, Repr

/-- A row of `auth_sessions`. -/
structure AuthSession (τ : Type) where
  githubUserId : Int
  encryptedAccessToken : τ
  expiresAt : Instant
  deriving DecidableEq

/-- `AuthenticatedSession`. -/
structure AuthenticatedSession where
  sessionHash : String
  user : GitHubUser
  accessToken : String
  deriving DecidableEq, Repr

/-- The one of the core library. -/
instance decidableEqToken : DecidableEq ByteArray := ByteArray.instDecidableEq

/-- Where a call of `authenticate` stands. -/
inductive AuthPhase where
  /-- `get_auth_session` has returned. -/
  | fetched
  /-- `update_auth_session_token` is next, with the decrypted token. -/
  | rewriting (token : ByteArray)
  /-- `delete_auth_session` is next. -/
  | deleting
  | returned (session : Option AuthenticatedSession)
  deriving DecidableEq

def AuthPhase.finished : AuthPhase → Bool
  | .returned _ => true
  | _ => false

/-- A call of `authenticate` on an instance. -/
structure AuthCall (ω τ : Type) where
  api : ω
  sessionHash : String
  /-- What `get_auth_session` returned: the session, joined with its user. -/
  row : Option (AuthSession τ × GitHubUser)
  /-- When the expiry was compared with the clock. -/
  checkedAt : Option Instant
  phase : AuthPhase
  deriving DecidableEq

section Authenticate

variable {κ τ : Type} [DecidableEq κ]

/-- The end of `authenticate`: the token as text. -/
def decodeToken (sessionHash : String) (user : GitHubUser) (token : ByteArray) : AuthPhase :=
  match String.fromUTF8? token with
  | some accessToken =>
      .returned (some { sessionHash := sessionHash, user := user, accessToken := accessToken })
  | none => .deleting

/-- What `authenticate` does with the session it has read. -/
def checkSession (fernet : Fernet κ τ) (keys : TokenKeys κ) (now : Instant) (sessionHash : String) :
    Option (AuthSession τ × GitHubUser) → AuthPhase
  | none => .returned none
  | some (session, user) =>
      if session.expiresAt ≤ now then .deleting
      else
        match fernet.decrypt keys.primary session.encryptedAccessToken with
        | some token => decodeToken sessionHash user token
        | none =>
            match keys.decrypt fernet session.encryptedAccessToken with
            -- no key of the ring decrypts it
            | none => .deleting
            | some token => .rewriting token

end Authenticate

/-! ## The rotation -/

/-- The stages an instance is deployed in. -/
inductive RotationStage where
  | oldPrimary
  | oldPrimaryNewFallback
  | newPrimaryOldFallback
  | newPrimary
  deriving DecidableEq, Repr

namespace RotationStage

def rank : RotationStage → Nat
  | oldPrimary => 1
  | oldPrimaryNewFallback => 2
  | newPrimaryOldFallback => 3
  | newPrimary => 4

def next : RotationStage → Option RotationStage
  | oldPrimary => some oldPrimaryNewFallback
  | oldPrimaryNewFallback => some newPrimaryOldFallback
  | newPrimaryOldFallback => some newPrimary
  | newPrimary => none

def keys {κ : Type} (old new : κ) : RotationStage → TokenKeys κ
  | oldPrimary => ⟨old, []⟩
  | oldPrimaryNewFallback => ⟨old, [new]⟩
  | newPrimaryOldFallback => ⟨new, [old]⟩
  | newPrimary => ⟨new, []⟩

end RotationStage

/-- What a login handed out: the access token and the end of the session. -/
structure Issued where
  accessToken : String
  expiresAt : Instant
  deriving DecidableEq, Repr

/-- The database and the instances. -/
structure Deployment (ω τ : Type) where
  now : Instant
  stage : ω → RotationStage
  /-- When the last instance entered the third stage. -/
  thirdAt : Option Instant
  /-- `github_users`. -/
  users : Int → Option GitHubUser
  /-- `auth_sessions`, by `session_hash`. -/
  sessions : String → Option (AuthSession τ)
  calls : List (AuthCall ω τ)
  /-- What every login so far handed out, by `session_hash`. -/
  issued : String → Option Issued

inductive RotationLabel (ω : Type) where
  /-- Time passes. -/
  | tick (d : Nat)
  /-- An instance enters its next stage. -/
  | deploy (w : ω)
  /-- `complete_login`, once GitHub has answered; `expires_in` may be missing. -/
  | login (w : ω) (sessionHash : String) (user : GitHubUser) (accessToken : String)
      (expiresIn : Option Duration) (nonce : Nat)
  /-- `authenticate` reads the session. -/
  | authenticate (w : ω) (sessionHash : String)
  | check (i : Nat)
  | write (i : Nat) (nonce : Nat)
  | delete (i : Nat)
  deriving DecidableEq

namespace Deployment

variable {κ τ ω : Type}

/-- Every instance runs with the old key alone. -/
def init (now : Instant) : Deployment ω τ where
  now := now
  stage := fun _ => .oldPrimary
  thirdAt := none
  users := fun _ => none
  sessions := fun _ => none
  calls := []
  issued := fun _ => none

/-- `get_auth_session`: an inner join with the user. -/
def getAuthSession (s : Deployment ω τ) (sessionHash : String) :
    Option (AuthSession τ × GitHubUser) :=
  match s.sessions sessionHash with
  | none => none
  | some session => (s.users session.githubUserId).map fun user => (session, user)

def setCall (s : Deployment ω τ) (i : Nat) (call : AuthCall ω τ) : Deployment ω τ :=
  { s with calls := s.calls.set i call }

def setSession (s : Deployment ω τ) (sessionHash : String) (session : Option (AuthSession τ)) :
    Deployment ω τ :=
  { s with sessions := Function.update s.sessions sessionHash session }

variable [DecidableEq κ] [DecidableEq ω] [Fintype ω]

/-- All instances have reached stage `r`. -/
def Reached (s : Deployment ω τ) (r : Nat) : Prop := ∀ w, r ≤ (s.stage w).rank

instance (s : Deployment ω τ) (r : Nat) : Decidable (s.Reached r) :=
  inferInstanceAs (Decidable (∀ _, _))

/-- Whether `w` may enter its next stage. -/
def MayDeploy (lifetime : Duration) (s : Deployment ω τ) (w : ω) : Prop :=
  -- all instances have reached the stage that `w` leaves
  s.Reached (s.stage w).rank
    ∧ (s.stage w = .newPrimaryOldFallback →
        s.thirdAt.any (fun t => decide (t + lifetime ≤ s.now)) = true)
    -- no call outlives the stage it was made in
    ∧ ∀ call ∈ s.calls, call.api = w → call.phase.finished = true

instance (lifetime : Duration) (s : Deployment ω τ) (w : ω) : Decidable (s.MayDeploy lifetime w) :=
  inferInstanceAs (Decidable (_ ∧ _ ∧ _))

/-- `session_ttl`. -/
def sessionTtl (lifetime : Duration) : Option Duration → Duration
  | none => lifetime
  | some expiresIn => min lifetime expiresIn

def step (fernet : Fernet κ τ) (old new : κ) (lifetime : Duration) (s : Deployment ω τ) :
    RotationLabel ω → Option (Deployment ω τ)
  | .tick d => some { s with now := s.now + d }
  | .deploy w =>
      match (s.stage w).next with
      | none => none
      | some stage =>
          if s.MayDeploy lifetime w then
            let s' := { s with stage := Function.update s.stage w stage }
            some { s' with
              thirdAt := if s.thirdAt = none ∧ s'.Reached 3 then some s.now else s.thirdAt }
          else none
  | .login w sessionHash user accessToken expiresIn nonce =>
      -- `secrets.token_urlsafe(48)`: no session token is drawn twice
      if s.issued sessionHash = none then
        let expiresAt := s.now + sessionTtl lifetime expiresIn
        let session : AuthSession τ :=
          { githubUserId := user.githubUserId
            encryptedAccessToken :=
              fernet.encrypt ((s.stage w).keys old new).primary nonce accessToken.toUTF8
            expiresAt := expiresAt }
        some { s.setSession sessionHash (some session) with
          users := Function.update s.users user.githubUserId (some user)
          issued := Function.update s.issued sessionHash
            (some { accessToken := accessToken, expiresAt := expiresAt }) }
      else none
  | .authenticate w sessionHash =>
      some { s with
        calls := s.calls ++ [{
          api := w
          sessionHash := sessionHash
          row := s.getAuthSession sessionHash
          checkedAt := none
          phase := .fetched }] }
  | .check i =>
      match s.calls[i]? with
      | none => none
      | some call =>
          if call.phase = .fetched then
            some (s.setCall i { call with
              checkedAt := some s.now
              phase := checkSession fernet ((s.stage call.api).keys old new) s.now call.sessionHash
                call.row })
          else none
  | .write i nonce =>
      match s.calls[i]? with
      | none => none
      | some call =>
          match call.phase, call.row with
          | .rewriting token, some (_, user) =>
              -- an `UPDATE` without a condition on the old token, of no row if the session is gone
              let session := (s.sessions call.sessionHash).map fun session =>
                { session with
                  encryptedAccessToken :=
                    fernet.encrypt ((s.stage call.api).keys old new).primary nonce token }
              some ((s.setSession call.sessionHash session).setCall i { call with
                phase := decodeToken call.sessionHash user token })
          | _, _ => none
  | .delete i =>
      match s.calls[i]? with
      | none => none
      | some call =>
          if call.phase = .deleting then
            some ((s.setSession call.sessionHash none).setCall i { call with
              phase := .returned none })
          else none

end Deployment

end PipeLens
