import Mathlib.Data.List.Infix
import PipeLens.Models

/-!
# Publishing to GitHub

`request_with_retry` and the two upserts of `GitHubClient`, request by request.
Both upserts list first and then write: they `PATCH` what they found, or `POST` a
new comment or check run.

GitHub itself is outside. How a request goes is a `Reply`, and what has to be known
beyond the reply is whether GitHub carried the request out: a connection can break
after that, and so can an error status be sent.
-/

namespace PipeLens

/-! ## `request_with_retry` -/

/-- `RetryPolicy`, without the delays. -/
structure RetryPolicy where
  maxAttempts : Nat := 3
  positive : 1 ≤ maxAttempts := by decide

inductive Method where
  | get | post | patch
  deriving DecidableEq, Repr

/-- `method in _IDEMPOTENT_METHODS`. -/
def Method.idempotent : Method → Bool
  | .get => true
  | .post => false
  | .patch => false

/-- How one request goes. -/
inductive Reply where
  | success
  /-- No response arrives. -/
  | transportError (performed : Bool) (message : String)
  /-- An error status, which `_retry_reason` and `_response_delay` find retryable or not. -/
  | error (performed retryable : Bool) (message : String)
  deriving DecidableEq, Repr

/-- Whether GitHub carried the request out. -/
def Reply.performed : Reply → Bool
  | .success => true
  | .transportError performed _ => performed
  | .error performed _ _ => performed

/-- What `request_with_retry` does with a reply, `raise_for_status` included. -/
inductive Verdict where
  | returned
  | resend
  | raised (message : String)
  deriving DecidableEq, Repr

/-- One round of the loop, the one with number `attempt`. -/
def requestWithRetry (policy : RetryPolicy) (method : Method) (attempt : Nat) : Reply → Verdict
  | .success => .returned
  | .transportError _ message =>
      if attempt = policy.maxAttempts ∨ method.idempotent = false then .raised message else .resend
  | .error _ retryable message =>
      -- unlike above, the method does not matter here
      if retryable = false ∨ attempt = policy.maxAttempts then .raised message else .resend

/-! ## Comments -/

/-- A comment of a pull request. Its id is its position. -/
structure Comment where
  /-- The id of the app it was made with. -/
  app : Option String
  body : String
  deriving DecidableEq, Repr

/-- The app PipeLens runs as. -/
structure GitHubApp where
  id : String
  /-- `_app_jwt` raises without an id, so no analysis comes to publish without one. -/
  configured : id ≠ ""

def marker (runId : Int) : String := "<!-- pipelens:run:" ++ toString runId ++ " -->"

def commentBody (runId : Int) (body : String) : String := marker runId ++ "\n" ++ body

/-- `needle in text`. -/
def isIn (needle text : String) : Bool :=
  text.toList.tails.any fun rest => needle.toList.isPrefixOf rest

theorem isIn_iff_isInfixOf {needle text : String} :
    isIn needle text = true ↔ needle.toList <:+: text.toList := by
  unfold isIn
  rw [List.any_eq_true]
  constructor
  · intro h
    obtain ⟨rest, htail, hprefix⟩ := h
    exact (List.isPrefixOf_iff_prefix.mp hprefix).isInfix.trans
      ((List.mem_tails _ _).mp htail).isInfix
  · intro h
    obtain ⟨start, rest, heq⟩ := h
    refine ⟨needle.toList ++ rest, (List.mem_tails _ _).mpr ⟨start, ?_⟩, ?_⟩
    · rw [← List.append_assoc, heq]
    · exact List.isPrefixOf_iff_prefix.mpr (List.prefix_append _ _)

/-- `_is_own_comment`. -/
def GitHubApp.isOwnComment (app : GitHubApp) (comment : Comment) : Bool :=
  decide (app.id ≠ "" ∧ comment.app.getD "None" = app.id)

/-- The condition `upsert_pull_request_comment` searches for. -/
def GitHubApp.isRunComment (app : GitHubApp) (runId : Int) (comment : Comment) : Bool :=
  isIn (marker runId) comment.body && app.isOwnComment comment

/-- One page of the comments, with their ids. -/
def commentsPage (comments : List Comment) (page : Nat) : List (Comment × Nat) :=
  (comments.zipIdx.drop (100 * (page - 1))).take 100

/-! ## The upserts -/

/-- Where an upsert stands. `attempt` counts the sends of the request at hand. -/
inductive UpsertPc where
  | listComments (number : Int) (page attempt : Nat)
  | writeComment (number : Int) (existing : Option Nat) (attempt : Nat)
  | listChecks (attempt : Nat)
  | writeCheck (existing : Bool) (attempt : Nat)
  deriving DecidableEq, Repr

/-- A check run, as far as `upsert_check` looks at it. -/
structure CheckRun where
  externalId : Option String
  deriving DecidableEq, Repr

namespace UpsertPc

def method : UpsertPc → Method
  | .listComments _ _ _ => .get
  | .writeComment _ (some _) _ => .patch
  | .writeComment _ none _ => .post
  | .listChecks _ => .get
  | .writeCheck true _ => .patch
  | .writeCheck false _ => .post

def attempt : UpsertPc → Nat
  | .listComments _ _ attempt => attempt
  | .writeComment _ _ attempt => attempt
  | .listChecks attempt => attempt
  | .writeCheck _ attempt => attempt

/-- The same request, once more. -/
def resend : UpsertPc → UpsertPc
  | .listComments number page attempt => .listComments number page (attempt + 1)
  | .writeComment number existing attempt => .writeComment number existing (attempt + 1)
  | .listChecks attempt => .listChecks (attempt + 1)
  | .writeCheck existing attempt => .writeCheck existing (attempt + 1)

/-- The request after a response that went through; `none` at the end of the upsert. -/
def proceed (app : GitHubApp) (runId : Int) (comments : Int → List Comment)
    (checkRuns : List CheckRun) : UpsertPc → Option UpsertPc
  | .listComments number page _ =>
      let items := commentsPage (comments number) page
      match items.find? (fun item => app.isRunComment runId item.1) with
      | some (_, id) => some (.writeComment number (some id) 1)
      | none =>
          -- a short page is the last one
          if items.length < 100 then some (.writeComment number none 1)
          else some (.listComments number (page + 1) 1)
  | .writeComment _ _ _ => none
  | .listChecks _ =>
      some (.writeCheck (checkRuns.any fun check => check.externalId == some (toString runId)) 1)
  | .writeCheck _ _ => none

/-- What a request that is carried out does to the comments of the pull requests. -/
def perform (app : GitHubApp) (runId : Int) (body : String) (comments : Int → List Comment) :
    UpsertPc → (Int → List Comment)
  | .writeComment number (some id) _ =>
      Function.update comments number
        ((comments number).modify id fun comment =>
          { comment with body := commentBody runId body })
  | .writeComment number none _ =>
      Function.update comments number
        (comments number ++ [{ app := some app.id, body := commentBody runId body }])
  | _ => comments

/-- The pull request on which the request creates a comment. -/
def creates : UpsertPc → Option Int
  | .writeComment number none _ => some number
  | _ => none

end UpsertPc

/-! ## The publishing stage -/

/-- What the body of `PUBLISHING` depends on. -/
structure Publication where
  publishChecks : Bool
  trustLevel : TrustLevel
  pullRequestNumber : Option Int
  body : String
  deriving DecidableEq, Repr

/-- The first request of the body of `PUBLISHING`, if it makes one. -/
def Publication.firstRequest (publication : Publication) : Option UpsertPc :=
  if publication.publishChecks then
    match publication.pullRequestNumber, publication.trustLevel with
    | some number, .trusted => some (.listComments number 1 1)
    | some number, .untrustedFork => some (.listComments number 1 1)
    | none, .trusted => some (.listChecks 1)
    | _, _ => none
  else none

end PipeLens
