import PipeLens.HttpRetry
import PipeLens.Lib.Program
import PipeLens.Payload

/-!
# Reading a run from GitHub

The part of `GitHubClient` that finds out what a run is about: `repository_context`
with its helpers, and the listings that come in pages. GitHub's answers are arbitrary:
each request is answered by a response, whose body may be any JSON value or none, or
raises. The requests are logged in order.
-/

namespace PipeLens

/-! ## Values -/

/-- A number, for comparisons. -/
def Json.number? : Json → Option JsonFloat
  | .bool b => some (.finite (if b then 1 else 0))
  | .int n => some (.finite n)
  | .float value => some value
  | _ => none

/-- `a == b` of numbers; a NaN is not even equal to itself. -/
def JsonFloat.equal : JsonFloat → JsonFloat → Bool
  | .finite p, .finite q => p == q
  | .infinite a, .infinite b => a == b
  | _, _ => false

/-- `a < b` of numbers. -/
def JsonFloat.less : JsonFloat → JsonFloat → Bool
  | .finite p, .finite q => p < q
  | .finite _, .infinite negative => !negative
  | .infinite negative, .finite _ => negative
  | .infinite a, .infinite b => a && !b
  | _, _ => false

namespace Json

mutual

/-- `a == b`. -/
def equal : Json → Json → Bool
  | .null, b => match b with
      | .null => true
      | _ => false
  | .str s, b => match b with
      | .str t => s == t
      | _ => false
  | .list xs, b => match b with
      | .list ys => equalItems xs ys
      | _ => false
  | .dict fields, b => match b with
      | .dict others => fields.length == others.length && equalFields fields others
      | _ => false
  | .bool v, b => match b.number? with
      | some q => JsonFloat.equal (.finite (if v then 1 else 0)) q
      | none => false
  | .int n, b => match b.number? with
      | some q => JsonFloat.equal (.finite n) q
      | none => false
  | .float p, b => match b.number? with
      | some q => p.equal q
      | none => false

def equalItems : List Json → List Json → Bool
  | [], ys => ys.isEmpty
  | x :: xs, ys => match ys with
      | [] => false
      | y :: ys => equal x y && equalItems xs ys

def equalFields : List (String × Json) → List (String × Json) → Bool
  | [], _ => true
  | (key, value) :: fields, others =>
      (match others.lookup key with
        | some other => equal value other
        | none => false) && equalFields fields others

end

mutual

/-- `a < b`. -/
def less : Json → Json → Except PyException Bool
  | .str s, b => match b with
      | .str t => .ok (decide (s < t))
      | _ => .error .typeError
  | .list xs, b => match b with
      | .list ys => lessItems xs ys
      | _ => .error .typeError
  | .null, _ => .error .typeError
  | .dict _, _ => .error .typeError
  | .bool v, b => match b.number? with
      | some q => .ok (JsonFloat.less (.finite (if v then 1 else 0)) q)
      | none => .error .typeError
  | .int n, b => match b.number? with
      | some q => .ok (JsonFloat.less (.finite n) q)
      | none => .error .typeError
  | .float p, b => match b.number? with
      | some q => .ok (p.less q)
      | none => .error .typeError

def lessItems : List Json → List Json → Except PyException Bool
  | [], ys => .ok (!ys.isEmpty)
  | x :: xs, ys => match ys with
      | [] => .ok false
      | y :: ys => if equal x y then lessItems xs ys else less x y

end

/-- What `for item in value` goes through. -/
def iterate : Json → Except PyException (List Json)
  | .list items => .ok items
  | .dict fields => .ok (fields.map fun field => .str field.1)
  | .str s => .ok (s.toList.map fun c => .str (String.singleton c))
  | _ => .error .typeError

/-- `value[0]` of a value that is not empty. -/
def first : Json → Except PyException Json
  | .list (item :: _) => .ok item
  | .dict _ => .error .keyError
  | .str s =>
      match s.toList with
      | c :: _ => .ok (.str (String.singleton c))
      | [] => .error .typeError
  | _ => .error .typeError

/-- `value or {}`. -/
def orEmpty (value : Json) : Json := if value.truthy then value else .dict []

/-- `{**value, key: item}` of a dictionary. -/
def withField (value : Json) (key : String) (item : Json) : Json :=
  match value with
  | .dict fields =>
      if (fields.lookup key).isSome then
        .dict (fields.map fun field => if field.1 = key then (key, item) else field)
      else .dict (fields ++ [(key, item)])
  | value => value

/-- What pydantic takes for a field of type `str | None`; `none` when it raises. -/
def optionalText : Json → Option (Option String)
  | .null => some none
  | .str s => some (some s)
  | _ => none

end Json

/-! ## Requests -/

inductive GitHubRequest where
  | run (repository : String) (runId : Int)
  | pulls (repository head : String)
  | pullFiles (repository : String) (number : Json)
  | compare (repository : String) (baseline : Json) (headSha : String)
  | commit (repository headSha : String)
  | workflowRuns (repository : String) (workflowId branch : Json) (page : Nat)
  | workflow (repository : String) (workflowId : Json)
  | contents (repository : String) (path : Json) (ref : String)
  | userInstallations (page : Nat)
  | jobs (repository : String) (runId : Int) (page : Nat)

structure GitHubResponse where
  statusCode : Nat
  /-- `response.json()`; `none` where it raises. -/
  json : Option Json
  text : String

inductive ReadError where
  /-- `request_with_retry` or `raise_for_status`. -/
  | http (message : String)
  | notJson
  | python (e : PyException)
  /-- pydantic refuses a value. -/
  | validation
  /-- The loop over pages has not ended. -/
  | unfinished
  deriving DecidableEq, Repr

/-- What the client does not control. -/
structure GitHubAnswers where
  /-- How the request with this number goes. -/
  answer : Nat → GitHubRequest → Except String GitHubResponse
  /-- `str.casefold`. -/
  casefold : String → String
  /-- What pydantic makes of a value for a field of type `int`. -/
  validateInt : Json → Option Int
  /-- `str` of a value that is not a text. -/
  str : Json → String

/-- `FailedJob` as `failed_jobs` makes it: a dataclass, whose values nobody checks. -/
structure RawFailedJob where
  jobId : Json
  name : Json
  failedSteps : List Json
  runnerLabels : List String
  workflowName : Json
  headBranch : Json

/-- Code that sends requests, with the requests so far. -/
abbrev GitHubReader (α : Type) := Program ReadError (List GitHubRequest) α

/-- Python code between two requests. -/
def reading {α : Type} : Except PyException α → GitHubReader α
  | .ok value => pure value
  | .error e => throw (.python e)

namespace GitHubAnswers

variable (github : GitHubAnswers)

/-- `_request`. -/
def request (request : GitHubRequest) : GitHubReader GitHubResponse :=
  Program.ofRun fun requests =>
    (match github.answer requests.length request with
      | .ok response => .ok response
      | .error message => .error (.http message),
      requests ++ [request])

/-- `response.raise_for_status()`. -/
def raiseForStatus (response : GitHubResponse) : GitHubReader Unit :=
  if 200 ≤ response.statusCode ∧ response.statusCode ≤ 299 then pure ()
  else throw (.http (toString response.statusCode))

/-- A request, its status and its body. -/
def requestJson (request : GitHubRequest) : GitHubReader Json := do
  let response ← github.request request
  raiseForStatus response
  match response.json with
  | some value => return value
  | none => throw .notJson

/-! ## Trust -/

/-- The last part of `_trust_level`. -/
def levelByName (repository : String) (headRepository : Json) :
    Except PyException TrustLevel := do
  match ← headRepository.get "full_name" .null with
  | .str headFullName =>
      if github.casefold headFullName = github.casefold repository then return .trusted
      else return .untrustedFork
  | _ => return .unverified

/-- The part of `_trust_level` for a pull request of which an id is missing. -/
def levelBySides (repository baseFullName : String) (head headRepository : Json) :
    Except PyException TrustLevel := do
  match ← head.get "full_name" .null with
  | .str headFullName =>
      if github.casefold headFullName = github.casefold baseFullName then return .trusted
      else return .untrustedFork
  | _ => github.levelByName repository (if head.truthy then head else headRepository)

/-- `(run.get("pull_requests") or [None])[0]`. -/
def firstPullRequest (run : Json) : Except PyException Json := do
  let pullRequests ← run.get "pull_requests" .null
  if pullRequests.truthy then pullRequests.first else return .null

/-- `pull_request.get(side, {}).get("repo") or {}`. -/
def sideRepository (pullRequest : Json) (side : String) : Except PyException Json := do
  let value ← pullRequest.get side (.dict [])
  return (← value.get "repo" .null).orEmpty

/-- `_trust_level`. -/
def trustLevel (repository : String) (run : Json) : Except PyException TrustLevel := do
  let pullRequest ← firstPullRequest run
  let headRepository := (← run.get "head_repository" .null).orEmpty
  if pullRequest.truthy then
    let head ← sideRepository pullRequest "head"
    let base ← sideRepository pullRequest "base"
    match ← base.get "full_name" .null with
    | .str baseFullName =>
        if github.casefold baseFullName ≠ github.casefold repository then return .unverified
        else
          match ← head.get "id" .null, ← base.get "id" .null with
          | .null, _ | _, .null => github.levelBySides repository baseFullName head headRepository
          | headId, baseId =>
              if headId.equal baseId then return .trusted else return .untrustedFork
    | _ => return .unverified
  else github.levelByName repository headRepository

/-- `head_full_name.partition("/")[0]` and `head_branch`, where the search for a pull request
goes on. -/
def pullRequestHead (run : Json) : Except PyException (Option (String × String × String)) := do
  let headRepository := (← run.get "head_repository" .null).orEmpty
  match ← headRepository.get "full_name" .null, ← run.get "head_branch" .null with
  | .str headFullName, .str headBranch =>
      let owner := headFullName.toList.takeWhile (· != '/')
      if owner.length = headFullName.length ∨ owner = [] ∨ headBranch = "" then return none
      else return some (headFullName, String.ofList owner, headBranch)
  | _, _ => return none

/-- `value.get("full_name", "").casefold() == name.casefold()`. -/
def hasName (value : Json) (name : String) : Except PyException Bool := do
  match ← value.get "full_name" (.str "") with
  | .str fullName => return github.casefold fullName == github.casefold name
  | _ => throw .attributeError

/-- The items of a list that meet a condition which may raise. -/
def selectItems (isSelected : Json → Except PyException Bool) :
    List Json → Except PyException (List Json)
  | [] => .ok []
  | item :: items => do
      let selected ← isSelected item
      let others ← selectItems isSelected items
      return if selected then item :: others else others

/-- The condition on a pull request of the listing. -/
def isRunOf (repository headSha headFullName : String) (pullRequest : Json) :
    Except PyException Bool := do
  let head := (← pullRequest.get "head" .null).orEmpty
  let base := (← pullRequest.get "base" .null).orEmpty
  let headRepository := (← head.get "repo" .null).orEmpty
  let baseRepository := (← base.get "repo" .null).orEmpty
  if (← head.get "sha" .null).str? ≠ some headSha then return false
  else if !(← github.hasName headRepository headFullName) then return false
  else github.hasName baseRepository repository

/-- `_resolve_external_pull_request`. -/
def resolveExternalPullRequest (repository headSha : String) (run : Json) :
    GitHubReader Json := do
  if (← reading (run.get "pull_requests" .null)).truthy then return run
  else if (← reading (run.get "event" .null)).str? ≠ some "pull_request" then return run
  else if (← reading (github.trustLevel repository run)) ≠ .untrustedFork then return run
  else
    match ← reading (pullRequestHead run) with
    | none => return run
    | some (headFullName, headOwner, headBranch) =>
        let listing ← github.requestJson
          (.pulls repository (headOwner ++ ":" ++ headBranch))
        let pullRequests ← reading listing.iterate
        let found ← reading
          (selectItems (github.isRunOf repository headSha headFullName) pullRequests)
        match found with
        | [pullRequest] => return run.withField "pull_requests" (.list [pullRequest])
        | _ => return run

/-! ## Changed files -/

/-- `not created_at or candidate.get("created_at", "") < created_at`. -/
def isOlder (createdAt candidate : Json) : Except PyException Bool := do
  if createdAt.truthy then (← candidate.get "created_at" (.str "")).less createdAt
  else return true

/-- The loop over the candidates of a page: the result, or `none` to go on. -/
def olderSuccess (createdAt : Json) :
    List Json → Except PyException (Option (Option String))
  | [] => .ok none
  | candidate :: candidates => do
      if ← isOlder createdAt candidate then
        return some (← candidate.get "head_sha" .null).str?
      else olderSuccess createdAt candidates

/-- The loop of `_previous_successful_sha` over the pages `page`, `page + 1`, …. -/
def successPages (repository : String) (workflowId branch createdAt : Json) :
    Nat → Nat → GitHubReader (Option String)
  | 0, _ => return none
  | n + 1, page => do
      let body ← github.requestJson (.workflowRuns repository workflowId branch page)
      let candidates ← reading (body.get "workflow_runs" (.list []) >>= Json.iterate)
      match ← reading (olderSuccess createdAt candidates) with
      | some headSha => return headSha
      | none =>
          if candidates.length < 100 then return none
          else successPages repository workflowId branch createdAt n (page + 1)

/-- `_previous_successful_sha`. -/
def previousSuccessfulSha (repository : String) (run : Json) : GitHubReader (Option String) := do
  let workflowId ← reading (run.get "workflow_id" .null)
  let branch ← reading (run.get "head_branch" .null)
  let createdAt ← reading (run.get "created_at" .null)
  match workflowId with
  | .null => return none
  | workflowId =>
      if branch.truthy then
        github.successPages repository workflowId branch createdAt 10 1
      else return none

/-- `ChangedFile(…)`. -/
def changedFile (item : Json) : GitHubReader ChangedFile := do
  let filename ← reading (item.index "filename")
  let status ← reading (item.get "status" (.str "modified"))
  let patch ← reading (item.get "patch" .null)
  let previousFilename ← reading (item.get "previous_filename" .null)
  match filename.str?, status.str?, patch.optionalText, previousFilename.optionalText with
  | some filename, some status, some patch, some previousFilename =>
      return { filename := filename, status := status, patch := patch
               previousFilename := previousFilename }
  | _, _, _, _ => throw .validation

/-- `_changed_files`; the baseline is not yet validated where it comes from a pull request. -/
def changedFiles (repository headSha : String) (run : Json) :
    GitHubReader (List ChangedFile × Json) := do
  let pullRequests ← reading (run.get "pull_requests" (.list []))
  let (files, baseline) ←
    if pullRequests.truthy then do
      let pullRequest ← reading pullRequests.first
      let number ← reading (pullRequest.index "number")
      let files ← github.requestJson (.pullFiles repository number)
      let base ← reading ((← reading pullRequests.first).get "base" (.dict []))
      let baseline ← reading (base.get "sha" .null)
      pure (files, baseline)
    else do
      let baseline ← github.previousSuccessfulSha repository run
      match baseline with
      | some sha =>
          -- an empty text counts as no baseline
          let body ←
            if sha = "" then github.requestJson (.commit repository headSha)
            else github.requestJson (.compare repository (.str sha) headSha)
          pure (← reading (body.get "files" (.list [])), .str sha)
      | none =>
          let body ← github.requestJson (.commit repository headSha)
          pure (← reading (body.get "files" (.list [])), .null)
  let items ← reading files.iterate
  return (← items.mapM changedFile, baseline)

/-! ## The workflow -/

/-- `_workflow_context`. -/
def workflowContext (repository headSha : String) (workflowId : Json) :
    GitHubReader (Json × Option String) := do
  match workflowId with
  | .null => return (.null, none)
  | workflowId =>
      let body ← github.requestJson (.workflow repository workflowId)
      let path ← reading (body.get "path" .null)
      if path.truthy then
        let response ← github.request (.contents repository path headSha)
        if response.statusCode = 404 then return (path, none)
        else
          raiseForStatus response
          return (path, some response.text)
      else return (.null, none)

/-- What pydantic takes for a field of type `int | None`. -/
def optionalInt : Json → Option (Option Int)
  | .null => some none
  | value => (github.validateInt value).map some

/-- `run["pull_requests"][0]["number"] if run.get("pull_requests") else None`. -/
def pullRequestNumber (run : Json) : Except PyException Json := do
  let pullRequests ← run.get "pull_requests" .null
  if pullRequests.truthy then (← pullRequests.first).index "number" else return .null

/-- `repository_context`. -/
def repositoryContext (repository : String) (runId : Int) (headSha : String) :
    GitHubReader RepositoryContext := do
  let run ← github.requestJson (.run repository runId)
  let run ← github.resolveExternalPullRequest repository headSha run
  let (changedFiles, baseline) ← github.changedFiles repository headSha run
  let workflowId ← reading (run.get "workflow_id" .null)
  let (path, content) ← github.workflowContext repository headSha workflowId
  let number ← reading (pullRequestNumber run)
  let trustLevel ← reading (github.trustLevel repository run)
  match path.optionalText, github.optionalInt number, baseline.optionalText with
  | some path, some number, some baseline =>
      return {
        changedFiles := changedFiles
        workflowPath := path
        workflowContent := content
        pullRequestNumber := number
        trustLevel := trustLevel
        baselineSha := baseline }
  | _, _, _ => throw .validation

/-! ## Listings -/

/-- The loops over pages of `user_installations` and `failed_jobs`. -/
def readPages (request : Nat → GitHubRequest) (key : String) : Nat → Nat →
    GitHubReader (List Json)
  | 0, _ => throw .unfinished
  | fuel + 1, page => do
      let body ← github.requestJson (request page)
      let batch ← reading (body.get key (.list []) >>= Json.iterate)
      if batch.length < 100 then return batch
      else return batch ++ (← readPages request key fuel (page + 1))

/-- `user_installations`. -/
def userInstallations (fuel : Nat) : GitHubReader (List Json) :=
  github.readPages .userInstallations "installations" fuel 1

/-- `str(value)`. -/
def toStr : Json → String
  | .str text => text
  | value => github.str value

/-- `step["name"]` of the steps that failed. -/
def failedSteps : List Json → Except PyException (List Json)
  | [] => .ok []
  | step :: steps => do
      if (← step.get "conclusion" .null).str? = some "failure" then
        return (← step.index "name") :: (← failedSteps steps)
      else failedSteps steps

/-- `FailedJob(…)` of a job. -/
def failedJob (job : Json) : Except PyException RawFailedJob := do
  let jobId ← job.index "id"
  let name ← job.index "name"
  let steps ← (← job.get "steps" (.list [])).iterate
  let failed ← failedSteps steps
  let labels ← (← job.get "labels" (.list [])).iterate
  return {
    jobId := jobId
    name := name
    failedSteps := failed
    runnerLabels := labels.map github.toStr
    workflowName := ← job.get "workflow_name" .null
    headBranch := ← job.get "head_branch" .null }

/-- The jobs that failed, in the order of the listing. -/
def failedAmong : List Json → Except PyException (List RawFailedJob)
  | [] => .ok []
  | job :: jobs => do
      if (← job.get "conclusion" .null).str? = some "failure" then
        return (← github.failedJob job) :: (← failedAmong jobs)
      else failedAmong jobs

/-- `failed_jobs`. -/
def failedJobs (fuel : Nat) (repository : String) (runId : Int) :
    GitHubReader (List RawFailedJob) := do
  let jobs ← github.readPages (.jobs repository runId) "jobs" fuel 1
  reading (github.failedAmong jobs)

end GitHubAnswers

end PipeLens
