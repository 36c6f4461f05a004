import Mathlib.Algebra.Order.Field.Rat
import PipeLens.GitHub
import PipeLens.Payload

/-!
# HTTP requests with retries

`http_retry.py` with all that its decisions depend on: the headers and the body of a
response, the delays, the clock and the jitter. Delays are exact rationals, and a
random number is a fraction of the range it is drawn from.

What httpx does is outside. A request ends in a response, in a transport error, or in
another exception, as for a body that its `content-encoding` does not decode.
`response.json()` reads the body, finds that it is no JSON, or finds it nested too
deeply, which is no `ValueError`. `response.text` may raise as well: a `utf-16` text, say,
has to start with a byte order mark.
-/

namespace PipeLens

/-- `RetryPolicy`, with the delays. -/
structure TimedRetryPolicy extends RetryPolicy where
  baseDelaySeconds : Rat := 1
  maxDelaySeconds : Rat := 60
  jitterRatio : Rat := 1 / 4
  base_nonneg : 0 ≤ baseDelaySeconds := by decide +kernel
  max_nonneg : 0 ≤ maxDelaySeconds := by decide +kernel
  jitter_nonneg : 0 ≤ jitterRatio := by decide +kernel
  jitter_le_one : jitterRatio ≤ 1 := by decide +kernel

/-- `__post_init__`; the error is the text of its `ValueError`. -/
def TimedRetryPolicy.postInit (maxAttempts : Int)
    (baseDelaySeconds maxDelaySeconds jitterRatio : Rat) : Except String TimedRetryPolicy :=
  if hattempts : maxAttempts < 1 then .error "max_attempts must be at least 1"
  else if hdelays : baseDelaySeconds < 0 ∨ maxDelaySeconds < 0 then
    .error "retry delays cannot be negative"
  else if hjitter : 0 ≤ jitterRatio ∧ jitterRatio ≤ 1 then
    .ok {
      maxAttempts := maxAttempts.toNat
      positive := by omega
      baseDelaySeconds := baseDelaySeconds
      maxDelaySeconds := maxDelaySeconds
      jitterRatio := jitterRatio
      base_nonneg := not_lt.mp (not_or.mp hdelays).1
      max_nonneg := not_lt.mp (not_or.mp hdelays).2
      jitter_nonneg := hjitter.1
      jitter_le_one := hjitter.2 }
  else .error "jitter_ratio must be between 0 and 1"

/-- What `response.json()` does. -/
inductive ResponseBody where
  | json (value : Json)
  /-- It raises a `ValueError`. -/
  | invalid
  /-- It raises `RecursionError`. -/
  | tooDeep

structure HttpResponse where
  statusCode : Nat
  /-- With the names in lower case. -/
  headers : List (String × String)
  /-- `response.text`, or the text of the exception that it raises. -/
  text : Except String String
  body : ResponseBody

/-- What `client.request` raises. -/
inductive RequestError where
  | transport (message : String)
  /-- An exception that is no `httpx.TransportError`. -/
  | other (message : String)
  deriving DecidableEq, Repr

/-- An exception that no branch of the loop expects. -/
inductive HttpFailure where
  | python (exception : PyException)
  | recursionError
  /-- From `response.text`. -/
  | text (message : String)
  /-- From `client.request`. -/
  | request (message : String)
  deriving DecidableEq, Repr

/-- What `random.random()` returns. -/
def Draw : Type := { u : Rat // 0 ≤ u ∧ u ≤ 1 }

/-- What one request meets: its reply, the clock after it, and the random number. -/
structure HttpRound where
  reply : Except RequestError HttpResponse
  now : Rat
  draw : Draw

/-- The parts of Python that the headers and the method go through. -/
structure HttpRuntime where
  /-- `str.upper`. -/
  upper : String → String
  /-- `str.casefold`. -/
  casefold : String → String
  /-- `float(text)`; `none` when it raises `ValueError`. -/
  float : String → Option JsonFloat
  /-- The time that `parsedate_to_datetime` reads, where a date without a timezone is in UTC;
  `none` when it raises. -/
  parsedate : String → Option Rat

inductive RetryReason where
  | transport | server | rateLimit
  deriving DecidableEq, Repr

def RetryReason.value : RetryReason → String
  | .transport => "transport"
  | .server => "server"
  | .rateLimit => "rate_limit"

/-- The delay that headers ask for. -/
inductive HeaderDelay where
  | finite (seconds : Rat)
  | infinite
  deriving DecidableEq, Repr

inductive HttpEvent where
  | sent (method : String)
  /-- The call of `on_retry`. -/
  | observed (reason : RetryReason) (attempt : Nat) (delay : Rat)
  | slept (delay : Rat)
  deriving DecidableEq, Repr

/-- How a call of `request_with_retry` ends. -/
inductive HttpEnding where
  | returned (response : HttpResponse)
  | reraised (message : String)
  | raised (failure : HttpFailure)
  | assertionError

/-- `_IDEMPOTENT_METHODS`. -/
def idempotentMethods : List String := ["GET", "HEAD", "OPTIONS", "PUT", "DELETE"]

/-- `_TRANSIENT_STATUS_CODES`. -/
def transientStatusCodes : List Nat := [408, 429, 500, 502, 503, 504]

/-- `_ACTION_REQUIRED_RATE_LIMIT_CODES`. -/
def actionRequiredRateLimitCodes : List String :=
  ["billing_hard_limit_reached", "billing_not_active", "insufficient_quota"]

/-- `bool(value)`. -/
def Json.truthy : Json → Bool
  | .null => false
  | .bool b => b
  | .int n => n != 0
  | .float (.finite q) => q != 0
  | .float _ => true
  | .str s => s != ""
  | .list items => !items.isEmpty
  | .dict fields => !fields.isEmpty

namespace HttpResponse

/-- `response.headers.get(name)`, where repeated headers are joined. -/
def header (response : HttpResponse) (name : String) : Option String :=
  match (response.headers.filter fun field => field.1 == name).map Prod.snd with
  | [] => none
  | values => some (", ".intercalate values)

/-- `code in _ACTION_REQUIRED_RATE_LIMIT_CODES`; a list or a dict cannot be looked up. -/
def requiresAction : Json → Except HttpFailure Bool
  | .list _ => .error (.python .typeError)
  | .dict _ => .error (.python .typeError)
  | .str code => .ok (actionRequiredRateLimitCodes.contains code)
  | _ => .ok false

/-- `_requires_user_action`. -/
def requiresUserAction (response : HttpResponse) : Except HttpFailure Bool :=
  match response.body with
  | .invalid => .ok false
  | .tooDeep => .error .recursionError
  | .json value => do
      let error ← (value.get "error" .null).mapError .python
      let error := if error.truthy then error else .dict []
      let code ← (error.get "code" .null).mapError .python
      requiresAction code

end HttpResponse

/-- `max(0.0, value)`, which is 0 for a value that is no number. -/
def JsonFloat.orZero : JsonFloat → HeaderDelay
  | .finite q => .finite (max 0 q)
  | .infinite true => .finite 0
  | .infinite false => .infinite
  | .nan => .finite 0

/-- `value - seconds`. -/
def JsonFloat.minus (value : JsonFloat) (seconds : Rat) : JsonFloat :=
  match value with
  | .finite q => .finite (q - seconds)
  | value => value

/-- `random.uniform(0, top)`. -/
def uniform (draw : Draw) (top : Rat) : Rat := top * draw.val

namespace HttpRuntime

variable (runtime : HttpRuntime) (policy : TimedRetryPolicy)

/-- `_is_rate_limited`. -/
def isRateLimited (response : HttpResponse) : Except HttpFailure Bool :=
  if (response.header "retry-after").isSome
      || response.header "x-ratelimit-remaining" == some "0" then .ok true
  else
    match response.text with
    | .error message => .error (.text message)
    | .ok text =>
        let body := runtime.casefold text
        .ok (isIn "secondary rate limit" body || isIn "rate limit exceeded" body)

/-- `_retry_reason`. -/
def retryReason (retryRateLimited403 : Bool) (response : HttpResponse) :
    Except HttpFailure (Option RetryReason) :=
  if transientStatusCodes.contains response.statusCode then
    if response.statusCode = 429 then
      match response.requiresUserAction with
      | .error failure => .error failure
      | .ok true => .ok none
      | .ok false => .ok (some .rateLimit)
    else .ok (some .server)
  else if response.statusCode = 403 ∧ retryRateLimited403 then
    match runtime.isRateLimited response with
    | .error failure => .error failure
    | .ok true => .ok (some .rateLimit)
    | .ok false => .ok none
  else .ok none

/-- What the header `retry-after` asks for. -/
def retryAfterHeader (now : Rat) (text : String) : Option HeaderDelay :=
  if text = "" then none
  else
    match runtime.float text with
    | some value => some value.orZero
    | none => (runtime.parsedate text).map fun time => .finite (max 0 (time - now))

/-- `_retry_after_delay`. -/
def retryAfterDelay (now : Rat) (response : HttpResponse) : Option HeaderDelay :=
  match (response.header "retry-after").bind (runtime.retryAfterHeader now) with
  | some delay => some delay
  | none =>
      if response.header "x-ratelimit-remaining" = some "0" then
        ((response.header "x-ratelimit-reset").bind runtime.float).map fun value =>
          (value.minus now).orZero
      else none

/-- `_backoff_delay`. -/
def backoffDelay (draw : Draw) (attempt : Nat) : Rat :=
  let delay := min (policy.baseDelaySeconds * 2 ^ (attempt - 1)) policy.maxDelaySeconds
  let delay :=
    if delay ≠ 0 ∧ policy.jitterRatio ≠ 0 then delay * (1 + uniform draw policy.jitterRatio)
    else delay
  min delay policy.maxDelaySeconds

/-- `_response_delay`. -/
def responseDelay (round : HttpRound) (response : HttpResponse) (attempt : Nat) : Option Rat :=
  match runtime.retryAfterDelay round.now response with
  | some .infinite => none
  | some (.finite delay) =>
      if policy.maxDelaySeconds < delay then none
      else
        let jitter := uniform round.draw (policy.baseDelaySeconds * policy.jitterRatio)
        some (min (delay + jitter) policy.maxDelaySeconds)
  | none =>
      if response.statusCode = 403 then if 60 ≤ policy.maxDelaySeconds then some 60 else none
      else some (backoffDelay policy round.draw attempt)

/-- What one round of the loop does: it ends, or it goes on after a delay. -/
def respond (method : String) (retryRateLimited403 : Bool) (attempt : Nat) (round : HttpRound) :
    HttpEnding ⊕ (RetryReason × Rat) :=
  match round.reply with
  | .error (.other message) => .inl (.raised (.request message))
  | .error (.transport message) =>
      if attempt = policy.maxAttempts ∨ idempotentMethods.contains method = false then
        .inl (.reraised message)
      else .inr (.transport, backoffDelay policy round.draw attempt)
  | .ok response =>
      match runtime.retryReason retryRateLimited403 response with
      | .error failure => .inl (.raised failure)
      | .ok none => .inl (.returned response)
      | .ok (some reason) =>
          if attempt = policy.maxAttempts then .inl (.returned response)
          else
            match runtime.responseDelay policy round response attempt with
            | none => .inl (.returned response)
            | some delay => .inr (reason, delay)

/-- The loop, with the number of rounds that are left. -/
def requestLoop (method : String) (retryRateLimited403 : Bool) (rounds : Nat → HttpRound) :
    Nat → Nat → List HttpEvent × HttpEnding
  | _, 0 => ([], .assertionError)
  | attempt, left + 1 =>
      match runtime.respond policy method retryRateLimited403 attempt (rounds attempt) with
      | .inl ending => ([.sent method], ending)
      | .inr (reason, delay) =>
          let (events, ending) :=
            requestLoop method retryRateLimited403 rounds (attempt + 1) left
          (.sent method :: .observed reason attempt delay :: .slept delay :: events, ending)

/-- `request_with_retry`, where the request with number `n` meets `rounds n`. -/
def requestWithRetry (method : String) (retryRateLimited403 : Bool) (rounds : Nat → HttpRound) :
    List HttpEvent × HttpEnding :=
  runtime.requestLoop policy (runtime.upper method) retryRateLimited403 rounds 1
    policy.maxAttempts

end HttpRuntime

end PipeLens
