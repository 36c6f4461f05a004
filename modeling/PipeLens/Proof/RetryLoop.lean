import PipeLens.HttpRetry

/-!
# The retry loop

A call of `request_with_retry` sends one request after the other, each but the first
after a delay within the limit of the policy, and it ends with the reply to the last one.
There are three ways out of this, each with an exception that the loop does not expect. The
body of a `429` response is looked into without looking at what it is, so that it may be
JSON, but not the object that is expected. The text of a `403` response may have no reading
in the charset that its headers name. And httpx may raise more than transport errors.

What one round can do is said once; the run is followed from there by induction on the
number of rounds that are left.
-/

namespace PipeLens.Proof

variable {runtime : HttpRuntime} {policy : TimedRetryPolicy} {method : String}
  {flag : Bool} {rounds : Nat → HttpRound}

/-! ## Delays -/

theorem uniform_nonneg (draw : Draw) {top : Rat} (h : 0 ≤ top) : 0 ≤ uniform draw top :=
  mul_nonneg h draw.property.1

/-- A delay that a policy allows. -/
def AllowedDelay (policy : TimedRetryPolicy) (delay : Rat) : Prop :=
  0 ≤ delay ∧ delay ≤ policy.maxDelaySeconds

theorem backoffDelay_allowed (draw : Draw) (attempt : Nat) :
    AllowedDelay policy (HttpRuntime.backoffDelay policy draw attempt) := by
  unfold HttpRuntime.backoffDelay
  dsimp only
  have hbase : 0 ≤ min (policy.baseDelaySeconds * 2 ^ (attempt - 1)) policy.maxDelaySeconds := by
    have hpower : (0 : Rat) ≤ 2 ^ (attempt - 1) := pow_nonneg (by decide) _
    exact le_min (mul_nonneg policy.base_nonneg hpower) policy.max_nonneg
  refine ⟨le_min ?_ policy.max_nonneg, min_le_right _ _⟩
  split
  · have hjitter := uniform_nonneg draw policy.jitter_nonneg
    exact mul_nonneg hbase (add_nonneg (by decide) hjitter)
  · exact hbase

theorem orZero_nonneg {value : JsonFloat} {seconds : Rat} (h : value.orZero = .finite seconds) :
    0 ≤ seconds := by
  unfold JsonFloat.orZero at h
  split at h
  · rw [← HeaderDelay.finite.inj h]
    exact le_max_left _ _
  · rw [← HeaderDelay.finite.inj h]
  · exact nomatch h
  · rw [← HeaderDelay.finite.inj h]

theorem retryAfterDelay_nonneg {now : Rat} {response : HttpResponse} {seconds : Rat}
    (h : runtime.retryAfterDelay now response = some (.finite seconds)) : 0 ≤ seconds := by
  unfold HttpRuntime.retryAfterDelay at h
  split at h
  · rename_i delay hdelay
    rw [Option.some.inj h] at hdelay
    obtain ⟨text, _, hheader⟩ := Option.bind_eq_some_iff.mp hdelay
    unfold HttpRuntime.retryAfterHeader at hheader
    split at hheader
    · exact nomatch hheader
    · split at hheader
      · exact orZero_nonneg (Option.some.inj hheader)
      · obtain ⟨time, _, htime⟩ := Option.map_eq_some_iff.mp hheader
        rw [← HeaderDelay.finite.inj htime]
        exact le_max_left _ _
  · split at h
    · obtain ⟨value, _, hvalue⟩ := Option.map_eq_some_iff.mp h
      exact orZero_nonneg hvalue
    · exact nomatch h

theorem responseDelay_allowed {round : HttpRound} {response : HttpResponse} {attempt : Nat}
    {delay : Rat} (h : runtime.responseDelay policy round response attempt = some delay) :
    AllowedDelay policy delay := by
  unfold HttpRuntime.responseDelay at h
  split at h
  · exact nomatch h
  · rename_i seconds hseconds
    split at h
    · exact nomatch h
    · rw [← Option.some.inj h]
      have hjitter := uniform_nonneg round.draw (mul_nonneg policy.base_nonneg policy.jitter_nonneg)
      exact ⟨le_min (add_nonneg (retryAfterDelay_nonneg hseconds) hjitter) policy.max_nonneg,
        min_le_right _ _⟩
  · split at h
    · split at h
      · rename_i hmax
        rw [← Option.some.inj h]
        exact ⟨by decide, hmax⟩
      · exact nomatch h
    · rw [← Option.some.inj h]
      exact backoffDelay_allowed round.draw attempt

/-! ## Bodies -/

/-- A value that can be looked up in a set. -/
def CanLookUp : Json → Prop
  | .list _ => False
  | .dict _ => False
  | _ => True

/-- An `error` that counts as false, or is an object whose `code` can be looked up. -/
def ReadableField : Json → Prop
  | .dict error => CanLookUp ((error.lookup "code").getD .null)
  | error => error.truthy = false

/-- An object with such an `error`. -/
def ReadableError : Json → Prop
  | .dict fields => ReadableField ((fields.lookup "error").getD .null)
  | _ => False

/-- A body that `_requires_user_action` can read, or finds to be no JSON. -/
def ReadableBody : ResponseBody → Prop
  | .json value => ReadableError value
  | .invalid => True
  | .tooDeep => False

theorem requiresAction_ok_iff {code : Json} :
    (∃ b, HttpResponse.requiresAction code = .ok b) ↔ CanLookUp code := by
  cases code <;> simp [HttpResponse.requiresAction, CanLookUp]

/-- Reading a field of an object. -/
theorem get_bind_dict {fields : List (String × Json)} {key : String}
    {f : Json → Except HttpFailure Bool} :
    (((Json.dict fields).get key .null).mapError HttpFailure.python >>= f)
      = f ((fields.lookup key).getD .null) := rfl

/-- Anything but an object has no `get`. -/
theorem get_bind_other {value : Json} (h : ∀ fields, value ≠ .dict fields) {key : String}
    {f : Json → Except HttpFailure Bool} :
    ((value.get key .null).mapError HttpFailure.python >>= f)
      = .error (.python .attributeError) := by
  cases value with
  | dict fields => exact absurd rfl (h fields)
  | null => rfl
  | bool b => rfl
  | int n => rfl
  | float x => rfl
  | str s => rfl
  | list items => rfl

theorem readableError_other {value : Json} (h : ∀ fields, value ≠ .dict fields) :
    ¬ ReadableError value := by
  cases value with
  | dict fields => exact absurd rfl (h fields)
  | _ => exact id

theorem readableField_other {error : Json} (h : ∀ fields, error ≠ .dict fields) :
    ReadableField error ↔ error.truthy = false := by
  cases error with
  | dict fields => exact absurd rfl (h fields)
  | _ => exact Iff.rfl

/-- **Which bodies can be read.** -/
theorem requiresUserAction_ok_iff {response : HttpResponse} :
    (∃ b, response.requiresUserAction = .ok b) ↔ ReadableBody response.body := by
  unfold HttpResponse.requiresUserAction
  cases response.body with
  | invalid => exact iff_of_true ⟨false, rfl⟩ trivial
  | tooDeep => exact iff_of_false nofun id
  | json value =>
      show _ ↔ ReadableError value
      by_cases hdict : ∃ fields, value = .dict fields
      · obtain ⟨fields, rfl⟩ := hdict
        dsimp only
        rw [get_bind_dict]
        show _ ↔ ReadableField ((fields.lookup "error").getD .null)
        generalize (fields.lookup "error").getD .null = error
        by_cases herror : ∃ fields, error = .dict fields
        · obtain ⟨fields, rfl⟩ := herror
          -- an empty object is falsy, and `or {}` puts another one in its place
          have hsame : (if (Json.dict fields).truthy = true then Json.dict fields else .dict [])
              = .dict fields := by
            cases fields with
            | nil => rfl
            | cons field fields => rfl
          rw [hsame, get_bind_dict]
          exact requiresAction_ok_iff
        · have hother : ∀ fields, error ≠ .dict fields := fun fields heq => herror ⟨fields, heq⟩
          rw [readableField_other hother]
          cases htruthy : error.truthy with
          | false => exact iff_of_true ⟨false, rfl⟩ rfl
          | true =>
              rw [if_pos rfl, get_bind_other hother]
              exact iff_of_false nofun nofun
      · have hother : ∀ fields, value ≠ .dict fields := fun fields heq => hdict ⟨fields, heq⟩
        dsimp only
        rw [get_bind_other hother]
        exact iff_of_false nofun (readableError_other hother)

/-! ## One round -/

/-- A text that `_is_rate_limited` looks into, and that raises. -/
def UnreadableText (response : HttpResponse) : Prop :=
  response.header "retry-after" = none ∧ response.header "x-ratelimit-remaining" ≠ some "0"
    ∧ ∃ message, response.text = .error message

/-- A `429` response with a body, or, where these are looked into, a `403` response with a
text that cannot be read. -/
def UnreadableResponse (flag : Bool) (response : HttpResponse) : Prop :=
  (response.statusCode = 429 ∧ ¬ ReadableBody response.body)
    ∨ (response.statusCode = 403 ∧ flag = true ∧ UnreadableText response)

/-- A response that cannot be read, or an exception that is no transport error. -/
def Unreadable (flag : Bool) (round : HttpRound) : Prop :=
  (∃ message, round.reply = .error (.other message))
    ∨ ∃ response, round.reply = .ok response ∧ UnreadableResponse flag response

/-- The call ends with the reply at hand. -/
def EndsWith (round : HttpRound) : HttpEnding → Prop
  | .returned response => round.reply = .ok response
  | .reraised message => round.reply = .error (.transport message)
  | .raised _ => False
  | .assertionError => False

theorem isRateLimited_error_iff {response : HttpResponse} :
    (∃ failure, runtime.isRateLimited response = .error failure) ↔ UnreadableText response := by
  unfold HttpRuntime.isRateLimited UnreadableText
  cases hretry : response.header "retry-after" with
  | some value => exact iff_of_false nofun nofun
  | none =>
      by_cases hremaining : response.header "x-ratelimit-remaining" = some "0"
      · rw [if_pos (by rw [hremaining]; rfl)]
        exact iff_of_false nofun fun h => h.2.1 hremaining
      · have hno : ¬ (Option.isSome (none : Option String)
            || response.header "x-ratelimit-remaining" == some "0") = true := by
          simpa using hremaining
        rw [if_neg hno]
        cases response.text with
        | error message => exact iff_of_true ⟨_, rfl⟩ ⟨rfl, hremaining, message, rfl⟩
        | ok text => exact iff_of_false nofun nofun

theorem retryReason_error_iff {response : HttpResponse} :
    (∃ failure, runtime.retryReason flag response = .error failure)
      ↔ UnreadableResponse flag response := by
  unfold UnreadableResponse
  rw [← requiresUserAction_ok_iff, ← @isRateLimited_error_iff runtime]
  unfold HttpRuntime.retryReason
  -- of a 429 the body is read, of a 403 the text if the caller says so, and of others nothing
  by_cases hstatus : response.statusCode = 429
  · have htransient : transientStatusCodes.contains response.statusCode = true := by
      rw [hstatus]
      rfl
    have hother : response.statusCode ≠ 403 := by omega
    rw [if_pos htransient, if_pos hstatus, and_iff_right hstatus]
    simp only [hother, false_and, or_false]
    cases response.requiresUserAction with
    | error failure => exact iff_of_true ⟨failure, rfl⟩ nofun
    | ok b =>
        refine iff_of_false ?_ fun h => h ⟨b, rfl⟩
        cases b with
        | true => exact nofun
        | false => exact nofun
  · simp only [hstatus, false_and, false_or, if_false]
    by_cases hforbidden : response.statusCode = 403 ∧ flag = true
    · have hlasting : ¬ transientStatusCodes.contains response.statusCode = true := by
        rw [hforbidden.1]
        decide
      rw [if_neg hlasting, if_pos hforbidden, and_iff_right hforbidden.1,
        and_iff_right hforbidden.2]
      cases runtime.isRateLimited response with
      | error failure => exact iff_of_true ⟨failure, rfl⟩ ⟨failure, rfl⟩
      | ok b =>
          refine iff_of_false ?_ nofun
          cases b with
          | true => exact nofun
          | false => exact nofun
    · refine iff_of_false ?_ fun h => hforbidden ⟨h.1, h.2.1⟩
      split
      · exact nofun
      · exact nofun

/-- **What one round does.** -/
theorem respond_cases (attempt : Nat) (round : HttpRound) :
    (∃ ending, runtime.respond policy method flag attempt round = .inl ending
        ∧ ending ≠ .assertionError ∧ (EndsWith round ending ↔ ¬ Unreadable flag round))
      ∨ ∃ reason delay, runtime.respond policy method flag attempt round = .inr (reason, delay)
        ∧ AllowedDelay policy delay ∧ attempt ≠ policy.maxAttempts ∧ ¬ Unreadable flag round
        ∧ ∀ message, round.reply = .error (.transport message) →
          idempotentMethods.contains method = true := by
  unfold HttpRuntime.respond
  cases hreply : round.reply with
  | error error =>
      cases error with
      | other message =>
          refine Or.inl ⟨_, rfl, nofun, iff_of_false id ?_⟩
          intro h
          exact h (Or.inl ⟨message, hreply⟩)
      | transport message =>
          -- a transport error is not looked into
          have hreadable : ¬ Unreadable flag round := by
            intro h
            rcases h with ⟨other, hother⟩ | ⟨response, hresponse, _⟩
            · rw [hreply] at hother
              exact nomatch hother
            · rw [hreply] at hresponse
              exact nomatch hresponse
          dsimp only
          split
          · exact Or.inl ⟨_, rfl, nofun, iff_of_true hreply hreadable⟩
          · rename_i hagain
            obtain ⟨hattempt, hmethod⟩ := not_or.mp hagain
            exact Or.inr ⟨_, _, rfl, backoffDelay_allowed round.draw attempt, hattempt,
              hreadable, fun _ _ => Bool.not_eq_false _ |>.mp hmethod⟩
  | ok response =>
      have hread : Unreadable flag round
          ↔ ∃ failure, runtime.retryReason flag response = .error failure := by
        rw [retryReason_error_iff]
        constructor
        · intro h
          rcases h with ⟨message, hmessage⟩ | ⟨other, hother, hbad⟩
          · rw [hreply] at hmessage
            exact nomatch hmessage
          · rw [hreply] at hother
            rw [Except.ok.inj hother]
            exact hbad
        · intro h
          exact Or.inr ⟨response, hreply, h⟩
      dsimp only
      cases hreason : runtime.retryReason flag response with
      | error failure =>
          refine Or.inl ⟨_, rfl, nofun, iff_of_false id ?_⟩
          intro h
          exact h (hread.mpr ⟨failure, hreason⟩)
      | ok reason =>
          have hreadable : ¬ Unreadable flag round := by
            rw [hread, hreason]
            exact nofun
          cases reason with
          | none => exact Or.inl ⟨_, rfl, nofun, iff_of_true hreply hreadable⟩
          | some reason =>
              dsimp only
              split
              · exact Or.inl ⟨_, rfl, nofun, iff_of_true hreply hreadable⟩
              · rename_i hattempt
                cases hdelay : runtime.responseDelay policy round response attempt with
                | none => exact Or.inl ⟨_, rfl, nofun, iff_of_true hreply hreadable⟩
                | some delay =>
                    exact Or.inr ⟨_, _, rfl, responseDelay_allowed hdelay, hattempt, hreadable,
                      nofun⟩

/-! ## The run -/

/-- Requests, with one delay between two of them. -/
inductive PacedRequests (policy : TimedRetryPolicy) (method : String) : List HttpEvent → Prop where
  | last : PacedRequests policy method [.sent method]
  | again {reason : RetryReason} {attempt : Nat} {delay : Rat} {events : List HttpEvent}
      (hdelay : AllowedDelay policy delay) (hrest : PacedRequests policy method events) :
      PacedRequests policy method
        (.sent method :: .observed reason attempt delay :: .slept delay :: events)

def isSent : HttpEvent → Bool
  | .sent _ => true
  | _ => false

/-- The number of requests. -/
def requestCount (events : List HttpEvent) : Nat := events.countP isSent

/-- What is left of a run, from the request with number `attempt` on to the one with number
`last`. -/
structure RunFrom (runtime : HttpRuntime) (policy : TimedRetryPolicy) (method : String)
    (flag : Bool) (rounds : Nat → HttpRound) (attempt : Nat)
    (result : List HttpEvent × HttpEnding) (last : Nat) : Prop where
  counts : attempt + requestCount result.1 = last + 1
  begun : attempt ≤ last
  bounded : last ≤ policy.maxAttempts
  paced : PacedRequests policy method result.1
  ends : runtime.respond policy method flag last (rounds last) = .inl result.2
  goesOn : ∀ n, attempt ≤ n → n < last →
    ∃ retry, runtime.respond policy method flag n (rounds n) = .inr retry

theorem requestLoop_run {attempt left : Nat} (hleft : attempt + left = policy.maxAttempts + 1)
    (hpos : 0 < left) :
    ∃ last, RunFrom runtime policy method flag rounds attempt
      (runtime.requestLoop policy method flag rounds attempt left) last := by
  induction left generalizing attempt with
  | zero => exact absurd hpos (Nat.lt_irrefl 0)
  | succ left ih =>
      rcases @respond_cases runtime policy method flag attempt (rounds attempt) with
        ⟨ending, hend, _⟩ | ⟨reason, delay, hagain, hdelay, hattempt, _⟩
      · have hresult : runtime.requestLoop policy method flag rounds attempt (left + 1)
            = ([.sent method], ending) := by
          rw [HttpRuntime.requestLoop, hend]
        rw [hresult]
        refine ⟨attempt, rfl, Nat.le_refl _, by omega, .last, hend, ?_⟩
        intro n hfrom hto
        omega
      · -- sent again: what is left of the run begins with the next request
        obtain ⟨last, hrun⟩ := ih (by omega : attempt + 1 + left = _) (by omega)
        have hresult : runtime.requestLoop policy method flag rounds attempt (left + 1)
            = (.sent method :: .observed reason attempt delay :: .slept delay
                :: (runtime.requestLoop policy method flag rounds (attempt + 1) left).1,
              (runtime.requestLoop policy method flag rounds (attempt + 1) left).2) := by
          rw [HttpRuntime.requestLoop, hagain]
        rw [hresult]
        have hcounts := hrun.counts
        have hbegun := hrun.begun
        refine ⟨last, ?_, by omega, hrun.bounded, .again hdelay hrun.paced, hrun.ends, ?_⟩
        · unfold requestCount at hcounts ⊢
          simp only [List.countP_cons, isSent, if_true, Bool.false_eq_true, if_false]
          omega
        · intro n hfrom hto
          by_cases hn : n = attempt
          · rw [hn]
            exact ⟨_, hagain⟩
          · exact hrun.goesOn n (by omega) hto

/-- A request that the run comes to. -/
def Reached (runtime : HttpRuntime) (policy : TimedRetryPolicy) (method : String) (flag : Bool)
    (rounds : Nat → HttpRound) (n : Nat) : Prop :=
  1 ≤ n ∧ ∀ m, 1 ≤ m → m < n →
    ∃ retry, runtime.respond policy method flag m (rounds m) = .inr retry

theorem RunFrom.reached_iff {result : List HttpEvent × HttpEnding} {last n : Nat}
    (hrun : RunFrom runtime policy method flag rounds 1 result last) :
    Reached runtime policy method flag rounds n ↔ 1 ≤ n ∧ n ≤ last := by
  constructor
  · intro h
    obtain ⟨hpos, hagain⟩ := h
    refine ⟨hpos, ?_⟩
    by_contra hpast
    -- the last request was not sent again
    obtain ⟨retry, hretry⟩ := hagain last hrun.begun (by omega)
    rw [hrun.ends] at hretry
    exact nomatch hretry
  · intro h
    refine ⟨h.1, ?_⟩
    intro m hpos hm
    exact hrun.goesOn m hpos (by omega)

/-- What is promised of every call. -/
structure BoundedCall (policy : TimedRetryPolicy) (method : String) (rounds : Nat → HttpRound)
    (result : List HttpEvent × HttpEnding) : Prop where
  sends : 1 ≤ requestCount result.1 ∧ requestCount result.1 ≤ policy.maxAttempts
  paced : PacedRequests policy method result.1
  idempotent : ∀ n, 1 ≤ n → n < requestCount result.1 →
    (∃ message, (rounds n).reply = .error (.transport message)) →
      idempotentMethods.contains method = true
  noAssertion : result.2 ≠ .assertionError

/-- **A call is bounded**, with delays within the limit, and sends again only what may be sent
again. It ends with the reply to its last request exactly if it meets no response that cannot
be read, and no exception that is no transport error. -/
theorem request_with_retry_bounded (runtime : HttpRuntime) (policy : TimedRetryPolicy)
    (method : String) (flag : Bool) (rounds : Nat → HttpRound) :
    let result := runtime.requestWithRetry policy method flag rounds
    BoundedCall policy (runtime.upper method) rounds result
      ∧ (EndsWith (rounds (requestCount result.1)) result.2
        ↔ ∀ n, Reached runtime policy (runtime.upper method) flag rounds n →
            ¬ Unreadable flag (rounds n)) := by
  intro result
  have hpolicy := policy.positive
  obtain ⟨last, hrun⟩ := @requestLoop_run runtime policy (runtime.upper method) flag rounds 1
    policy.maxAttempts (by omega) (by omega)
  have hcounts : requestCount result.1 = last := by
    have hall : 1 + requestCount result.1 = last + 1 := hrun.counts
    omega
  rcases @respond_cases runtime policy (runtime.upper method) flag last (rounds last) with
    ⟨ending, hend, hassert, hends⟩ | ⟨reason, delay, hagain, _⟩
  · have hsame : ending = result.2 := by
      have hinl := hend.symm.trans hrun.ends
      exact Sum.inl.inj hinl
    rw [hsame] at hassert hends
    rw [hcounts]
    refine ⟨⟨?_, hrun.paced, ?_, hassert⟩, ?_⟩
    · rw [hcounts]
      exact ⟨hrun.begun, hrun.bounded⟩
    · rw [hcounts]
      intro n hpos hn herror
      obtain ⟨message, hmessage⟩ := herror
      obtain ⟨retry, hretry⟩ := hrun.goesOn n hpos hn
      rcases @respond_cases runtime policy (runtime.upper method) flag n (rounds n) with
        ⟨_, hinl, _⟩ | ⟨_, _, _, _, _, _, hidempotent⟩
      · rw [hretry] at hinl
        exact nomatch hinl
      · exact hidempotent message hmessage
    · rw [hends]
      constructor
      · intro hlast n hreached
        obtain ⟨hpos, hn⟩ := hrun.reached_iff.mp hreached
        rcases Nat.lt_or_eq_of_le hn with hlt | heq
        · -- a round that is followed by another one is readable
          obtain ⟨retry, hretry⟩ := hrun.goesOn n hpos hlt
          rcases @respond_cases runtime policy (runtime.upper method) flag n (rounds n) with
            ⟨_, hinl, _⟩ | ⟨_, _, _, _, _, hreadable, _⟩
          · rw [hretry] at hinl
            exact nomatch hinl
          · exact hreadable
        · rw [heq]
          exact hlast
      · intro hall
        exact hall last (hrun.reached_iff.mpr ⟨hrun.begun, Nat.le_refl _⟩)
  · have hinr := hagain.symm.trans hrun.ends
    exact nomatch hinr

/-! ## A list for a body -/

/-- Python, for texts that are ASCII, and without dates. -/
def asciiRuntime : HttpRuntime where
  upper text := String.ofList (text.toList.map Char.toUpper)
  casefold text := String.ofList (text.toList.map Char.toLower)
  float _ := none
  parsedate _ := none

/-- A server that answers `429` with the body `[]`. -/
def refusing : HttpRound where
  reply := .ok { statusCode := 429, headers := [], text := .ok "[]", body := .json (.list []) }
  now := 0
  draw := ⟨0, by decide⟩

/-- The call raises an `AttributeError`, although the policy allows three attempts. -/
theorem list_body_raises :
    (asciiRuntime.requestWithRetry {} "get" false fun _ => refusing)
        = ([.sent "GET"], .raised (.python .attributeError))
      ∧ ¬ EndsWith refusing (asciiRuntime.requestWithRetry {} "get" false fun _ => refusing).2 := by
  have hresult : (asciiRuntime.requestWithRetry {} "get" false fun _ => refusing)
      = ([.sent "GET"], .raised (.python .attributeError)) := by
    have hupper : asciiRuntime.upper "get" = "GET" := by decide
    unfold HttpRuntime.requestWithRetry
    rw [hupper]
    rfl
  rw [hresult]
  exact ⟨rfl, id⟩

end PipeLens.Proof
