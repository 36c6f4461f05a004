import PipeLens.Proof.StageHistory

/-!
# Untrusted input stays away from the language model

A run whose repository context is not trusted. The provider plays no part in it:
two runs with different providers, or with none, are the same run. What it may call
is `Closed`, so there is no call to the provider, no file is read, no check is
published, and no suggestion that is stored or rendered has a patch.

The two-run part needs only one fact about the stages before `DIAGNOSING`: the
context they hand on is the one that was collected. With it the body of
`DIAGNOSING` reduces to a text in which the provider does not occur.
-/

namespace PipeLens

namespace AnalysisPipeline

/-- The context `_repository_context` returns. -/
def collectedContext (pipeline : AnalysisPipeline) (request : AnalysisRequest)
    (accessToken : String) : RepositoryContext :=
  (pipeline.github.repositoryContext request.repository request.runId request.headSha
    accessToken).toOption.getD { trustLevel := .unverified }

/-- The same pipeline with another provider, or with none. -/
def withProvider (pipeline : AnalysisPipeline) (provider : Option LLMProvider) :
    AnalysisPipeline :=
  { pipeline with llmProvider := provider }

end AnalysisPipeline

namespace Proof

open Program AnalysisPipeline

/-- No suggestion has a patch. -/
def PatchFree (diagnosis : Diagnosis) : Prop :=
  ∀ suggestion ∈ diagnosis.suggestions, suggestion.patch = none

/-- The calls of a run that is not trusted. -/
def Closed (pipeline : AnalysisPipeline) : Call → Prop
  | .llmAnalyze _ => False
  | .fileContents _ _ _ _ => False
  | .upsertCheck _ _ _ _ _ _ _ => False
  | .update _ _ values _ => ∀ diagnosis, values.diagnosis = some diagnosis → PatchFree diagnosis
  | .render _ _ diagnosis _ _ _ _ _ => PatchFree diagnosis
  | .upsertPullRequestComment _ _ _ _ body =>
      -- what is published was rendered from a diagnosis without patches
      ∃ runId classification diagnosis relatedFiles detailsUrl trustLevel baselineSha headSha,
        PatchFree diagnosis ∧ pipeline.functions.renderGithubDiagnosis runId classification
          diagnosis relatedFiles detailsUrl trustLevel baselineSha headSha = .ok body
  | _ => True

def IsPublication : Call → Prop
  | .upsertPullRequestComment _ _ _ _ _ => True
  | .upsertCheck _ _ _ _ _ _ _ => True
  | _ => False

/-! ## Which calls are made -/

section Calls

variable {pipeline : AnalysisPipeline} {base : List Call} {C : Call → Prop} {α β : Type}

/-- The calls beyond `base` are all of the kind `C`. -/
def Logged (base : List Call) (C : Call → Prop) (s : AnalysisState) : Prop :=
  ∃ new, s.calls = base ++ new ∧ ∀ call ∈ new, C call

/-- Code that makes calls of the kind `C` only, and returns values with `Q`. -/
def Makes (C : Call → Prop) (p : AnalysisCode α) (Q : α → Prop) : Prop :=
  ∀ base, Triple (Logged base C) p (fun a s => Logged base C s ∧ Q a) fun _ => Logged base C

theorem Logged.refl (s : AnalysisState) : Logged s.calls C s :=
  ⟨[], (List.append_nil _).symm, fun _ h => nomatch h⟩

theorem Logged.snoc {s : AnalysisState} {call : Call} (hs : Logged base C s) (hc : C call) :
    ∀ store n, Logged base C { store := store, storeCalls := n, calls := s.calls ++ [call] } := by
  intro store n
  obtain ⟨new, hnew, hall⟩ := hs
  refine ⟨new ++ [call], by rw [hnew, List.append_assoc], ?_⟩
  intro call' hmem
  rcases List.mem_append.mp hmem with h | h
  · exact hall call' h
  · rw [List.mem_singleton.mp h]
    exact hc

namespace Makes

variable {p : AnalysisCode α} {f : α → AnalysisCode β} {Q : α → Prop} {R : β → Prop}

theorem pure {a : α} (hQ : Q a) : Makes C (Pure.pure a : AnalysisCode α) Q :=
  fun _ => Triple.pure fun _ hs => ⟨hs, hQ⟩

theorem throw {exc : AnalysisError} :
    Makes C (MonadExcept.throw exc : AnalysisCode α) Q :=
  fun _ => Triple.throw fun _ => id

theorem bind (hp : Makes C p Q) (hf : ∀ a, Q a → Makes C (f a) R) : Makes C (p >>= f) R := by
  intro base
  refine Triple.bind (hp base) fun a => ?_
  rintro s ⟨hs, ha⟩
  exact hf a ha base s hs

theorem tryCatch {handler : AnalysisError → AnalysisCode α} (hp : Makes C p Q)
    (hh : ∀ exc, Makes C (handler exc) Q) : Makes C (tryCatch p handler) Q :=
  fun base => Triple.tryCatch (hp base) fun exc => hh exc base

theorem returns (hp : Makes C p Q) :
    Triple (fun _ => True) p (fun a _ => Q a) fun _ _ => True := by
  intro s _
  have h := hp s.calls s (Logged.refl s)
  revert h
  rcases exec p s with ⟨exc | a, s'⟩
  · exact fun _ => trivial
  · exact And.right

theorem calls (hp : Makes C p Q) (s : AnalysisState) : Logged s.calls C (exec p s).2 := by
  have h := hp s.calls s (Logged.refl s)
  revert h
  rcases exec p s with ⟨exc | a, s'⟩
  · exact id
  · exact And.left

theorem mono {R : α → Prop} (hp : Makes C p Q) (hQ : ∀ a, Q a → R a) : Makes C p R :=
  fun base => (hp base).weaken (fun _ => id) (fun a _ h => ⟨h.1, hQ a h.2⟩) fun _ _ => id

theorem outcome (hp : Makes C p Q) :
    Makes C (Program.outcome p) fun r => ∀ a, r = .ok a → Q a := by
  intro base
  refine (Triple.outcome (hp base)).weaken (fun _ => id) ?_ (fun _ _ => id)
  rintro (exc | a) s hs
  · exact ⟨hs, fun _ h => nomatch h⟩
  · refine ⟨hs.1, ?_⟩
    rintro _ ⟨⟩
    exact hs.2

end Makes

theorem makes_yielding (raiser : Raiser) (r : Except String α) :
    Makes C (yielding raiser r) fun a => r = .ok a := by
  cases r with
  | ok value => exact Makes.pure rfl
  | error message => exact Makes.throw

theorem makes_calling {call : Call} (hc : C call) (raiser : Raiser) (answer : Except String α) :
    Makes C (calling raiser call answer) fun a => answer = .ok a := by
  refine Makes.bind (Q := fun _ => True) (fun base s hs => ?_) fun _ _ =>
    makes_yielding raiser answer
  exact ⟨hs.snoc hc _ _, trivial⟩

theorem makes_storing {call : Call} (hc : C call)
    {operation : Db → Instant → Except StoreError α × Db} :
    Makes C (pipeline.storing call operation) fun _ => True := by
  intro base s hs
  simp only [storing, exec_ofRun]
  generalize storeCall _ _ _ = r
  rcases r with ⟨value | message | message, db⟩
  · exact ⟨hs.snoc hc _ _, trivial⟩
  · exact hs.snoc hc _ _
  · exact hs.snoc hc _ _

/-- A call whose exception is caught and replaced by a default. -/
theorem makes_rescued {call : Call} (hc : C call) (raiser : Raiser) (answer : Except String α)
    (default : α) :
    Makes C (tryCatch (calling raiser call answer) fun _ => Pure.pure default) fun a =>
      a = answer.toOption.getD default := by
  intro base s hs
  rw [exec_tryCatch]
  cases answer with
  | ok value => exact ⟨hs.snoc hc _ _, rfl⟩
  | error message => exact ⟨hs.snoc hc _ _, rfl⟩

/-- Stages make no calls beyond those of their bodies but `record_stage`. -/
theorem makes_stage {runId : Int} {stage : AnalysisStage} {attempt : Token}
    (hc : ∀ status error, C (.recordStage runId stage status error attempt))
    {body : AnalysisCode α} {Q : α → Prop} (hbody : Makes C body Q) :
    Makes C (pipeline.stage runId stage attempt body) Q := by
  refine Makes.bind (makes_storing (hc _ _)) fun _ _ => ?_
  refine Makes.bind (Q := Q) ?_ fun value hvalue => ?_
  · exact Makes.tryCatch hbody fun exc =>
      Makes.bind (makes_storing (hc _ _)) fun _ _ => Makes.throw
  · exact Makes.bind (makes_storing (hc _ _)) fun _ _ => Makes.pure hvalue

end Calls

/-! ## The stages of an untrusted run -/

/-- The context that a run goes on with is the collected one. -/
def FromGitHub (pipeline : AnalysisPipeline) (request : AnalysisRequest)
    (collected : Collected) : Prop :=
  pipeline.github.installationToken request.installationId = .ok collected.accessToken
    ∧ collected.repositoryContext = pipeline.collectedContext request collected.accessToken

/-- Closed, and not a publication if the run is unverified. -/
def Allowed (pipeline : AnalysisPipeline) (unverified : Prop) (call : Call) : Prop :=
  Closed pipeline call ∧ (unverified → ¬ IsPublication call)

section Untrusted

variable {pipeline : AnalysisPipeline} {request : AnalysisRequest} {attempt : Token}
  {unverified : Prop}

theorem makes_gather (accessToken : String) :
    Makes (Allowed pipeline unverified) (pipeline.gather request accessToken) fun collected =>
      collected.accessToken = accessToken
        ∧ collected.repositoryContext = pipeline.collectedContext request accessToken := by
  refine Makes.bind (makes_calling ⟨trivial, fun _ => id⟩ _ _).outcome fun jobs _ => ?_
  refine Makes.bind (makes_calling ⟨trivial, fun _ => id⟩ _ _).outcome fun logs _ => ?_
  refine Makes.bind (makes_rescued ⟨trivial, fun _ => id⟩ _ _ _) fun context hcontext => ?_
  cases jobs with
  | ok jobs =>
      cases logs with
      | ok logs => exact Makes.pure ⟨rfl, hcontext⟩
      | error exc => exact Makes.throw
  | error exc =>
      cases logs with
      | ok logs => exact Makes.throw
      | error exc' => exact Makes.throw

theorem makes_collect :
    Makes (Allowed pipeline unverified) (pipeline.collect request attempt)
      (FromGitHub pipeline request) := by
  refine Makes.bind (makes_calling ⟨trivial, fun _ => id⟩ _ _) fun accessToken htoken => ?_
  refine Makes.bind (makes_gather accessToken) fun collected hcollected => ?_
  -- the first update stores no diagnosis
  refine Makes.bind (makes_storing ⟨fun _ h => (nomatch h), fun _ => id⟩) fun _ _ => ?_
  exact Makes.pure ⟨by rw [hcollected.1]; exact htoken, by rw [hcollected.1]; exact hcollected.2⟩

theorem makes_sanitize (collected : Collected) :
    Makes (Allowed pipeline unverified) (pipeline.sanitize collected) fun _ => True := by
  refine Makes.bind (makes_yielding _ _) fun _ _ => ?_
  refine Makes.bind (makes_yielding _ _) fun _ _ => ?_
  refine Makes.bind (makes_yielding _ _) fun _ _ => ?_
  exact Makes.bind (makes_yielding _ _) fun _ _ => Makes.pure trivial

theorem patchFree_stripPatches (relatedFiles : List RelatedFile) (diagnosis : Diagnosis) :
    PatchFree (relatedNote relatedFiles (stripPatches diagnosis)) := by
  have hstrip : PatchFree (stripPatches diagnosis) := by
    intro suggestion hmem
    obtain ⟨item, _, rfl⟩ := List.mem_map.mp hmem
    rfl
  unfold relatedNote
  split
  · exact hstrip
  · exact hstrip

/-- **The body of `DIAGNOSING`** of a run that is not trusted asks nobody. -/
theorem diagnose_untrusted (request : AnalysisRequest) {collected : Collected}
    (h : collected.repositoryContext.trustLevel ≠ .trusted) (sanitized : Sanitized)
    (classification : Classification) (relatedFiles : List RelatedFile) :
    pipeline.diagnose request collected sanitized classification relatedFiles
      = pure ⟨relatedNote relatedFiles (stripPatches (trustNote
          collected.repositoryContext.trustLevel (validateDiagnosis
            (buildRuleBasedDiagnosis classification) sanitized.context
            (some (repositoryFiles collected.repositoryContext))))), none, none⟩ := by
  unfold diagnose
  exact if_neg h

theorem makes_publish {collected : Collected} (classification : Classification)
    (relatedFiles : List RelatedFile) {diagnosis : Diagnosis} (hfree : PatchFree diagnosis)
    (huntrusted : collected.repositoryContext.trustLevel ≠ .trusted)
    (hunverified : unverified → collected.repositoryContext.trustLevel = .unverified) :
    Makes (Allowed pipeline unverified)
      (pipeline.publish request collected classification relatedFiles diagnosis)
      fun _ => True := by
  unfold publish
  dsimp only
  split
  · refine Makes.bind (makes_calling ⟨hfree, fun _ => id⟩ _ _) fun body hbody => ?_
    split
    · rename_i h
      exact absurd h huntrusted
    · rename_i h
      refine (makes_calling ⟨⟨_, _, _, _, _, _, _, _, hfree, hbody⟩, fun hu => ?_⟩ _ _).mono
        fun _ _ => trivial
      exact absurd ((hunverified hu).symm.trans h) (by decide)
    · rename_i h
      exact absurd h huntrusted
    · exact Makes.pure trivial
  · exact Makes.pure trivial

/-- **Every call of a run that is not trusted is allowed.** -/
theorem makes_analyzeStages (attempt : Token) (unverified : Prop)
    (huntrusted : ∀ collected, FromGitHub pipeline request collected →
      collected.repositoryContext.trustLevel ≠ .trusted)
    (hunverified : ∀ collected, FromGitHub pipeline request collected → unverified →
      collected.repositoryContext.trustLevel = .unverified) :
    Makes (Allowed pipeline unverified) (pipeline.analyzeStages request attempt)
      fun _ => True := by
  have hstage : ∀ runId stage status error, Allowed pipeline unverified
      (.recordStage runId stage status error attempt) := fun _ _ _ _ => ⟨trivial, fun _ => id⟩
  refine Makes.bind (makes_stage (hstage _ _) makes_collect) fun collected hcollected => ?_
  refine Makes.bind (makes_stage (hstage _ _) (makes_sanitize collected)) fun sanitized _ => ?_
  refine Makes.bind (makes_stage (hstage _ _) (makes_yielding _ _)) fun classification _ => ?_
  refine Makes.bind (makes_stage (hstage _ _) (makes_yielding _ _)) fun relatedFiles _ => ?_
  rw [diagnose_untrusted request (huntrusted collected hcollected)]
  refine Makes.bind (Q := fun diagnosed => PatchFree diagnosed.diagnosis)
    (makes_stage (hstage _ _) (Makes.pure (patchFree_stripPatches _ _))) fun diagnosed hfree => ?_
  refine Makes.bind (makes_storing ⟨fun diagnosis h => ?_, fun _ => id⟩) fun _ _ =>
    makes_stage (hstage _ _) (makes_publish classification relatedFiles hfree
      (huntrusted collected hcollected) (hunverified collected hcollected))
  rw [← Option.some.inj h]
  exact hfree

/-- **The provider plays no part.** -/
theorem analyzeStages_withProvider (attempt : Token)
    (huntrusted : ∀ collected, FromGitHub pipeline request collected →
      collected.repositoryContext.trustLevel ≠ .trusted) (provider : Option LLMProvider) :
    Alike (fun _ => True) ((pipeline.withProvider provider).analyzeStages request attempt)
      (pipeline.analyzeStages request attempt) := by
  -- up to `DIAGNOSING` the two texts are the same
  refine Alike.bind (Q := fun collected _ => collected.repositoryContext.trustLevel ≠ .trusted)
    (E := fun _ _ => True) ?_ fun collected s hs => ?_
  · have hcollect : Makes (Allowed pipeline False) (pipeline.stage request.runId .collecting
        attempt (pipeline.collect request attempt)) (FromGitHub pipeline request) :=
      makes_stage (fun _ _ => ⟨trivial, fun _ => id⟩) makes_collect
    exact (hcollect.mono huntrusted).returns
  · simp only [diagnose_untrusted request hs]
    rfl

end Untrusted

/-! ## The result -/

/-- `repository_context` raises, or it cannot tell where the run comes from. -/
def Unverified (pipeline : AnalysisPipeline) (request : AnalysisRequest) (accessToken : String) :
    Prop :=
  (∃ message, pipeline.github.repositoryContext request.repository request.runId request.headSha
      accessToken = .error message)
    ∨ ∃ context, pipeline.github.repositoryContext request.repository request.runId
        request.headSha accessToken = .ok context ∧ context.trustLevel = .unverified

theorem Unverified.trustLevel {pipeline : AnalysisPipeline} {request : AnalysisRequest}
    {accessToken : String} (h : Unverified pipeline request accessToken) :
    (pipeline.collectedContext request accessToken).trustLevel = .unverified := by
  unfold collectedContext
  rcases h with ⟨message, h⟩ | ⟨context, h, hlevel⟩
  · rw [h]
    rfl
  · rw [h]
    exact hlevel

/-- **Untrusted input never reaches the language model, the file reader or a published diff.** -/
theorem untrusted_noninterference (pipeline : AnalysisPipeline) (request : AnalysisRequest)
    (attempt : Token) (s : AnalysisState)
    (huntrusted : ∀ accessToken,
      pipeline.github.installationToken request.installationId = .ok accessToken →
      (pipeline.collectedContext request accessToken).trustLevel ≠ .trusted)
    (provider provider' : Option LLMProvider) :
    exec ((pipeline.withProvider provider).analyzeStages request attempt) s
        = exec ((pipeline.withProvider provider').analyzeStages request attempt) s
      ∧ ∃ new, (exec ((pipeline.withProvider provider).analyzeStages request attempt) s).2.calls
          = s.calls ++ new
        ∧ (∀ call ∈ new, Closed pipeline call)
        ∧ ((∀ accessToken,
            pipeline.github.installationToken request.installationId = .ok accessToken →
            Unverified pipeline request accessToken) → ∀ call ∈ new, ¬ IsPublication call) := by
  have hcollected : ∀ collected, FromGitHub pipeline request collected →
      collected.repositoryContext.trustLevel ≠ .trusted := by
    rintro collected ⟨htoken, hcontext⟩
    rw [hcontext]
    exact huntrusted _ htoken
  have hsame := fun provider =>
    analyzeStages_withProvider attempt hcollected provider s trivial
  refine ⟨(hsame provider).trans (hsame provider').symm, ?_⟩
  rw [hsame provider]
  have hmakes := makes_analyzeStages attempt (∀ accessToken,
    pipeline.github.installationToken request.installationId = .ok accessToken →
    Unverified pipeline request accessToken) hcollected (by
      rintro collected ⟨htoken, hcontext⟩ hunverified
      rw [hcontext]
      exact (hunverified _ htoken).trustLevel)
  obtain ⟨new, hnew, hall⟩ := hmakes.calls s
  exact ⟨new, hnew, fun call h => (hall call h).1, fun hu call h => (hall call h).2 hu⟩

/-- A pull request from a fork. -/
def forkPipeline : AnalysisPipeline :=
  { troubledPipeline with
    github := { troubledPipeline.github with
      repositoryContext := fun _ _ _ _ =>
        .ok { trustLevel := .untrustedFork, pullRequestNumber := some 3 } } }

/-- The attempt with token 4 has just begun. -/
def begunState : AnalysisState :=
  { waitingState with store := (waitingState.store.beginAnalysis 77 (some 4) 0).2 }

theorem untrusted_noninterference_fork :
    exec ((forkPipeline.withProvider none).analyzeStages waitingRequest 4) begunState
        = exec (forkPipeline.analyzeStages waitingRequest 4) begunState
      ∧ (exec ((forkPipeline.withProvider none).analyzeStages waitingRequest 4)
          begunState).2.calls.length = 20 := by
  refine ⟨?_, by decide +kernel⟩
  have hfork : TrustLevel.untrustedFork ≠ .trusted := by decide
  exact (untrusted_noninterference forkPipeline waitingRequest 4 begunState (fun _ _ => hfork)
    none forkPipeline.llmProvider).1

end Proof

end PipeLens
