import PipeLens.Proof.ModelTokens
import PipeLens.Proof.TrustLevel

/-!
# What is done for a run of a fork

Here the pipeline collects its context from GitHub's answers. If the head of a run is not
in the repository that the run belongs to, its analysis makes `Closed` calls only, however
much GitHub leaves out of its answers: leaving things out does not make a run trusted.
-/

namespace PipeLens

/-- The client whose `repository_context` reads these answers. -/
def GitHubClient.withAnswers (client : GitHubClient) (github : GitHubAnswers)
    (describe : ReadError → String) : GitHubClient :=
  { client with
    repositoryContext := fun repository runId headSha _ =>
      (Program.exec (github.repositoryContext repository runId headSha) []).1.mapError describe }

namespace Proof

open Program AnalysisPipeline

variable {github : GitHubAnswers} {forge : Forge github.casefold} {repo head : forge.Repo}

/-- What is collected is trusted only if the head is in the repository. -/
theorem collected_not_trusted (pipeline : AnalysisPipeline) (describe : ReadError → String)
    {request : AnalysisRequest}
    (hrepo : github.casefold request.repository = github.casefold (forge.fullName repo))
    (htrue : TrueAnswers github forge request.repository request.runId head) (hfork : head ≠ repo)
    (accessToken : String) :
    (AnalysisPipeline.collectedContext
      { pipeline with github := pipeline.github.withAnswers github describe }
      request accessToken).trustLevel ≠ .trusted := by
  have hright : Returns (github.repositoryContext request.repository request.runId request.headSha)
      fun context => Right repo head context.trustLevel := repositoryContext_right hrepo htrue
  unfold collectedContext GitHubClient.withAnswers
  dsimp only
  cases hexec : exec (github.repositoryContext request.repository request.runId
      request.headSha) [] with
  | mk result requests =>
      cases result with
      | error e => exact nofun
      | ok context =>
          intro htrusted
          exact hfork ((hright [] context requests hexec).trusted htrusted)

/-- **The analysis of a run whose head is in another repository** asks no provider, reads no
file, publishes no check, and stores and publishes no patch. -/
theorem forked_run_is_closed (github : GitHubAnswers) (forge : Forge github.casefold)
    (repo head : forge.Repo) (pipeline : AnalysisPipeline) (describe : ReadError → String)
    (request : AnalysisRequest) (attempt : Token) (s : AnalysisState)
    (hgithub : pipeline.github = pipeline.github.withAnswers github describe)
    (hrepo : github.casefold request.repository = github.casefold (forge.fullName repo))
    (htrue : TrueAnswers github forge request.repository request.runId head) (hfork : head ≠ repo) :
    ∃ new, (exec (pipeline.analyze request attempt) s).2.calls = s.calls ++ new
      ∧ ∀ call ∈ new, Closed pipeline call := by
  have huntrusted : ∀ collected, FromGitHub pipeline request collected →
      collected.repositoryContext.trustLevel ≠ .trusted := by
    intro collected hcollected
    rw [hcollected.2]
    have h := collected_not_trusted pipeline describe hrepo htrue hfork collected.accessToken
    rw [← hgithub] at h
    exact h
  have hstages := makes_analyzeStages attempt False huntrusted fun _ _ => False.elim
  have hcalls := makes_analyze ⟨trivial, False.elim⟩ (fun _ _ => ⟨trivial, False.elim⟩) hstages
  obtain ⟨new, hnew, hall⟩ := hcalls.calls s
  exact ⟨new, hnew, fun call hm => (hall call hm).1⟩

/-- The pipeline of `troubledPipeline`, with GitHub's answers about the fork. -/
def forkAnsweredPipeline : AnalysisPipeline :=
  { troubledPipeline with
    github := troubledPipeline.github.withAnswers widgetAnswers fun _ => "unreadable" }

theorem forked_run_is_closed_widget :
    ∃ new, (exec (forkAnsweredPipeline.analyze waitingRequest 4) waitingState).2.calls = new
      ∧ (∀ call ∈ new, Closed forkAnsweredPipeline call)
      ∧ ∃ call ∈ new, IsPublication call := by
  have hclosed := forked_run_is_closed widgetAnswers widgetForge WidgetRepo.upstream
    WidgetRepo.fork forkAnsweredPipeline (fun _ => "unreadable") waitingRequest 4 waitingState
    rfl (by decide) widgetAnswers_true nofun
  obtain ⟨new, hnew, hall⟩ := hclosed
  have hpublished : ((exec (forkAnsweredPipeline.analyze waitingRequest 4)
      waitingState).2.calls.any fun call => match call with
        | .upsertPullRequestComment _ _ _ _ _ => true
        | _ => false) = true := by
    decide +kernel
  refine ⟨_, rfl, ?_, ?_⟩
  · rw [hnew]
    exact hall
  · obtain ⟨call, hm, hcall⟩ := List.any_eq_true.mp hpublished
    refine ⟨call, hm, ?_⟩
    split at hcall
    · trivial
    · exact nomatch hcall

end Proof

end PipeLens
