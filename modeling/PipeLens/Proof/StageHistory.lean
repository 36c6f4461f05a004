import PipeLens.Analysis
import PipeLens.Proof.StoreOps

/-!
# The stage history mirrors the run

A call of `analyze` on a run that no other attempt works on. GitHub and the
language model answer as they like; the stage events that the call appends tell
how far it came, and the row of the run agrees with them.

The state of a call between two stages is `Standing`: its token is current and it
has appended a known history. Bodies of stages keep it, since none of them records
a stage. So `_stage` extends the history by a pair, whichever way the body ends,
and the run lemma goes through the six stages in order.

`Stops` lists the exceptions that may leave a body. Those of the language model, of
the validation of its answer, of `repository_context` and of the fetch of patch
targets are not among them: each is caught where it is raised.
-/

namespace PipeLens.Proof

open Program AnalysisPipeline

/-- The stage events of a run, in the order in which they were recorded. -/
def eventsOf (db : Db) (runId : Int) : List StageEvent :=
  db.stageEvents.filter fun event => event.runId == runId

/-- What a history tells of an event. -/
def kind (event : StageEvent) : AnalysisStage × StageStatus := (event.stage, event.status)

/-- The stages, in order. -/
def stages : List AnalysisStage :=
  [.collecting, .sanitizing, .classifying, .correlating, .diagnosing, .publishing]

/-- The history of stages that were completed. -/
def pairs (completed : List AnalysisStage) : List (AnalysisStage × StageStatus) :=
  completed.flatMap fun stage => [(stage, .started), (stage, .completed)]

/-- The history of a stage that failed. -/
def failedPair (stage : AnalysisStage) : List (AnalysisStage × StageStatus) :=
  [(stage, .started), (stage, .failed)]

/-- No other attempt at the run, and a store that answers. -/
structure Undisturbed (pipeline : AnalysisPipeline) (runId : Int) : Prop where
  answered : ∀ n, (pipeline.turn n).fate = .answered
  /-- Others record no stages of the run. -/
  events : ∀ n db, eventsOf ((pipeline.turn n).others db) runId = eventsOf db runId
  /-- They leave its status and its token alone; other columns may change. -/
  row : ∀ n db row, db.row? runId = some row →
    ∃ row', ((pipeline.turn n).others db).row? runId = some row'
      ∧ row'.status = row.status ∧ row'.attemptToken = row.attemptToken

/-- One of the functions of other modules raises with this text. -/
inductive FunctionRaises (functions : Functions) (message : String) : Prop where
  | sanitizeLog {text : String} (h : functions.sanitizeLog text = .error message)
  | preprocessLogs {logs : List String} {chunkChars contextLines maxErrorChunks : Int}
      (h : functions.preprocessLogs logs chunkChars contextLines maxErrorChunks = .error message)
  | classifyLog {log : String} {relatedStep : Option String}
      (h : functions.classifyLog log relatedStep = .error message)
  | correlateChangedFiles {log : String} {files : List ChangedFile} {category : ErrorCategory}
      (h : functions.correlateChangedFiles log files category = .error message)
  | findVersionBumps {log : String} (h : functions.findVersionBumps log = .error message)
  | manifestPathsInLog {log : String} (h : functions.manifestPathsInLog log = .error message)
  | proposeAndVerifyPatches {diagnosis : Diagnosis} {bumps : List VersionBump}
      {files : List (String × String)}
      (h : functions.proposeAndVerifyPatches diagnosis bumps files = .error message)
  | renderGithubDiagnosis {runId : Int} {classification : Classification} {diagnosis : Diagnosis}
      {relatedFiles : List RelatedFile} {detailsUrl : String} {trustLevel : TrustLevel}
      {baselineSha : Option String} {headSha : String}
      (h : functions.renderGithubDiagnosis runId classification diagnosis relatedFiles detailsUrl
        trustLevel baselineSha headSha = .error message)

/-- An exception that ends an analysis, with the component that raised it. -/
inductive Stops (pipeline : AnalysisPipeline) : AnalysisError → Prop where
  | installationToken {installationId : Int} {message : String}
      (h : pipeline.github.installationToken installationId = .error message) :
      Stops pipeline (.raised .installationToken message)
  | failedJobs {repository token : String} {runId : Int} {message : String}
      (h : pipeline.github.failedJobs repository runId token = .error message) :
      Stops pipeline (.raised .failedJobs message)
  | downloadLogs {repository token : String} {runId : Int} {message : String}
      (h : pipeline.github.downloadLogs repository runId token = .error message) :
      Stops pipeline (.raised .downloadLogs message)
  | upsertPullRequestComment {repository token body : String} {number runId : Int}
      {message : String}
      (h : pipeline.github.upsertPullRequestComment repository number runId token body
        = .error message) :
      Stops pipeline (.raised .upsertPullRequestComment message)
  | upsertCheck {repository headSha token summary body detailsUrl : String} {runId : Int}
      {message : String}
      (h : pipeline.github.upsertCheck repository headSha runId token summary body detailsUrl
        = .error message) :
      Stops pipeline (.raised .upsertCheck message)
  | function {message : String} (h : FunctionRaises pipeline.functions message) :
      Stops pipeline (.raised .function message)

theorem Stops.exists_raised {pipeline : AnalysisPipeline} {exc : AnalysisError}
    (h : Stops pipeline exc) : ∃ raiser message, exc = .raised raiser message := by
  cases h <;> exact ⟨_, _, rfl⟩

section Call

variable {pipeline : AnalysisPipeline} {runId : Int} {attempt : Token} {before : List StageEvent}
  {h : List (AnalysisStage × StageStatus)} {α β : Type}

/-- The attempt is current and has appended the history `h`. -/
structure Standing (runId : Int) (attempt : Token) (before : List StageEvent)
    (h : List (AnalysisStage × StageStatus)) (s : AnalysisState) : Prop where
  current : Current s.store runId attempt
  history : ∃ new, eventsOf s.store runId = before ++ new ∧ new.map kind = h

/-! ## Store calls -/

theorem eventsOf_record {db db' : Db} {stage : AnalysisStage} {status : StageStatus}
    {error : Option String} {now : Instant}
    (h : db'.stageEvents = db.stageEvents ++ [db.newEvent runId stage status error now]) :
    eventsOf db' runId = eventsOf db runId ++ [db.newEvent runId stage status error now] := by
  unfold eventsOf
  rw [h, List.filter_append]
  simp [Db.newEvent]

theorem Undisturbed.current (hq : Undisturbed pipeline runId) (n : Nat) {db : Db}
    (hc : Current db runId attempt) : Current ((pipeline.turn n).others db) runId attempt := by
  obtain ⟨row, hr, ht⟩ := hc
  obtain ⟨row', hr', _, ht'⟩ := hq.row n db row hr
  exact ⟨row', hr', ht'.trans ht⟩

/-- What others do in between does not show. -/
theorem Undisturbed.standing (hq : Undisturbed pipeline runId) (n : Nat) {s : AnalysisState}
    (hs : Standing runId attempt before h s) :
    Standing runId attempt before h { s with store := (pipeline.turn n).others s.store } where
  current := hq.current n hs.current
  history := by
    obtain ⟨new, hnew, hkind⟩ := hs.history
    exact ⟨new, (hq.events n s.store).trans hnew, hkind⟩

/-- A store call whose operation goes through. -/
theorem storing_spec (hq : Undisturbed pipeline runId) {call : Call}
    {operation : Db → Instant → Except StoreError α × Db} {Q : AnalysisState → Prop}
    {E : AnalysisError → AnalysisState → Prop}
    (hop : ∀ s now, Standing runId attempt before h s → ∃ value db',
      operation s.store now = (.ok value, db')
        ∧ ∀ n calls, Q { store := db', storeCalls := n, calls := calls }) :
    Triple (Standing runId attempt before h) (pipeline.storing call operation)
      (fun _ => Q) E := by
  intro s hs
  have hs' := hq.standing s.storeCalls hs
  obtain ⟨value, db', hrun, hQ⟩ := hop _ (pipeline.turn s.storeCalls).now hs'
  have hfate := hq.answered s.storeCalls
  simp only [storing, exec_ofRun, hfate, storeCall]
  dsimp only at hrun
  rw [hrun]
  exact hQ _ _

theorem recordStage_spec (hq : Undisturbed pipeline runId) (stage : AnalysisStage)
    (status : StageStatus) (error : Option String) {E : AnalysisError → AnalysisState → Prop} :
    Triple (Standing runId attempt before h)
      (pipeline.recordStage runId stage status error attempt)
      (fun _ => Standing runId attempt before (h ++ [(stage, status)])) E := by
  refine storing_spec hq fun s now hs => ?_
  rcases recordStage_fenced s.store runId stage status error attempt now with
    ⟨⟨row, hr, ht⟩, db', hrun, hrows, hevents⟩ | ⟨hnot, _⟩
  · refine ⟨(), db', hrun, fun n calls => ⟨⟨row, (hrows runId).trans hr, ht⟩, ?_⟩⟩
    obtain ⟨new, hnew, hkind⟩ := hs.history
    refine ⟨new ++ [s.store.newEvent runId stage status error now], ?_, ?_⟩
    · rw [eventsOf_record hevents, hnew, List.append_assoc]
    · rw [List.map_append, hkind]
      rfl
  · exact absurd hs.current hnot

theorem update_spec (hq : Undisturbed pipeline runId) (values : UpdateValues)
    {E : AnalysisError → AnalysisState → Prop} :
    Triple (Standing runId attempt before h)
      (pipeline.update runId .running values attempt)
      (fun _ => Standing runId attempt before h) E := by
  refine storing_spec hq fun s now hs => ?_
  rcases update_fenced s.store runId .running values attempt now with
    ⟨row, db', hr, ht, hrun, hwrote, hevents⟩ | ⟨hnot, _⟩
  · refine ⟨(), db', hrun, fun n calls => ⟨⟨_, hwrote.self, ht⟩, ?_⟩⟩
    obtain ⟨new, hnew, hkind⟩ := hs.history
    refine ⟨new, ?_, hkind⟩
    unfold eventsOf at hnew ⊢
    rw [hevents, hnew]
  · exact absurd hs.current hnot

/-! ## Bodies of stages -/

/-- Code that records no stage, and whose exceptions end the analysis. -/
def Harmless (pipeline : AnalysisPipeline) (runId : Int) (attempt : Token)
    (before : List StageEvent) (p : AnalysisCode α) : Prop :=
  ∀ h, Triple (Standing runId attempt before h) p (fun _ => Standing runId attempt before h)
    fun exc s => Standing runId attempt before h s ∧ Stops pipeline exc

namespace Harmless

theorem pure (a : α) : Harmless pipeline runId attempt before (Pure.pure a : AnalysisCode α) :=
  fun _ => Triple.pure fun _ => id

theorem bind {p : AnalysisCode α} {f : α → AnalysisCode β}
    (hp : Harmless pipeline runId attempt before p)
    (hf : ∀ a, Harmless pipeline runId attempt before (f a)) :
    Harmless pipeline runId attempt before (p >>= f) :=
  fun h => Triple.bind (hp h) fun a => hf a h

end Harmless

theorem yielding_triple (raiser : Raiser) (r : Except String α) :
    Triple (Standing runId attempt before h) (yielding raiser r)
      (fun _ => Standing runId attempt before h)
      fun exc s => Standing runId attempt before h s
        ∧ ∃ message, r = .error message ∧ exc = .raised raiser message := by
  cases r with
  | ok value => exact Triple.pure fun _ => id
  | error message => exact Triple.throw fun s hs => ⟨hs, message, rfl, rfl⟩

theorem calling_triple (raiser : Raiser) (call : Call) (answer : Except String α) :
    Triple (Standing runId attempt before h) (calling raiser call answer)
      (fun _ => Standing runId attempt before h)
      fun exc s => Standing runId attempt before h s
        ∧ ∃ message, answer = .error message ∧ exc = .raised raiser message := by
  refine Triple.bind (Q := fun _ => Standing runId attempt before h) ?_ fun _ =>
    yielding_triple raiser answer
  intro s hs
  exact ⟨hs.current, hs.history⟩

/-- A call whose exceptions are not caught. -/
theorem calling_harmless {raiser : Raiser} {call : Call} {answer : Except String α}
    (hstop : ∀ message, answer = .error message → Stops pipeline (.raised raiser message)) :
    Harmless pipeline runId attempt before (calling raiser call answer) := by
  refine fun h => (calling_triple raiser call answer).weaken (fun _ => id) (fun _ _ => id) ?_
  rintro _ s ⟨hs, message, hr, rfl⟩
  exact ⟨hs, hstop message hr⟩

theorem yielding_harmless {r : Except String α}
    (hraises : ∀ message, r = .error message → FunctionRaises pipeline.functions message) :
    Harmless pipeline runId attempt before (yielding .function r) := by
  refine fun h => (yielding_triple .function r).weaken (fun _ => id) (fun _ _ => id) ?_
  rintro _ s ⟨hs, message, hr, rfl⟩
  exact ⟨hs, .function (hraises message hr)⟩

/-- Code all of whose exceptions are caught. -/
theorem caught_harmless {p : AnalysisCode α} {E : AnalysisError → Prop} (a : α)
    (hp : ∀ h, Triple (Standing runId attempt before h) p
      (fun _ => Standing runId attempt before h)
      fun exc s => Standing runId attempt before h s ∧ E exc) :
    Harmless pipeline runId attempt before (tryCatch p fun _ => Pure.pure a) :=
  fun h => Triple.tryCatch (hp h) fun _ => Triple.pure fun _ hs => hs.1

theorem repositoryContext_harmless (request : AnalysisRequest) (accessToken : String) :
    Harmless pipeline runId attempt before
      (pipeline.repositoryContext request accessToken) :=
  caught_harmless _ fun _ => calling_triple _ _ _

theorem outcome_triple {p : AnalysisCode α} (hp : Harmless pipeline runId attempt before p)
    {E : AnalysisError → AnalysisState → Prop} :
    Triple (Standing runId attempt before h) (outcome p)
      (fun r s => Standing runId attempt before h s ∧ ∀ exc, r = .error exc → Stops pipeline exc)
      E := by
  refine (Triple.outcome (hp h)).weaken (fun _ => id) ?_ (fun _ _ => id)
  rintro (exc | a) s hs
  · refine ⟨hs.1, ?_⟩
    rintro _ ⟨⟩
    exact hs.2
  · exact ⟨hs, fun _ he => nomatch he⟩

theorem gather_harmless (request : AnalysisRequest) (accessToken : String) :
    Harmless pipeline runId attempt before (pipeline.gather request accessToken) := by
  intro h
  refine Triple.bind (outcome_triple (calling_harmless fun _ => .failedJobs)) fun jobs => ?_
  -- the two outcomes are values from here on, and what is known of them is kept aside
  intro s hs
  refine Triple.bind (outcome_triple (calling_harmless fun _ => .downloadLogs)) (fun logs => ?_)
    s hs.1
  intro s' hs'
  refine Triple.bind (repositoryContext_harmless request accessToken h) (fun context => ?_)
    s' hs'.1
  cases jobs with
  | ok jobs =>
      cases logs with
      | ok logs => exact Triple.pure fun _ => id
      | error exc => exact Triple.throw fun _ hx => ⟨hx, hs'.2 exc rfl⟩
  | error exc =>
      cases logs with
      | ok logs => exact Triple.throw fun _ hx => ⟨hx, hs.2 exc rfl⟩
      | error exc' =>
          refine Triple.throw fun _ hx => ⟨hx, ?_⟩
          split
          · exact hs'.2 exc' rfl
          · exact hs.2 exc rfl

theorem collect_harmless (request : AnalysisRequest) (hq : Undisturbed pipeline request.runId) :
    Harmless pipeline request.runId attempt before (pipeline.collect request attempt) := by
  refine Harmless.bind (calling_harmless fun _ => .installationToken) fun accessToken => ?_
  refine Harmless.bind (gather_harmless request accessToken) fun collected => ?_
  exact Harmless.bind (fun _ => update_spec hq _) fun _ => Harmless.pure _

theorem sanitizeExecutionContext_raises {failedJobs : List FailedJob} {message : String}
    (h : pipeline.sanitizeExecutionContext failedJobs = .error message) :
    FunctionRaises pipeline.functions message := by
  have hfirst : ∀ {values}, pipeline.firstClean values = .error message →
      FunctionRaises pipeline.functions message := by
    intro values hv
    unfold firstClean at hv
    split at hv
    · exact nomatch hv
    · rename_i value _
      cases hc : pipeline.functions.sanitizeLog value with
      | ok text => rw [hc] at hv; exact nomatch hv
      | error message' => rw [hc] at hv; cases hv; exact .sanitizeLog hc
  unfold sanitizeExecutionContext at h
  rcases bind_eq_error h with h | ⟨_, h⟩
  · exact hfirst h
  rcases bind_eq_error h with h | ⟨_, h⟩
  · exact hfirst h
  rcases bind_eq_error h with h | ⟨_, h⟩
  · obtain ⟨job, h⟩ := mapM_eq_error h
    rcases bind_eq_error h with h | ⟨_, h⟩
    · exact .sanitizeLog h
    rcases bind_eq_error h with h | ⟨_, h⟩
    · obtain ⟨_, h⟩ := mapM_eq_error h
      exact .sanitizeLog h
    rcases bind_eq_error h with h | ⟨_, h⟩
    · obtain ⟨_, h⟩ := mapM_eq_error h
      exact .sanitizeLog h
    · exact nomatch h
  · exact nomatch h

theorem sanitize_harmless (collected : Collected) :
    Harmless pipeline runId attempt before (pipeline.sanitize collected) := by
  refine Harmless.bind (yielding_harmless fun _ => sanitizeExecutionContext_raises) fun _ => ?_
  refine Harmless.bind (yielding_harmless fun _ => .preprocessLogs) fun _ => ?_
  refine Harmless.bind (yielding_harmless fun message h => ?_) fun _ => ?_
  · obtain ⟨changed, h⟩ := mapM_eq_error h
    rcases bind_eq_error h with h | ⟨_, h⟩
    · exact .sanitizeLog h
    · exact nomatch h
  · exact Harmless.bind (yielding_harmless fun _ => .sanitizeLog) fun _ => Harmless.pure _

theorem classify_harmless (sanitized : Sanitized) :
    Harmless pipeline runId attempt before (pipeline.classify sanitized) :=
  yielding_harmless fun _ => .classifyLog

theorem correlate_harmless (sanitized : Sanitized) (classification : Classification) :
    Harmless pipeline runId attempt before (pipeline.correlate sanitized classification) :=
  yielding_harmless fun _ => .correlateChangedFiles

theorem llmDiagnosis_harmless (provider : LLMProvider) (context : LLMContext)
    (fallback : Diagnosis) :
    Harmless pipeline runId attempt before (llmDiagnosis provider context fallback) := by
  refine caught_harmless (E := fun _ => True) _ fun h => ?_
  refine Triple.bind ((calling_triple .llmProvider _ _).weaken (fun _ => id) (fun _ _ => id)
    fun _ _ hs => ⟨hs.1, trivial⟩) fun analysis => ?_
  exact (yielding_triple .llmValidation _).weaken (fun _ => id) (fun _ _ => id)
    fun _ _ hs => ⟨hs.1, trivial⟩

theorem attachVerifiedPatches_harmless (request : AnalysisRequest) (accessToken : String)
    (diagnosis : Diagnosis) (log : String) (relatedFiles : List RelatedFile)
    (context : RepositoryContext) :
    Harmless pipeline runId attempt before
      (pipeline.attachVerifiedPatches request accessToken diagnosis log relatedFiles context) := by
  refine Harmless.bind (yielding_harmless fun _ => .findVersionBumps) fun bumps => ?_
  dsimp only
  split
  · exact Harmless.pure _
  · refine Harmless.bind (yielding_harmless fun message h => ?_) fun manifestPaths => ?_
    · split at h
      · exact nomatch h
      · exact .manifestPathsInLog h
    · refine Harmless.bind ?_ fun _ => yielding_harmless fun _ => .proposeAndVerifyPatches
      unfold fetchTargets
      split
      · exact Harmless.pure _
      · exact caught_harmless _ fun _ => calling_triple _ _ _

theorem diagnose_harmless (request : AnalysisRequest) (collected : Collected)
    (sanitized : Sanitized) (classification : Classification) (relatedFiles : List RelatedFile) :
    Harmless pipeline runId attempt before
      (pipeline.diagnose request collected sanitized classification relatedFiles) := by
  unfold diagnose
  dsimp only
  split
  · refine Harmless.bind ?_ fun _ =>
      Harmless.bind (attachVerifiedPatches_harmless _ _ _ _ _ _) fun _ => Harmless.pure _
    unfold modelDiagnosis
    split
    · exact Harmless.pure _
    · exact Harmless.bind (llmDiagnosis_harmless _ _ _) fun _ => Harmless.pure _
  · exact Harmless.pure _

theorem publish_harmless (request : AnalysisRequest) (collected : Collected)
    (classification : Classification) (relatedFiles : List RelatedFile) (diagnosis : Diagnosis) :
    Harmless pipeline runId attempt before
      (pipeline.publish request collected classification relatedFiles diagnosis) := by
  unfold publish
  dsimp only
  split
  · refine Harmless.bind
      (calling_harmless fun _ hr => .function (.renderGithubDiagnosis hr)) fun body => ?_
    split
    · exact calling_harmless fun _ => .upsertPullRequestComment
    · exact calling_harmless fun _ => .upsertPullRequestComment
    · exact calling_harmless fun _ => .upsertCheck
    · exact Harmless.pure _
  · exact Harmless.pure _

/-! ## Stages -/

/-- The ways a body may have failed: the history ends with the pair of its stage. -/
def FailedIn (pipeline : AnalysisPipeline) (runId : Int) (attempt : Token)
    (before : List StageEvent) (exc : AnalysisError) (s : AnalysisState) : Prop :=
  Stops pipeline exc ∧ ∃ completed stage, completed ++ [stage] <+: stages
    ∧ Standing runId attempt before (pairs completed ++ failedPair stage) s

/-- **A stage extends the history by its pair**, whichever way its body ends. -/
theorem stage_spec (hq : Undisturbed pipeline runId) {completed : List AnalysisStage}
    {stage : AnalysisStage} (hnext : completed ++ [stage] <+: stages) {body : AnalysisCode α}
    (hbody : Harmless pipeline runId attempt before body) :
    Triple (Standing runId attempt before (pairs completed))
      (pipeline.stage runId stage attempt body)
      (fun _ => Standing runId attempt before (pairs (completed ++ [stage])))
      (FailedIn pipeline runId attempt before) := by
  refine Triple.bind (recordStage_spec hq stage .started none) fun _ => ?_
  refine Triple.bind (Q := fun _ =>
    Standing runId attempt before (pairs completed ++ [(stage, .started)])) ?_ fun value => ?_
  · refine Triple.tryCatch (hbody _) fun exc => ?_
    -- the failure is recorded, and then the same exception is raised again
    intro s hs
    refine Triple.bind (recordStage_spec hq stage .failed _) (fun _ => ?_) s hs.1
    refine Triple.throw fun s' hs' => ⟨hs.2, completed, stage, hnext, ?_⟩
    rwa [List.append_assoc] at hs'
  · refine Triple.bind (recordStage_spec hq stage .completed none) fun _ => ?_
    refine Triple.pure fun s hs => ?_
    have hpairs : pairs (completed ++ [stage])
        = pairs completed ++ [(stage, .started)] ++ [(stage, .completed)] := by
      unfold pairs
      rw [List.flatMap_append, List.append_assoc]
      rfl
    rwa [hpairs]

/-- **The six stages.** -/
theorem analyzeStages_spec (request : AnalysisRequest)
    (hq : Undisturbed pipeline request.runId) :
    Triple (Standing request.runId attempt before [])
      (pipeline.analyzeStages request attempt)
      (fun _ => Standing request.runId attempt before (pairs stages))
      (FailedIn pipeline request.runId attempt before) := by
  have hfirst : [] ++ [AnalysisStage.collecting] <+: stages := by decide
  refine Triple.bind (stage_spec hq hfirst (collect_harmless request hq)) fun collected => ?_
  refine Triple.bind (stage_spec hq (by decide) (sanitize_harmless collected))
    fun sanitized => ?_
  refine Triple.bind (stage_spec hq (by decide) (classify_harmless sanitized))
    fun classification => ?_
  refine Triple.bind (stage_spec hq (by decide) (correlate_harmless sanitized classification))
    fun relatedFiles => ?_
  refine Triple.bind (stage_spec hq (by decide)
    (diagnose_harmless request collected sanitized classification relatedFiles))
    fun diagnosed => ?_
  refine Triple.bind (update_spec hq _) fun _ => ?_
  exact stage_spec hq (by decide)
    (publish_harmless request collected classification relatedFiles diagnosed.diagnosis)

/-! ## The call -/

theorem eventsOf_supersede (db : Db) (runId : Int) :
    (db.stageEvents.map (supersedeEvent runId)).filter (fun event => event.runId == runId)
      = (eventsOf db runId).map (supersedeEvent runId) := by
  have hrun : ∀ event, (supersedeEvent runId event).runId = event.runId := by
    intro event
    unfold supersedeEvent
    split <;> rfl
  unfold eventsOf
  rw [List.filter_map]
  congr 2
  funext event
  rw [Function.comp_apply, hrun]

/-- `begin_analysis` on a queued run. -/
theorem begin_spec (attempt : Token) (hq : Undisturbed pipeline runId) {s : AnalysisState} {row : AnalysisRow}
    (hrow : s.store.row? runId = some row) (hqueued : row.status = .queued) :
    ∃ start s', exec (pipeline.storing (.beginAnalysis runId attempt) fun db now =>
        db.beginAnalysis runId (some attempt) now) s = (.ok start, s')
      ∧ Standing runId attempt ((eventsOf s.store runId).map (supersedeEvent runId)) [] s' := by
  obtain ⟨row', hrow', hstatus, _⟩ := hq.row s.storeCalls s.store row hrow
  have hfate := hq.answered s.storeCalls
  rcases begin_fenced ((pipeline.turn s.storeCalls).others s.store) runId attempt
      (pipeline.turn s.storeCalls).now with
    ⟨row'', db', _, _, hrun, hwrote, hevents⟩ | ⟨hnot, _⟩
  · simp only [storing, exec_ofRun, hfate, storeCall, hrun]
    refine ⟨_, _, rfl, ⟨_, hwrote.self, rfl⟩, [], ?_, rfl⟩
    rw [List.append_nil, ← hq.events s.storeCalls s.store, ← eventsOf_supersede]
    unfold eventsOf
    rw [hevents]
  · exact absurd ⟨row', hrow', Or.inl (hstatus.trans hqueued)⟩ hnot

/-- The call is over: its history, and the row with a null token. -/
structure Over (runId : Int) (before : List StageEvent)
    (h : List (AnalysisStage × StageStatus)) (status : AnalysisStatus) (s : AnalysisState) :
    Prop where
  history : ∃ new, eventsOf s.store runId = before ++ new ∧ new.map kind = h
  row : ∃ row, s.store.row? runId = some row ∧ row.status = status ∧ row.attemptToken = none

theorem finish_spec (request : AnalysisRequest) (hq : Undisturbed pipeline request.runId)
    (startedAt : Instant) (status : AnalysisStatus)
    {E : AnalysisError → AnalysisState → Prop} :
    Triple (Standing request.runId attempt before h)
      (pipeline.finish request startedAt status attempt)
      (fun _ => Over request.runId before h status) E := by
  refine storing_spec hq fun s now hs => ?_
  rcases finish_fenced s.store request.runId startedAt status attempt now with
    ⟨row, db', hr, ht, hrun, hwrote, hevents⟩ | ⟨hnot, _⟩
  · refine ⟨_, db', hrun, fun n calls => ⟨?_, _, hwrote.self, rfl, rfl⟩⟩
    obtain ⟨new, hnew, hkind⟩ := hs.history
    refine ⟨new, ?_, hkind⟩
    unfold eventsOf at hnew ⊢
    rw [hevents, hnew]
  · exact absurd hs.current hnot

/-- How a whole call ends. -/
theorem analyze_spec (request : AnalysisRequest) (attempt : Token) (hq : Undisturbed pipeline request.runId)
    {s : AnalysisState} {row : AnalysisRow} (hrow : s.store.row? request.runId = some row)
    (hqueued : row.status = .queued) (hbefore : before
      = (eventsOf s.store request.runId).map (supersedeEvent request.runId)) :
    Triple (fun s' => s' = s) (pipeline.analyze request attempt)
      (fun _ => Over request.runId before (pairs stages) .completed)
      (fun exc s' => Stops pipeline exc ∧ ∃ completed stage, completed ++ [stage] <+: stages
        ∧ Over request.runId before (pairs completed ++ failedPair stage) .failed s') := by
  refine Triple.bind (Q := fun r s' => ∃ start, r = .ok start
    ∧ Standing request.runId attempt before [] s') ?_ fun r => ?_
  · refine (Triple.outcome (Q := fun _ => Standing request.runId attempt before [])
      (F := fun _ _ => False) ?_).weaken (fun _ => id) ?_ (fun _ _ => id)
    · rintro _ rfl
      obtain ⟨start, s', hexec, hs'⟩ := begin_spec attempt hq hrow hqueued
      rw [hexec]
      rwa [hbefore]
    · rintro (exc | start) s' hs'
      · exact hs'.elim
      · exact ⟨start, rfl, hs'⟩
  · rintro s' ⟨start, rfl, hs'⟩
    refine Triple.bind (Triple.outcome (analyzeStages_spec request hq)) (fun result => ?_) s' hs'
    cases result with
    | ok value =>
        refine Triple.bind (Triple.outcome (F := fun _ _ => False)
          (finish_spec request hq start.attemptStartedAt .completed)) fun finished => ?_
        cases finished with
        | ok total => exact Triple.pure fun _ => id
        | error exc => exact fun _ hf => hf.elim
    | error exc =>
        rintro s'' ⟨hstops, completed, stage, hprefix, hstanding⟩
        -- so the attempt was not superseded
        obtain ⟨raiser, message, rfl⟩ := hstops.exists_raised
        refine Triple.bind (Triple.outcome (F := fun _ _ => False)
          (finish_spec request hq start.attemptStartedAt .failed)) (fun finished => ?_) s''
          hstanding
        cases finished with
        | ok total => exact Triple.throw fun _ hover => ⟨hstops, completed, stage, hprefix, hover⟩
        | error exc => exact fun _ hf => hf.elim

end Call

/-! ## The result -/

/-- What the appended events, the row and the result of a call have to do with each other. -/
structure Mirrors (pipeline : AnalysisPipeline) (new : List StageEvent) (row : AnalysisRow)
    (result : Except AnalysisError Unit) : Prop where
  /-- Pairs of completed stages in order, and at most one pair of a failed one. -/
  history : (∃ completed, completed <+: stages ∧ new.map kind = pairs completed)
    ∨ ∃ completed stage, completed ++ [stage] <+: stages
      ∧ new.map kind = pairs completed ++ failedPair stage
  completed_iff : (row.status = .completed ∧ row.attemptToken = none)
    ↔ new.map kind = pairs stages
  returns : new.map kind = pairs stages → result = .ok ()
  /-- The exception that is raised again is one that no handler catches. -/
  fails : new.map kind ≠ pairs stages → row.status = .failed
    ∧ ∃ exc, result = .error exc ∧ Stops pipeline exc

theorem failed_ne_pairs (completed : List AnalysisStage) (stage : AnalysisStage) :
    pairs completed ++ failedPair stage ≠ pairs stages := by
  intro h
  have hmem : (stage, StageStatus.failed) ∈ pairs stages := by
    rw [← h]
    simp [failedPair]
  revert hmem
  cases stage <;> decide

/-- **The stage history mirrors the run.** -/
theorem stage_history (pipeline : AnalysisPipeline) (request : AnalysisRequest) (attempt : Token)
    (s : AnalysisState) (row : AnalysisRow) (hrow : s.store.row? request.runId = some row)
    (hqueued : row.status = .queued) (hq : Undisturbed pipeline request.runId) :
    ∃ new row', eventsOf (exec (pipeline.analyze request attempt) s).2.store request.runId
        = (eventsOf s.store request.runId).map (supersedeEvent request.runId) ++ new
      ∧ (exec (pipeline.analyze request attempt) s).2.store.row? request.runId = some row'
      ∧ Mirrors pipeline new row' (exec (pipeline.analyze request attempt) s).1 := by
  have hspec := analyze_spec request attempt hq hrow hqueued rfl s rfl
  revert hspec
  rcases exec (pipeline.analyze request attempt) s with ⟨exc | ⟨⟩, s'⟩
  · rintro ⟨hstops, completed, stage, hprefix, ⟨new, hnew, hkind⟩, row', hrow', hstatus, _⟩
    have hne : new.map kind ≠ pairs stages := by
      rw [hkind]
      exact failed_ne_pairs completed stage
    refine ⟨new, row', hnew, hrow', Or.inr ⟨completed, stage, hprefix, hkind⟩, ?_,
      fun h => absurd h hne, fun _ => ⟨hstatus, exc, rfl, hstops⟩⟩
    exact ⟨fun h => absurd (hstatus.symm.trans h.1) (by decide), fun h => absurd h hne⟩
  · rintro ⟨⟨new, hnew, hkind⟩, row', hrow', hstatus, htoken⟩
    refine ⟨new, row', hnew, hrow', Or.inl ⟨stages, List.prefix_rfl, hkind⟩, ?_,
      fun _ => rfl, fun h => absurd hkind h⟩
    exact ⟨fun _ => hkind, fun _ => ⟨hstatus, htoken⟩⟩

/-- A queued run, and the job for it. -/
def waitingRecord : AnalysisRecord :=
  { runId := 77, deliveryId := "delivery-77", repository := "acme/example", workflowName := "CI",
    headSha := "abc123", htmlUrl := "https://github.com/acme/example/actions/runs/77",
    installationId := some 5, createdAt := 0, updatedAt := 0 }

def waitingRequest : AnalysisRequest :=
  { runId := 77, repository := "acme/example", installationId := 5, headSha := "abc123" }

def waitingState : AnalysisState :=
  { store := (Db.empty.createIfAbsent waitingRecord).1, storeCalls := 0, calls := [] }

/-- The language model and the fetch of patch targets raise; the rest goes well. -/
def troubledPipeline : AnalysisPipeline where
  settings :=
    { logChunkChars := 4000, errorContextLines := 8, maxErrorChunks := 20, publishChecks := true
      publicUrl := "http://localhost:3000" }
  github :=
    { installationToken := fun _ => .ok "token"
      failedJobs := fun _ _ _ => .ok [{ jobId := 1, name := "test", failedSteps := ["pytest"] }]
      downloadLogs := fun _ _ _ => .ok [{ jobName := "test", text := "E assert 1 == 2" }]
      repositoryContext := fun _ _ _ _ => .ok { trustLevel := .trusted, pullRequestNumber := some 3 }
      fileContents := fun _ _ _ _ => .error "404 Not Found"
      upsertPullRequestComment := fun _ _ _ _ _ => .ok ()
      upsertCheck := fun _ _ _ _ _ _ _ => .ok ()
      logsRaiseFirst := false }
  llmProvider := some { modelName := "model", analyze := fun _ => .error "timed out" }
  functions :=
    { sanitizeLog := fun text => .ok text
      preprocessLogs := fun logs _ _ _ => .ok ("\n...\n".intercalate logs)
      classifyLog := fun log step =>
        .ok { category := .test, confidence := 9 / 10, firstError := log, relatedStep := step }
      correlateChangedFiles := fun _ _ _ => .ok []
      findVersionBumps := fun _ => .ok []
      manifestPathsInLog := fun _ => .ok []
      proposeAndVerifyPatches := fun diagnosis _ _ => .ok diagnosis
      renderGithubDiagnosis := fun _ _ diagnosis _ _ _ _ _ => .ok diagnosis.summary }
  turn := fun n => { fate := .answered, now := n, others := id }

theorem stage_history_troubled :
    ∃ new row', eventsOf (exec (troubledPipeline.analyze waitingRequest 4) waitingState).2.store 77
        = new
      ∧ (exec (troubledPipeline.analyze waitingRequest 4) waitingState).2.store.row? 77 = some row'
      ∧ new.map kind = pairs stages ∧ row'.status = .completed ∧ row'.attemptToken = none := by
  have hq : Undisturbed troubledPipeline 77 :=
    ⟨fun _ => rfl, fun _ _ => rfl, fun _ _ row h => ⟨row, h, rfl, rfl⟩⟩
  have hrow : waitingState.store.row? 77 = some (Db.insertValues waitingRecord) := by
    decide +kernel
  obtain ⟨new, row', hnew, hrow', hmirrors⟩ := stage_history troubledPipeline waitingRequest 4
    waitingState (Db.insertValues waitingRecord) hrow rfl hq
  have hall : new.map kind = pairs stages := by
    by_contra hne
    obtain ⟨_, exc, _, hstops⟩ := hmirrors.fails hne
    -- none of the exceptions that could have stopped it is raised here
    rcases hstops with h | h | h | h | h | h
    · exact nomatch h
    · exact nomatch h
    · exact nomatch h
    · exact nomatch h
    · exact nomatch h
    · rcases h with h | h | h | h | h | h | h | h <;> exact nomatch h
  exact ⟨new, row', hnew, hrow', hall, hmirrors.completed_iff.mpr hall⟩

end PipeLens.Proof
