import PipeLens.Store

/-!
# One attempt of an analysis

`AnalysisPipeline.analyze` as a program that stops at every store call. Each call
is one transaction, and each may fail: it may be rolled back, or it may have been
committed when the connection broke. The bodies of the stages are opaque here.
They end normally or with an exception; what they compute appears only as the
values of the two updates.

`begin_analysis` is the entry: it either starts an attempt or ends the call.
`Attempt.step` is the rest, exception paths included.
-/

namespace PipeLens

/-- How a store call goes. A failure is an error other than `AnalysisAttemptSuperseded`. -/
inductive StoreFate where
  | answered
  /-- The transaction was rolled back. -/
  | failed (message : String)
  /-- The transaction was committed, but the caller sees an error. -/
  | unacknowledged (message : String)
  deriving DecidableEq, Repr

/-- What the caller sees of a store call. -/
inductive CallResult (α : Type) where
  | ok (value : α)
  | superseded (message : String)
  | raised (message : String)
  deriving DecidableEq, Repr

/-- The text of a foreign key violation. -/
def integrityMessage : String := "FOREIGN KEY constraint failed"

/-- The outcome of an operation, seen through the fate of the call. -/
def storeCall {α : Type} (db : Db) (fate : StoreFate) (r : Except StoreError α × Db) :
    CallResult α × Db :=
  match fate with
  | .failed message => (.raised message, db)
  | .unacknowledged message => (.raised message, r.2)
  | .answered =>
      match r.1 with
      | .ok value => (.ok value, r.2)
      | .error (.superseded message) => (.superseded message, r.2)
      | .error .integrity => (.raised integrityMessage, r.2)

/-- Where an attempt stands after `begin_analysis`. -/
inductive AnalyzePc where
  /-- `_stage` is about to record `STARTED`. -/
  | enter (stage : AnalysisStage)
  | body (stage : AnalysisStage)
  /-- The update at the end of the body of `COLLECTING`. -/
  | trustUpdate
  /-- `_stage` is about to record `COMPLETED`. -/
  | leave (stage : AnalysisStage)
  /-- `_stage` is about to record `FAILED` and to raise again what the body raised. -/
  | fail (stage : AnalysisStage) (message : String) (superseded : Bool)
  /-- The update between `DIAGNOSING` and `PUBLISHING`. -/
  | diagnosisUpdate
  /-- `finish_analysis` with status `FAILED`, before the exception is raised again. -/
  | finishFailed (message : String)
  | finishCompleted
  deriving DecidableEq, Repr

/-- An attempt in progress. -/
structure Attempt where
  token : Token
  startedAt : Instant
  pc : AnalyzePc
  deriving DecidableEq, Repr

/-- How a call of `analyze` stands after a step. -/
inductive Progress where
  | running (attempt : Attempt)
  | returned
  | raised (message : String)
  deriving DecidableEq, Repr

/-- What happens next to an attempt. -/
inductive AnalyzeEvent where
  /-- The store call it stands at is made. -/
  | store (fate : StoreFate) (values : UpdateValues) (now : Instant)
  | bodyCompleted
  | bodyRaised (message : String)
  deriving DecidableEq, Repr

/-- `str(exc)[:2_000]`. -/
def stageError (message : String) : String := String.ofList (message.toList.take 2000)

/-- What follows a completed stage. -/
def AnalysisStage.next : AnalysisStage → AnalyzePc
  | .collecting => .enter .sanitizing
  | .sanitizing => .enter .classifying
  | .classifying => .enter .correlating
  | .correlating => .enter .diagnosing
  | .diagnosing => .diagnosisUpdate
  | .publishing => .finishCompleted

/-- The `begin_analysis` call of `analyze`. -/
def beginAttempt (db : Db) (runId : Int) (token : Token) (fate : StoreFate) (now : Instant) :
    Progress × Db :=
  let r := storeCall db fate (db.beginAnalysis runId (some token) now)
  match r.1 with
  -- the first stage follows; its `STARTED` is recorded by a call of its own
  | .ok start => (.running ⟨token, start.attemptStartedAt, .enter .collecting⟩, r.2)
  | .superseded _ => (.returned, r.2)
  | .raised message => (.raised message, r.2)

namespace Attempt

/-- Goes on to `pc` if the call went through; its two exceptions go to `analyze`. -/
def proceed (a : Attempt) (pc : AnalyzePc) (r : CallResult Unit × Db) : Progress × Db :=
  match r.1 with
  | .ok () => (.running { a with pc := pc }, r.2)
  | .superseded _ => (.returned, r.2)
  | .raised message => (.running { a with pc := .finishFailed message }, r.2)

/-- The fenced `record_stage` of `_stage`. -/
def recordStage (a : Attempt) (db : Db) (runId : Int) (stage : AnalysisStage)
    (status : StageStatus) (error : Option String) (fate : StoreFate) (now : Instant) :
    CallResult Unit × Db :=
  storeCall db fate (db.recordStage runId stage status error (some a.token) now)

/-- The fenced `update` of `_analyze`; it passes no error. -/
def update (a : Attempt) (db : Db) (runId : Int) (values : UpdateValues) (fate : StoreFate)
    (now : Instant) : CallResult Unit × Db :=
  storeCall db fate
    (db.update runId .running { values with error := none } (some a.token) now)

/-- The fenced `finish_analysis` of `analyze`. -/
def finish (a : Attempt) (db : Db) (runId : Int) (status : AnalysisStatus) (fate : StoreFate)
    (now : Instant) : CallResult Seconds × Db :=
  storeCall db fate (db.finishAnalysis runId a.startedAt status (some a.token) now)

/-- One step of an attempt at the analysis of `runId`. -/
def step (a : Attempt) (db : Db) (runId : Int) : AnalyzeEvent → Option (Progress × Db)
  | .bodyCompleted =>
      match a.pc with
      | .body .collecting => some (.running { a with pc := .trustUpdate }, db)
      | .body stage => some (.running { a with pc := .leave stage }, db)
      | _ => none
  | .bodyRaised message =>
      match a.pc with
      | .body stage => some (.running { a with pc := .fail stage message false }, db)
      | _ => none
  | .store fate values now =>
      match a.pc with
      | .body _ => none
      | .enter stage =>
          some (a.proceed (.body stage) (a.recordStage db runId stage .started none fate now))
      | .trustUpdate =>
          -- still inside the body, so either exception goes through `_stage` first
          let r := a.update db runId { trustLevel := values.trustLevel } fate now
          match r.1 with
          | .ok () => some (.running { a with pc := .leave .collecting }, r.2)
          | .superseded message =>
              some (.running { a with pc := .fail .collecting message true }, r.2)
          | .raised message =>
              some (.running { a with pc := .fail .collecting message false }, r.2)
      | .leave stage =>
          some (a.proceed stage.next (a.recordStage db runId stage .completed none fate now))
      | .fail stage message superseded =>
          let r := a.recordStage db runId stage .failed (some (stageError message)) fate now
          -- `AnalysisAttemptSuperseded` is raised again unless recording the failure raises anew
          if superseded then
            match r.1 with
            | .raised message' => some (.running { a with pc := .finishFailed message' }, r.2)
            | _ => some (.returned, r.2)
          else some (a.proceed (.finishFailed message) r)
      | .diagnosisUpdate =>
          some (a.proceed (.enter .publishing) (a.update db runId values fate now))
      | .finishFailed message =>
          let r := a.finish db runId .failed fate now
          match r.1 with
          | .ok _ => some (.raised message, r.2)
          | .superseded _ => some (.returned, r.2)
          | .raised message' => some (.raised message', r.2)
      | .finishCompleted =>
          let r := a.finish db runId .completed fate now
          match r.1 with
          | .ok _ => some (.returned, r.2)
          | .superseded _ => some (.returned, r.2)
          | .raised message => some (.raised message, r.2)

end Attempt

end PipeLens
