import PipeLens.Lib.ReadCommitted
import PipeLens.Lib.Transition
import PipeLens.Store

/-!
# Store transactions, statement by statement

On PostgreSQL the statements of concurrent transactions interleave. Here the
operations of `store.py` that issue more than one statement are taken apart into
their statements, each an atomic step at isolation level `READ COMMITTED`. The
conditions and the assigned values are those of the operations themselves.

A transaction is named by its connection. Every connection runs any number of
transactions one after another, and there may be any number of connections.
-/

namespace PipeLens

/-! ## `record_followup_run` -/

/-- Where the transaction of a `record_followup_run` call stands. -/
inductive FollowupTx where
  | idle
  | called (f : FollowupRun)
  /-- The candidate query returned `candidate`. -/
  | selected (f : FollowupRun) (candidate : AnalysisRow)
  | updated (f : FollowupRun)
  deriving DecidableEq

/-- The analyses, the calls in progress, and all calls there ever were. -/
structure FollowupSystem (τ : Type) where
  analyses : ReadCommitted AnalysisRow AnalysisRow.runId τ
  tx : τ → FollowupTx
  calls : List FollowupRun

inductive FollowupLabel (τ : Type) where
  | create (record : AnalysisRecord)
  | call (t : τ) (f : FollowupRun)
  | select (t : τ)
  | update (t : τ) (now : Instant)
  | commit (t : τ)
  /-- The connection breaks, or a statement fails. -/
  | rollback (t : τ)
  deriving DecidableEq

/-- The `SET` clause of the resolution update. -/
def FollowupRun.assignment (f : FollowupRun) (candidate : AnalysisRow) (now : Instant) :
    Assignment AnalysisRow.runId :=
  ⟨f.resolutionValues candidate now, f.resolutionValues_runId candidate now⟩

namespace FollowupSystem

variable {τ : Type}

def ofTable (analyses : Table AnalysisRow AnalysisRow.runId) : FollowupSystem τ where
  analyses := ReadCommitted.ofTable analyses
  tx := fun _ => .idle
  calls := []

variable [DecidableEq τ]

/-- `create_if_absent`, a single statement. -/
def create (s : FollowupSystem τ) (record : AnalysisRecord) : FollowupSystem τ :=
  if s.analyses.committed.rows.any (fun row => row.deliveryId == record.deliveryId) then s
  else
    match s.analyses.insert (Db.insertValues record) with
    | none => s
    | some analyses => { s with analyses := analyses }

def step (backend : Backend) (s : FollowupSystem τ) : FollowupLabel τ → Option (FollowupSystem τ)
  | .create record => some (s.create record)
  | .call t f =>
      match s.tx t with
      | .idle =>
          -- an untracked conclusion returns before the transaction starts
          if f.isTracked then
            some { s with tx := Function.update s.tx t (.called f), calls := f :: s.calls }
          else some s
      | _ => none
  | .select t =>
      match s.tx t with
      | .called f =>
          match (s.analyses.view t).selectFirst f.isCandidate (listedBefore backend) with
          | none => some { s with tx := Function.update s.tx t .idle }
          | some candidate => some { s with tx := Function.update s.tx t (.selected f candidate) }
      | _ => none
  | .update t now =>
      match s.tx t with
      | .selected f candidate =>
          match s.analyses.updateKey t candidate.runId f.unresolvedOrSameRunRetry
              (f.assignment candidate now) with
          -- the row is locked by another transaction: the statement waits
          | none => none
          | some (analyses, _) =>
              -- a row count other than one makes the call return none, and commit all the same
              some { s with analyses := analyses, tx := Function.update s.tx t (.updated f) }
      | _ => none
  | .commit t =>
      match s.tx t with
      | .updated _ =>
          some { s with analyses := s.analyses.commit t, tx := Function.update s.tx t .idle }
      | _ => none
  | .rollback t =>
      some { s with analyses := s.analyses.rollback t, tx := Function.update s.tx t .idle }

end FollowupSystem

/-! ## `begin_analysis` and `record_stage` of one run -/

/-- The arguments of a fenced `record_stage` call. -/
structure StageCall where
  token : Token
  stage : AnalysisStage
  status : StageStatus
  error : Option String
  deriving DecidableEq, Repr

/-- Where the transaction of a connection stands. -/
inductive AttemptTx where
  | idle
  | beginCalled (t : Token) (startedAt : Instant)
  /-- The first `SELECT` returned `timing`. -/
  | beginRead (t : Token) (startedAt : Instant) (timing : AnalysisRow)
  | beginUpdated (t : Token) (startedAt : Instant) (timing : AnalysisRow)
  /-- The open stage events `closed` have been marked as superseded. -/
  | beginClosed (t : Token) (startedAt : Instant) (timing : AnalysisRow) (closed : List Nat)
  | stageCalled (call : StageCall)
  | stageChecked (call : StageCall)
  | stageInserted (call : StageCall) (event : StageEvent)
  deriving DecidableEq

/-- What a committed transaction did: the value a call returned, or the event it inserted. -/
inductive Commit where
  | begun (t : Token) (start : AnalysisStart)
  | staged (t : Token) (event : StageEvent)
  deriving DecidableEq, Repr

/-- The two tables, the calls in progress, and the commits so far with the newest first. -/
structure AttemptSystem (τ : Type) where
  analyses : ReadCommitted AnalysisRow AnalysisRow.runId τ
  events : List StageEvent
  nextEventId : Nat
  tx : τ → AttemptTx
  log : List Commit

inductive AttemptLabel (τ : Type) where
  | callBegin (c : τ) (t : Token) (startedAt : Instant)
  | selectTiming (c : τ)
  | updateAnalysis (c : τ)
  | closeStages (c : τ)
  | callStage (c : τ) (call : StageCall)
  | selectToken (c : τ)
  | insertEvent (c : τ) (now : Instant)
  | commit (c : τ)
  | rollback (c : τ)
  deriving DecidableEq

/-- The `SET` clause of `begin_analysis`. -/
def beginAssignment (t : Token) (timing : AnalysisRow) (startedAt : Instant) :
    Assignment AnalysisRow.runId :=
  ⟨beginValues (some t) timing startedAt, beginValues_runId (some t) timing startedAt⟩

namespace AttemptSystem

variable {τ : Type}

def ofDb (db : Db) : AttemptSystem τ where
  analyses := ReadCommitted.ofTable db.analyses
  events := db.stageEvents
  nextEventId := db.nextEventId
  tx := fun _ => .idle
  log := []

/-- The committed events that the second `UPDATE` of `begin_analysis` matches. -/
def openEvents (s : AttemptSystem τ) (runId : Int) : List Nat :=
  (s.events.filter fun event => event.runId == runId && event.status == .started).map (·.id)

/-- Commits what that `UPDATE` wrote. -/
def closeEvents (s : AttemptSystem τ) (runId : Int) (closed : List Nat) : List StageEvent :=
  s.events.map fun event => if event.id ∈ closed then supersedeEvent runId event else event

variable [DecidableEq τ]

def setTx (s : AttemptSystem τ) (c : τ) (phase : AttemptTx) : AttemptSystem τ :=
  { s with tx := Function.update s.tx c phase }

/-- `ROLLBACK`, also where the operation raises. -/
def rollback (s : AttemptSystem τ) (c : τ) : AttemptSystem τ :=
  { s with analyses := s.analyses.rollback c, tx := Function.update s.tx c .idle }

def step (runId : Int) (s : AttemptSystem τ) : AttemptLabel τ → Option (AttemptSystem τ)
  | .callBegin c t startedAt =>
      match s.tx c with
      | .idle => some (s.setTx c (.beginCalled t startedAt))
      | _ => none
  | .selectTiming c =>
      match s.tx c with
      | .beginCalled t startedAt =>
          match (s.analyses.view c).find? runId with
          | none => some (s.rollback c)
          | some timing => some (s.setTx c (.beginRead t startedAt timing))
      | _ => none
  | .updateAnalysis c =>
      match s.tx c with
      | .beginRead t startedAt timing =>
          match s.analyses.updateKey c runId (mayStart (some t))
              (beginAssignment t timing startedAt) with
          -- the row is locked by another begin: the statement waits
          | none => none
          | some (analyses, rowcount) =>
              match requireCurrentAttempt rowcount runId (some t) with
              | .error _ => some ({ s with analyses := analyses }.rollback c)
              | .ok () =>
                  some ({ s with analyses := analyses }.setTx c (.beginUpdated t startedAt timing))
      | _ => none
  | .closeStages c =>
      match s.tx c with
      | .beginUpdated t startedAt timing =>
          some (s.setTx c (.beginClosed t startedAt timing (s.openEvents runId)))
      | _ => none
  | .callStage c call =>
      match s.tx c with
      | .idle => some (s.setTx c (.stageCalled call))
      | _ => none
  | .selectToken c =>
      match s.tx c with
      | .stageCalled call =>
          -- a plain `SELECT`: it takes no lock and waits for nobody
          match ((s.analyses.view c).find? runId).filter (holdsToken (some call.token)) with
          | none => some (s.rollback c)
          | some _ => some (s.setTx c (.stageChecked call))
      | _ => none
  | .insertEvent c now =>
      match s.tx c with
      | .stageChecked call =>
          let event : StageEvent := {
            id := s.nextEventId
            runId := runId
            stage := call.stage
            status := call.status
            error := call.error
            occurredAt := now }
          some ({ s with nextEventId := s.nextEventId + 1 }.setTx c (.stageInserted call event))
      | _ => none
  | .commit c =>
      match s.tx c with
      | .beginClosed t startedAt timing closed =>
          some { s with
            analyses := s.analyses.commit c
            events := s.closeEvents runId closed
            tx := Function.update s.tx c .idle
            log := .begun t (analysisStart timing startedAt) :: s.log }
      | .stageInserted call event =>
          -- committed without another look at the token
          some { s with
            analyses := s.analyses.commit c
            events := s.events ++ [event]
            tx := Function.update s.tx c .idle
            log := .staged call.token event :: s.log }
      | _ => none
  | .rollback c => some (s.rollback c)

end AttemptSystem

end PipeLens
