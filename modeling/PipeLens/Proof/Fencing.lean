import PipeLens.Proof.StoreOps

/-!
# Fencing by attempt token

Seen from outside, the store keeps one slot per run: the attempt that may write.
A successful `begin_analysis` puts its attempt into the slot, the successful
`finish_analysis` of that attempt empties it, and every other operation of an
attempt succeeds exactly while the attempt sits in the slot.

`currentAttempt` computes the slot from the history of calls and outcomes alone.
The results say that the database agrees with it after any sequence of
operations of any number of attempts, in any order.
-/

namespace PipeLens.Proof

open PipeLens

/-- One store call of one attempt. `update` is always to status `running`. -/
inductive AttemptOp where
  | begin (t : Token) (now : Instant)
  | update (t : Token) (values : UpdateValues) (now : Instant)
  | recordStage (t : Token) (stage : AnalysisStage) (status : StageStatus)
      (error : Option String) (now : Instant)
  | finish (t : Token) (startedAt : Instant) (status : AnalysisStatus) (now : Instant)
  deriving DecidableEq, Repr

/-- The token an operation is fenced by; `begin_analysis` only installs one. -/
def AttemptOp.fence : AttemptOp → Option Token
  | .begin _ _ => none
  | .update t _ _ => some t
  | .recordStage t _ _ _ _ => some t
  | .finish t _ _ _ => some t

/-- Forgets the value an operation returned. -/
def outcomeOf {α : Type} (r : Except StoreError α × Db) : Except StoreError Unit × Db :=
  (r.1.map fun _ => (), r.2)

/-- Performs one operation on the run. -/
def AttemptOp.apply (runId : Int) (db : Db) : AttemptOp → Except StoreError Unit × Db
  | .begin t now => outcomeOf (db.beginAnalysis runId (some t) now)
  | .update t values now => db.update runId .running values (some t) now
  | .recordStage t stage status error now => db.recordStage runId stage status error (some t) now
  | .finish t startedAt status now =>
      outcomeOf (db.finishAnalysis runId startedAt status (some t) now)

/-- Whether a call returned normally. -/
def succeeded (r : Except StoreError Unit × Db) : Bool := r.1.toOption.isSome

/-- Performs a sequence of operations and keeps their outcomes. -/
def runOps (runId : Int) : Db → List AttemptOp → Db × List (AttemptOp × Bool)
  | db, [] => (db, [])
  | db, op :: ops =>
      let r := op.apply runId db
      let rest := runOps runId r.2 ops
      (rest.1, (op, succeeded r) :: rest.2)

/-- The slot after one more call. -/
def slotAfter (slot : Option Token) : AttemptOp × Bool → Option Token
  | (.begin t _, true) => some t
  | (.finish t _ _ _, true) => if slot = some t then none else slot
  | _ => slot

/--
The attempt installed by the most recent successful `begin_analysis` that has not
finished since.
-/
def currentAttempt (history : List (AttemptOp × Bool)) : Option Token :=
  history.foldl slotAfter none

/-- The row of the run agrees with the slot, and a filled slot means `running`. -/
structure SlotInv (runId : Int) (db : Db) (slot : Option Token) : Prop where
  row : ∃ row, db.row? runId = some row ∧ row.attemptToken = slot
    ∧ (slot ≠ none → row.status = .running)

theorem slotInv_current {runId : Int} {db : Db} {slot : Option Token} {t : Token}
    (h : SlotInv runId db slot) : Current db runId t ↔ slot = some t := by
  obtain ⟨row, hr, ht, _⟩ := h.row
  rw [current_iff hr, ht]

/-- What a call may do: go through from the slot, or be refused and change nothing. -/
inductive CallEffect (runId : Int) (db : Db) (slot : Option Token) (op : AttemptOp) : Prop where
  | done (db' : Db) (eq : op.apply runId db = (.ok (), db'))
      (fenced : ∀ t, op.fence = some t → slot = some t)
      (started : op.fence = none → Startable db runId)
      (inv : SlotInv runId db' (slotAfter slot (op, true)))
  | refused (message : String) (eq : op.apply runId db = (.error (.superseded message), db))
      (fenced : ∀ t, op.fence = some t → slot ≠ some t)
      (started : op.fence = none → ¬ Startable db runId)

/-- **Every operation is one of the two.** -/
theorem callEffect {runId : Int} {db : Db} {slot : Option Token} (h : SlotInv runId db slot)
    (op : AttemptOp) : CallEffect runId db slot op := by
  have hcur : ∀ t, Current db runId t ↔ slot = some t := fun t => slotInv_current h
  obtain ⟨row₀, hr₀, hslot, _⟩ := h.row
  cases op with
  | begin t now =>
      rcases begin_fenced db runId t now with ⟨row, db', hr, hs, he, hw, _⟩ | ⟨hn, message, he⟩
      · refine .done db' (by simp [AttemptOp.apply, outcomeOf, he, Except.map])
          (by simp [AttemptOp.fence]) (fun _ => ⟨row, hr, hs⟩) ?_
        exact ⟨⟨_, hw.self, rfl, fun _ => rfl⟩⟩
      · exact .refused message (by simp [AttemptOp.apply, outcomeOf, he, Except.map])
          (by simp [AttemptOp.fence]) (fun _ => hn)
  | update t values now =>
      rcases update_fenced db runId .running values t now with
        ⟨row, db', hr, ht, he, hw, _⟩ | ⟨hn, he⟩
      · have hst := (hcur t).mp ⟨row, hr, ht⟩
        refine .done db' he (fun t' hf => by rw [← hf]; exact hst) (by simp [AttemptOp.fence]) ?_
        exact ⟨⟨_, hw.self, by rw [hst]; exact ht, fun _ => rfl⟩⟩
      · exact .refused _ he (fun t' hf hst => hn ((hcur t).mpr (by rw [hst]; exact hf.symm)))
          (by simp [AttemptOp.fence])
  | recordStage t stage status error now =>
      rcases recordStage_fenced db runId stage status error t now with
        ⟨hc, db', he, hrows, _⟩ | ⟨hn, he⟩
      · have hst := (hcur t).mp hc
        refine .done db' he (fun t' hf => by rw [← hf]; exact hst) (by simp [AttemptOp.fence]) ?_
        obtain ⟨row, hr, ht, hs⟩ := h.row
        exact ⟨⟨row, by rw [hrows]; exact hr, ht, hs⟩⟩
      · exact .refused _ he (fun t' hf hst => hn ((hcur t).mpr (by rw [hst]; exact hf.symm)))
          (by simp [AttemptOp.fence])
  | finish t startedAt status now =>
      rcases finish_fenced db runId startedAt status t now with
        ⟨row, db', hr, ht, he, hw, _⟩ | ⟨hn, message, he⟩
      · have hst := (hcur t).mp ⟨row, hr, ht⟩
        refine .done db' (by simp [AttemptOp.apply, outcomeOf, he, Except.map])
          (fun t' hf => by rw [← hf]; exact hst) (by simp [AttemptOp.fence]) ?_
        exact ⟨⟨_, hw.self, by simp [slotAfter, hst, finishValues], by simp [slotAfter, hst]⟩⟩
      · exact .refused message (by simp [AttemptOp.apply, outcomeOf, he, Except.map])
          (fun t' hf hst => hn ((hcur t).mpr (by rw [hst]; exact hf.symm)))
          (by simp [AttemptOp.fence])

theorem slotAfter_false (slot : Option Token) (op : AttemptOp) :
    slotAfter slot (op, false) = slot := by
  cases op <;> rfl

/-- **The slot is tracked across one call.** -/
theorem slotInv_apply {runId : Int} {db : Db} {slot : Option Token} (h : SlotInv runId db slot)
    (op : AttemptOp) :
    SlotInv runId (op.apply runId db).2
      (slotAfter slot (op, succeeded (op.apply runId db))) := by
  cases callEffect h op with
  | done db' eq _ _ inv =>
      rw [eq]
      exact inv
  | refused message eq _ _ =>
      rw [eq]
      show SlotInv runId db (slotAfter slot (op, false))
      rw [slotAfter_false]
      exact h

/-- **The slot is tracked across any sequence of calls.** -/
theorem slotInv_runOps {runId : Int} (ops : List AttemptOp) :
    ∀ {db : Db} {slot : Option Token}, SlotInv runId db slot →
      SlotInv runId (runOps runId db ops).1 ((runOps runId db ops).2.foldl slotAfter slot) := by
  induction ops with
  | nil => intro db slot h; exact h
  | cons op ops ih =>
      intro db slot h
      exact ih (slotInv_apply h op)

/-- An empty slot on a run that cannot be started refuses everything. -/
theorem apply_terminal {runId : Int} {db : Db} (h : SlotInv runId db none)
    (hn : ¬ Startable db runId) (op : AttemptOp) :
    ∃ message, op.apply runId db = (.error (.superseded message), db) := by
  cases callEffect h op with
  | done db' _ fenced started _ =>
      cases hf : op.fence with
      | none => exact absurd (started hf) hn
      | some t => exact absurd (fenced t hf) (by simp)
  | refused message eq _ _ => exact ⟨message, eq⟩

/-- A completed analysis is such a run. -/
theorem slotInv_completed {runId : Int} {db : Db} {slot : Option Token} {row : AnalysisRow}
    (h : SlotInv runId db slot) (hr : db.row? runId = some row) (hc : row.status = .completed) :
    slot = none ∧ ¬ Startable db runId := by
  obtain ⟨row', hr', _, hrun⟩ := h.row
  rw [hr] at hr'
  have he := Option.some.inj hr'
  subst he
  refine ⟨?_, ?_⟩
  · by_contra hne
    rw [hrun hne] at hc
    exact absurd hc (by simp)
  · rw [startable_iff hr, hc]
    simp

/--
**Store fencing.**

After any sequence of store calls of any attempts on a run whose analysis was
created with no attempt: a fenced call succeeds exactly when its token is the one
installed by the last successful `begin_analysis` and that attempt has not
finished; otherwise it raises `AnalysisAttemptSuperseded` and the database stays
as it was. Once the status is `completed`, no call whatsoever succeeds or changes
anything.
-/
theorem store_fencing {db₀ : Db} {runId : Int} {row₀ : AnalysisRow}
    (hrow : db₀.row? runId = some row₀) (hnew : row₀.attemptToken = none)
    (ops : List AttemptOp) :
    (∀ (op : AttemptOp) (t : Token), op.fence = some t →
      (succeeded (op.apply runId (runOps runId db₀ ops).1) = true ↔
        currentAttempt (runOps runId db₀ ops).2 = some t)
      ∧ (currentAttempt (runOps runId db₀ ops).2 ≠ some t →
        ∃ message, op.apply runId (runOps runId db₀ ops).1
          = (.error (.superseded message), (runOps runId db₀ ops).1)))
    ∧ (∀ row, (runOps runId db₀ ops).1.row? runId = some row → row.status = .completed →
      ∀ later, (runOps runId (runOps runId db₀ ops).1 later).1 = (runOps runId db₀ ops).1
        ∧ ∀ call ∈ (runOps runId (runOps runId db₀ ops).1 later).2, call.2 = false) := by
  have h₀ : SlotInv runId db₀ none := ⟨⟨row₀, hrow, hnew, by simp⟩⟩
  have h : SlotInv runId (runOps runId db₀ ops).1 (currentAttempt (runOps runId db₀ ops).2) :=
    slotInv_runOps ops h₀
  refine ⟨?_, ?_⟩
  · intro op t hf
    cases callEffect h op with
    | done db' eq fenced _ _ =>
        rw [eq]
        exact ⟨by simp [succeeded, Except.toOption, fenced t hf], fun hne => absurd (fenced t hf) hne⟩
    | refused message eq fenced _ =>
        rw [eq]
        exact ⟨by simp [succeeded, Except.toOption, fenced t hf], fun _ => ⟨message, rfl⟩⟩
  · intro row hr hc later
    obtain ⟨hslot, hn⟩ := slotInv_completed h hr hc
    rw [hslot] at h
    -- nothing changes, so the same argument applies to the next call
    induction later with
    | nil => exact ⟨rfl, by simp [runOps]⟩
    | cons op later ih =>
        obtain ⟨message, he⟩ := apply_terminal h hn op
        simp only [runOps, he]
        refine ⟨ih.1, ?_⟩
        intro call hmem
        rcases List.mem_cons.mp hmem with hc' | hc'
        · rw [hc']; rfl
        · exact ih.2 call hc'

/-- A freshly created analysis. -/
def queuedRecord : AnalysisRecord :=
  { runId := 49, deliveryId := "delivery-49", repository := "acme/example", workflowName := "CI",
    headSha := "abc123", htmlUrl := "https://github.com/acme/example/actions/runs/49",
    installationId := some 7, createdAt := 0, updatedAt := 0 }

def queuedDb : Db := (Db.empty.createIfAbsent queuedRecord).1

/-- A second attempt takes the run over from a first one, which then comes back. -/
def takeover : List AttemptOp :=
  [.begin 1 10, .recordStage 1 .collecting .started none 11, .begin 2 12,
    .recordStage 1 .collecting .completed none 13]

theorem store_fencing_takeover :
    (succeeded ((AttemptOp.update 1 {} 14).apply 49 (runOps 49 queuedDb takeover).1) = true ↔
      currentAttempt (runOps 49 queuedDb takeover).2 = some 1)
    ∧ currentAttempt (runOps 49 queuedDb takeover).2 = some 2 := by
  have hrow : queuedDb.row? 49 = some (Db.insertValues queuedRecord) := by decide +kernel
  have h := store_fencing hrow rfl takeover
  exact ⟨(h.1 (.update 1 {} 14) 1 rfl).1, by decide +kernel⟩

end PipeLens.Proof
