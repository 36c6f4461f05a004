import PipeLens.Store

/-!
# What each store operation does to the row of its run

One lemma per operation: either it went through, and the row of its run is the
old row with the operation's values set, or it raised and the database is
untouched. No operation touches the row of another run. Everything later is
derived from these and never unfolds an operation again.
-/

namespace PipeLens.Proof

open PipeLens

variable {db : Db} {runId : Int} {t : Token} {now : Instant}

/-- The attempt with token `t` is the current one of the run. -/
def Current (db : Db) (runId : Int) (t : Token) : Prop :=
  ∃ row, db.row? runId = some row ∧ row.attemptToken = some t

/-- The run exists and a fenced `begin_analysis` may start it. -/
def Startable (db : Db) (runId : Int) : Prop :=
  ∃ row, db.row? runId = some row ∧ (row.status = .queued ∨ row.status = .running)

theorem not_current_of_none (h : db.row? runId = none) : ¬ Current db runId t := by
  rintro ⟨row, hr, _⟩
  rw [h] at hr
  exact absurd hr (by simp)

theorem not_startable_of_none (h : db.row? runId = none) : ¬ Startable db runId := by
  rintro ⟨row, hr, _⟩
  rw [h] at hr
  exact absurd hr (by simp)

theorem current_iff {row : AnalysisRow} (hr : db.row? runId = some row) :
    Current db runId t ↔ row.attemptToken = some t := by
  constructor
  · rintro ⟨row', hr', ht⟩
    rw [hr] at hr'
    rw [Option.some.inj hr']
    exact ht
  · intro ht
    exact ⟨row, hr, ht⟩

theorem startable_iff {row : AnalysisRow} (hr : db.row? runId = some row) :
    Startable db runId ↔ row.status = .queued ∨ row.status = .running := by
  constructor
  · rintro ⟨row', hr', hs⟩
    rw [hr] at hr'
    rw [Option.some.inj hr']
    exact hs
  · intro hs
    exact ⟨row, hr, hs⟩

instance : Decidable (Current db runId t) :=
  match hr : db.row? runId with
  | none => isFalse (not_current_of_none hr)
  | some _ => decidable_of_iff _ (current_iff hr).symm

instance : Decidable (Startable db runId) :=
  match hr : db.row? runId with
  | none => isFalse (not_startable_of_none hr)
  | some _ => decidable_of_iff _ (startable_iff hr).symm

/-! ## Keyed updates of the analyses -/

section UpdateKey

variable {p : AnalysisRow → Bool} {f : AnalysisRow → AnalysisRow}
  {hf : ∀ row, (f row).runId = row.runId} {row : AnalysisRow}

theorem rowcount_eq (hr : db.row? runId = some row) :
    (db.analyses.updateKey runId p f hf).2 = if p row then 1 else 0 := by
  rw [Table.rowcount_updateKey, show db.analyses.find? runId = some row from hr]
  rfl

theorem rowcount_eq_zero (hr : db.row? runId = none) :
    (db.analyses.updateKey runId p f hf).2 = 0 := by
  rw [Table.rowcount_updateKey, show db.analyses.find? runId = none from hr]
  rfl

theorem row?_updateKey_ne {events : List StageEvent} {n : Nat} {runId' : Int}
    (hne : runId' ≠ runId) :
    ({ analyses := (db.analyses.updateKey runId p f hf).1, stageEvents := events,
       nextEventId := n } : Db).row? runId' = db.row? runId' :=
  Table.find?_updateKey_ne hf hne

theorem row?_updateKey_self {events : List StageEvent} {n : Nat}
    (hr : db.row? runId = some row) (hp : p row = true) :
    ({ analyses := (db.analyses.updateKey runId p f hf).1, stageEvents := events,
       nextEventId := n } : Db).row? runId = some (f row) := by
  have hr' : db.analyses.find? runId = some row := hr
  show (db.analyses.updateKey runId p f hf).1.find? runId = _
  rw [Table.find?_updateKey_self, hr']
  simp [Table.rewrite, hp]

theorem row?_updateKey_none {events : List StageEvent} {n : Nat} (hr : db.row? runId = none) :
    ({ analyses := (db.analyses.updateKey runId p f hf).1, stageEvents := events,
       nextEventId := n } : Db).row? runId = none := by
  have hr' : db.analyses.find? runId = none := hr
  show (db.analyses.updateKey runId p f hf).1.find? runId = _
  rw [Table.find?_updateKey_self, hr']
  rfl

end UpdateKey

theorem requireCurrentAttempt_one (token : Option Token) :
    requireCurrentAttempt 1 runId token = .ok () := by
  cases token <;> rfl

theorem requireCurrentAttempt_zero :
    requireCurrentAttempt 0 runId (some t) = .error (noLongerCurrent runId) := rfl

/-- What a successful operation leaves: the new row of its run, all others as they were. -/
structure Wrote (db db' : Db) (runId : Int) (row' : AnalysisRow) : Prop where
  self : db'.row? runId = some row'
  other : ∀ runId', runId' ≠ runId → db'.row? runId' = db.row? runId'

/-! ## `create_if_absent` -/

/-- It adds the row of its run, or changes nothing. -/
theorem createIfAbsent_row? (db : Db) (record : AnalysisRecord) (runId : Int) :
    (db.createIfAbsent record).1.row? runId = db.row? runId
    ∨ (db.row? runId = none ∧ record.runId = runId
      ∧ (db.createIfAbsent record).1.row? runId = some (Db.insertValues record)) := by
  unfold Db.createIfAbsent
  split
  · exact Or.inl rfl
  · cases hins : db.analyses.insert (Db.insertValues record) with
    | none => exact Or.inl rfl
    | some analyses =>
        have hrow : analyses.find? runId =
            if record.runId = runId then some (Db.insertValues record)
            else db.analyses.find? runId := Table.find?_insert hins
        by_cases he : record.runId = runId
        · have habsent : db.analyses.find? runId = none := by
            have h := Table.insert_eq_none (t := db.analyses) (r := Db.insertValues record)
            rw [hins] at h
            rw [← he]
            simpa [Db.insertValues] using h
          rw [if_pos he] at hrow
          exact Or.inr ⟨habsent, he, hrow⟩
        · rw [if_neg he] at hrow
          exact Or.inl hrow

theorem createIfAbsent_stageEvents (db : Db) (record : AnalysisRecord) :
    (db.createIfAbsent record).1.stageEvents = db.stageEvents := by
  unfold Db.createIfAbsent
  split
  · rfl
  · split <;> rfl

/-! ## `update` -/

/-- **A fenced `update`** goes through exactly for the current attempt. -/
theorem update_fenced (db : Db) (runId : Int) (status : AnalysisStatus) (values : UpdateValues)
    (t : Token) (now : Instant) :
    (∃ row db', db.row? runId = some row ∧ row.attemptToken = some t
      ∧ db.update runId status values (some t) now = (.ok (), db')
      ∧ Wrote db db' runId (updateValues status values now row)
      ∧ db'.stageEvents = db.stageEvents)
    ∨ (¬ Current db runId t
      ∧ db.update runId status values (some t) now = (.error (noLongerCurrent runId), db)) := by
  unfold Db.update Db.transaction
  dsimp only
  cases hr : db.row? runId with
  | none =>
      rw [rowcount_eq_zero hr, requireCurrentAttempt_zero]
      exact Or.inr ⟨not_current_of_none hr, rfl⟩
  | some row =>
      rw [rowcount_eq hr, current_iff hr]
      by_cases ht : row.attemptToken = some t
      · have hp : holdsToken (some t) row = true := by simp [holdsToken, ht]
        rw [if_pos hp, requireCurrentAttempt_one]
        exact Or.inl ⟨row, _, rfl, ht, rfl,
          ⟨row?_updateKey_self hr hp, fun _ hne => row?_updateKey_ne hne⟩, rfl⟩
      · have hp : ¬ holdsToken (some t) row = true := by simp [holdsToken, ht]
        rw [if_neg hp, requireCurrentAttempt_zero]
        exact Or.inr ⟨ht, rfl⟩

/-- **An unfenced `update`** always goes through, whatever the row holds. -/
theorem update_unfenced (db : Db) (runId : Int) (status : AnalysisStatus) (values : UpdateValues)
    (now : Instant) {row : AnalysisRow} (hr : db.row? runId = some row) :
    ∃ db', db.update runId status values none now = (.ok (), db')
      ∧ Wrote db db' runId (updateValues status values now row)
      ∧ db'.stageEvents = db.stageEvents := by
  unfold Db.update Db.transaction
  dsimp only
  rw [rowcount_eq hr, if_pos (show holdsToken none row = true from rfl), requireCurrentAttempt_one]
  exact ⟨_, rfl, ⟨row?_updateKey_self hr rfl, fun _ hne => row?_updateKey_ne hne⟩, rfl⟩

/-- It leaves the token of the row as it is. -/
theorem current_of_update_unfenced {status : AnalysisStatus} {values : UpdateValues}
    (hc : Current (db.update runId status values none now).2 runId t) : Current db runId t := by
  obtain ⟨row', hr', ht⟩ := hc
  cases hr : db.row? runId with
  | none =>
      have hnone : (db.update runId status values none now).2.row? runId = none :=
        row?_updateKey_none hr
      rw [hnone] at hr'
      exact absurd hr' (by simp)
  | some row =>
      obtain ⟨db', he, hw, _⟩ := update_unfenced db runId status values now hr
      rw [he, hw.self] at hr'
      rw [← Option.some.inj hr'] at ht
      exact ⟨row, hr, ht⟩

/-! ## `begin_analysis` -/

/-- **A fenced `begin_analysis`** installs its token exactly on a startable run. -/
theorem begin_fenced (db : Db) (runId : Int) (t : Token) (now : Instant) :
    (∃ row db', db.row? runId = some row ∧ (row.status = .queued ∨ row.status = .running)
      ∧ db.beginAnalysis runId (some t) now = (.ok (analysisStart row now), db')
      ∧ Wrote db db' runId (beginValues (some t) row now row)
      ∧ db'.stageEvents = db.stageEvents.map (supersedeEvent runId))
    ∨ (¬ Startable db runId
      ∧ ∃ message, db.beginAnalysis runId (some t) now = (.error (.superseded message), db)) := by
  unfold Db.beginAnalysis Db.transaction
  dsimp only
  cases hr : db.row? runId with
  | none => exact Or.inr ⟨not_startable_of_none hr, _, rfl⟩
  | some row =>
      dsimp only
      rw [rowcount_eq hr, startable_iff hr]
      by_cases hs : row.status = .queued ∨ row.status = .running
      · have hp : mayStart (some t) row = true := by simpa [mayStart] using hs
        rw [if_pos hp, requireCurrentAttempt_one]
        exact Or.inl ⟨row, _, rfl, hs, rfl,
          ⟨row?_updateKey_self hr hp, fun _ hne => row?_updateKey_ne hne⟩, rfl⟩
      · have hp : ¬ mayStart (some t) row = true := by simpa [mayStart] using hs
        rw [if_neg hp, requireCurrentAttempt_zero]
        exact Or.inr ⟨hs, _, rfl⟩

/-! ## `finish_analysis` -/

/-- **A fenced `finish_analysis`** clears the token exactly for the current attempt. -/
theorem finish_fenced (db : Db) (runId : Int) (startedAt : Instant) (status : AnalysisStatus)
    (t : Token) (now : Instant) :
    (∃ row db', db.row? runId = some row ∧ row.attemptToken = some t
      ∧ db.finishAnalysis runId startedAt status (some t) now
          = (.ok (max 0 (totalSeconds (now - row.createdAt))), db')
      ∧ Wrote db db' runId (finishValues status startedAt now row.createdAt row)
      ∧ db'.stageEvents = db.stageEvents)
    ∨ (¬ Current db runId t
      ∧ ∃ message, db.finishAnalysis runId startedAt status (some t) now
          = (.error (.superseded message), db)) := by
  unfold Db.finishAnalysis Db.transaction
  dsimp only
  cases hr : db.row? runId with
  | none => exact Or.inr ⟨not_current_of_none hr, _, rfl⟩
  | some row =>
      dsimp only
      rw [rowcount_eq hr, current_iff hr]
      by_cases ht : row.attemptToken = some t
      · have hp : holdsToken (some t) row = true := by simp [holdsToken, ht]
        rw [if_pos hp, requireCurrentAttempt_one]
        exact Or.inl ⟨row, _, rfl, ht, rfl,
          ⟨row?_updateKey_self hr hp, fun _ hne => row?_updateKey_ne hne⟩, rfl⟩
      · have hp : ¬ holdsToken (some t) row = true := by simp [holdsToken, ht]
        rw [if_neg hp, requireCurrentAttempt_zero]
        exact Or.inr ⟨ht, _, rfl⟩

/-! ## `record_stage` -/

/-- **A fenced `record_stage`** appends its event exactly for the current attempt. -/
theorem recordStage_fenced (db : Db) (runId : Int) (stage : AnalysisStage) (status : StageStatus)
    (error : Option String) (t : Token) (now : Instant) :
    (Current db runId t
      ∧ ∃ db', db.recordStage runId stage status error (some t) now = (.ok (), db')
        ∧ (∀ runId', db'.row? runId' = db.row? runId')
        ∧ db'.stageEvents = db.stageEvents ++ [db.newEvent runId stage status error now])
    ∨ (¬ Current db runId t
      ∧ db.recordStage runId stage status error (some t) now
          = (.error (noLongerCurrent runId), db)) := by
  unfold Db.recordStage Db.transaction
  cases hr : db.row? runId with
  | none => exact Or.inr ⟨not_current_of_none hr, by simp [hr]⟩
  | some row =>
      rw [current_iff hr]
      by_cases ht : row.attemptToken = some t
      · refine Or.inl ⟨ht, { db with
            stageEvents := db.stageEvents ++ [db.newEvent runId stage status error now]
            nextEventId := db.nextEventId + 1 }, ?_, fun _ => rfl, rfl⟩
        simp [hr, Option.filter, holdsToken, ht]
      · exact Or.inr ⟨ht, by simp [hr, Option.filter, holdsToken, ht]⟩

end PipeLens.Proof
