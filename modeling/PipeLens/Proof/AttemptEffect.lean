import PipeLens.Pipeline
import PipeLens.Proof.StoreOps

/-!
# What a step of an attempt does to the store

Whatever place an attempt has reached, one step of it leaves the rows alone, or
writes the row of its run as the current attempt, or gives the run up. A step
that ends the call says how: superseded attempts return, finished ones return or
raise, and the only other way to raise is a `finish_analysis` that fails.
-/

namespace PipeLens.Proof

open PipeLens

variable {db db' : Db} {runId : Int} {fate : StoreFate} {now : Instant}

/-- No analysis differs. -/
def SameRows (db db' : Db) : Prop := ∀ runId, db'.row? runId = db.row? runId

theorem SameRows.refl (db : Db) : SameRows db db := fun _ => rfl

/-- The current attempt `t` wrote its row, which is now `status` under `token`. -/
def WroteAs (db db' : Db) (runId : Int) (t : Token) (status : AnalysisStatus)
    (token : Option Token) : Prop :=
  ∃ row row', db.row? runId = some row ∧ row.attemptToken = some t ∧ Wrote db db' runId row'
    ∧ row'.status = status ∧ row'.attemptToken = token

theorem WroteAs.current {t : Token} {status : AnalysisStatus} {token : Option Token}
    (h : WroteAs db db' runId t status token) : Current db runId t := by
  obtain ⟨row, _, hr, ht, _⟩ := h
  exact ⟨row, hr, ht⟩

/-! ## One store call -/

/-- A call whose operation went through shows that, or breaks with the commit in doubt. -/
theorem storeCall_ok {α : Type} {value : α} {db₁ : Db} {r : CallResult α}
    (h : storeCall db fate (.ok value, db₁) = (r, db')) :
    (r = .ok value ∧ db' = db₁)
    ∨ ((∃ message, r = .raised message) ∧ fate ≠ .answered ∧ (db' = db ∨ db' = db₁)) := by
  unfold storeCall at h
  cases fate with
  | answered =>
      obtain ⟨rfl, rfl⟩ := Prod.mk.inj h
      exact Or.inl ⟨rfl, rfl⟩
  | failed message =>
      obtain ⟨rfl, rfl⟩ := Prod.mk.inj h
      exact Or.inr ⟨⟨_, rfl⟩, by simp, Or.inl rfl⟩
  | unacknowledged message =>
      obtain ⟨rfl, rfl⟩ := Prod.mk.inj h
      exact Or.inr ⟨⟨_, rfl⟩, by simp, Or.inr rfl⟩

/-- A call whose operation raised leaves the database, whether the caller hears why or not. -/
theorem storeCall_superseded {α : Type} {message : String} {r : CallResult α}
    (h : storeCall db fate (.error (.superseded message), db) = (r, db')) :
    db' = db
    ∧ ((∃ message, r = .superseded message) ∨ (∃ message, r = .raised message) ∧ fate ≠ .answered)
    := by
  unfold storeCall at h
  cases fate with
  | answered =>
      obtain ⟨rfl, rfl⟩ := Prod.mk.inj h
      exact ⟨rfl, Or.inl ⟨_, rfl⟩⟩
  | failed message' =>
      obtain ⟨rfl, rfl⟩ := Prod.mk.inj h
      exact ⟨rfl, Or.inr ⟨⟨_, rfl⟩, by simp⟩⟩
  | unacknowledged message' =>
      obtain ⟨rfl, rfl⟩ := Prod.mk.inj h
      exact ⟨rfl, Or.inr ⟨⟨_, rfl⟩, by simp⟩⟩

theorem recordStage_call {a : Attempt} {stage : AnalysisStage} {status : StageStatus}
    {error : Option String} {r : CallResult Unit}
    (h : a.recordStage db runId stage status error fate now = (r, db')) :
    SameRows db db'
    ∧ ((r = .ok () ∧ Current db runId a.token)
      ∨ (∃ message, r = .superseded message) ∧ ¬ Current db runId a.token
      ∨ ∃ message, r = .raised message) := by
  unfold Attempt.recordStage at h
  rcases recordStage_fenced db runId stage status error a.token now with
    ⟨hc, db₁, he, hrows, _⟩ | ⟨hn, he⟩
  · rw [he] at h
    rcases storeCall_ok h with ⟨hr, rfl⟩ | ⟨hr, _, rfl | rfl⟩
    · exact ⟨hrows, Or.inl ⟨hr, hc⟩⟩
    · exact ⟨SameRows.refl db', Or.inr (Or.inr hr)⟩
    · exact ⟨hrows, Or.inr (Or.inr hr)⟩
  · rw [he] at h
    obtain ⟨rfl, hr⟩ := storeCall_superseded h
    rcases hr with hr | ⟨hr, _⟩
    · exact ⟨SameRows.refl db', Or.inr (Or.inl ⟨hr, hn⟩)⟩
    · exact ⟨SameRows.refl db', Or.inr (Or.inr hr)⟩

theorem update_call {a : Attempt} {values : UpdateValues} {r : CallResult Unit}
    (h : a.update db runId values fate now = (r, db')) :
    (WroteAs db db' runId a.token .running (some a.token)
      ∧ (r = .ok () ∨ ∃ message, r = .raised message))
    ∨ (SameRows db db'
      ∧ ((∃ message, r = .superseded message) ∧ ¬ Current db runId a.token
        ∨ ∃ message, r = .raised message)) := by
  unfold Attempt.update at h
  rcases update_fenced db runId .running { values with error := none } a.token now with
    ⟨row, db₁, hrow, ht, he, hw, _⟩ | ⟨hn, he⟩
  · rw [he] at h
    have hwrote : WroteAs db db₁ runId a.token .running (some a.token) :=
      ⟨row, _, hrow, ht, hw, rfl, ht⟩
    rcases storeCall_ok h with ⟨hr, rfl⟩ | ⟨hr, _, rfl | rfl⟩
    · exact Or.inl ⟨hwrote, Or.inl hr⟩
    · exact Or.inr ⟨SameRows.refl db', Or.inr hr⟩
    · exact Or.inl ⟨hwrote, Or.inr hr⟩
  · rw [he] at h
    obtain ⟨rfl, hr⟩ := storeCall_superseded h
    rcases hr with hr | ⟨hr, _⟩
    · exact Or.inr ⟨SameRows.refl db', Or.inl ⟨hr, hn⟩⟩
    · exact Or.inr ⟨SameRows.refl db', Or.inr hr⟩

theorem finish_call {a : Attempt} {status : AnalysisStatus} {r : CallResult Seconds}
    (h : a.finish db runId status fate now = (r, db')) :
    (WroteAs db db' runId a.token status none
      ∧ ((∃ latency, r = .ok latency) ∨ (∃ message, r = .raised message) ∧ fate ≠ .answered))
    ∨ (SameRows db db'
      ∧ ((∃ message, r = .superseded message) ∧ ¬ Current db runId a.token
        ∨ (∃ message, r = .raised message) ∧ fate ≠ .answered)) := by
  unfold Attempt.finish at h
  rcases finish_fenced db runId a.startedAt status a.token now with
    ⟨row, db₁, hrow, ht, he, hw, _⟩ | ⟨hn, message, he⟩
  · rw [he] at h
    have hwrote : WroteAs db db₁ runId a.token status none := ⟨row, _, hrow, ht, hw, rfl, rfl⟩
    rcases storeCall_ok h with ⟨hr, rfl⟩ | ⟨hr, hf, rfl | rfl⟩
    · exact Or.inl ⟨hwrote, Or.inl ⟨_, hr⟩⟩
    · exact Or.inr ⟨SameRows.refl db', Or.inr ⟨hr, hf⟩⟩
    · exact Or.inl ⟨hwrote, Or.inr ⟨hr, hf⟩⟩
  · rw [he] at h
    obtain ⟨rfl, hr⟩ := storeCall_superseded h
    rcases hr with hr | hr
    · exact Or.inr ⟨SameRows.refl db', Or.inl ⟨hr, hn⟩⟩
    · exact Or.inr ⟨SameRows.refl db', Or.inr hr⟩

/-! ## `begin_analysis` as the start of an attempt -/

/-- What the first call of `analyze` can do. -/
inductive BeginEffect (db : Db) (runId : Int) (t : Token) (fate : StoreFate) :
    Progress → Db → Prop where
  /-- The attempt is now the current one. -/
  | begun {db' : Db} (a : Attempt) (row' : AnalysisRow) (token : a.token = t)
      (pc : a.pc = .enter .collecting) (wrote : Wrote db db' runId row')
      (status : row'.status = .running) (current : row'.attemptToken = some t)
      (startable : Startable db runId) : BeginEffect db runId t fate (.running a) db'
  | refused (h : ¬ Startable db runId) : BeginEffect db runId t fate .returned db
  | broke (message : String) (h : fate ≠ .answered) :
      BeginEffect db runId t fate (.raised message) db
  /-- The attempt is the current one, but its caller does not know. -/
  | brokeBegun {db' : Db} (message : String) (h : fate ≠ .answered) (row' : AnalysisRow)
      (wrote : Wrote db db' runId row') (status : row'.status = .running)
      (current : row'.attemptToken = some t) (startable : Startable db runId) :
      BeginEffect db runId t fate (.raised message) db'

theorem beginEffect (db : Db) (runId : Int) (t : Token) (fate : StoreFate) (now : Instant) :
    BeginEffect db runId t fate (beginAttempt db runId t fate now).1
      (beginAttempt db runId t fate now).2 := by
  unfold beginAttempt storeCall
  rcases begin_fenced db runId t now with ⟨row, db₁, hr, hs, he, hw, _⟩ | ⟨hn, message, he⟩
  · rw [he]
    cases fate with
    | answered => exact .begun _ _ rfl rfl hw rfl rfl ⟨row, hr, hs⟩
    | failed message => exact .broke message (by simp)
    | unacknowledged message => exact .brokeBegun message (by simp) _ hw rfl rfl ⟨row, hr, hs⟩
  · rw [he]
    cases fate with
    | answered => exact .refused hn
    | failed message' => exact .broke message' (by simp)
    | unacknowledged message' => exact .broke message' (by simp)

/-! ## The steps after it -/

/-- The next store call is `finish_analysis`. -/
def finishing : AnalyzePc → Bool
  | .finishCompleted => true
  | .finishFailed _ => true
  | _ => false

/-- The step is a `finish_analysis` that fails. -/
def FinishBreaks (a : Attempt) : AnalyzeEvent → Prop
  | .store fate _ _ => finishing a.pc = true ∧ fate ≠ .answered
  | _ => False

instance (a : Attempt) (e : AnalyzeEvent) : Decidable (FinishBreaks a e) := by
  apply AnalyzeEvent.casesOn (motive := fun e => Decidable (FinishBreaks a e)) e <;> intros <;>
    dsimp only [FinishBreaks] <;> infer_instance

/-- The attempt knows that it has been superseded and only has to leave its stage. -/
def GivenUp (a : Attempt) : Prop := ∃ stage message, a.pc = .fail stage message true

/-- What a step of an attempt can do. -/
inductive AttemptEffect (db : Db) (runId : Int) (a : Attempt) (e : AnalyzeEvent) :
    Progress → Db → Prop where
  | quiet {db' : Db} (a' : Attempt) (token : a'.token = a.token) (same : SameRows db db')
      (givenUp : GivenUp a' → ¬ Current db runId a.token) :
      AttemptEffect db runId a e (.running a') db'
  | wrote {db' : Db} (a' : Attempt) (token : a'.token = a.token)
      (wrote : WroteAs db db' runId a.token .running (some a.token)) (givenUp : ¬ GivenUp a') :
      AttemptEffect db runId a e (.running a') db'
  | superseded {db' : Db} (h : ¬ Current db runId a.token ∨ GivenUp a) (same : SameRows db db') :
      AttemptEffect db runId a e .returned db'
  | completed {db' : Db} (wrote : WroteAs db db' runId a.token .completed none) :
      AttemptEffect db runId a e .returned db'
  | failed {db' : Db} (message : String) (wrote : WroteAs db db' runId a.token .failed none) :
      AttemptEffect db runId a e (.raised message) db'
  | broke {db' : Db} (message : String) (h : FinishBreaks a e) (same : SameRows db db') :
      AttemptEffect db runId a e (.raised message) db'
  | brokeFinished {db' : Db} (message : String) (status : AnalysisStatus) (h : FinishBreaks a e)
      (wrote : WroteAs db db' runId a.token status none)
      (done : status ≠ .queued ∧ status ≠ .running) :
      AttemptEffect db runId a e (.raised message) db'

/-- Moving on to a place where the attempt has not given up. -/
theorem AttemptEffect.goOn {a : Attempt} {e : AnalyzeEvent} {pc : AnalyzePc}
    (same : SameRows db db') (hpc : ∀ stage message, pc ≠ .fail stage message true) :
    AttemptEffect db runId a e (.running { a with pc := pc }) db' :=
  .quiet _ rfl same fun ⟨stage, message, he⟩ => absurd he (hpc stage message)

theorem next_ne_fail (stage stage' : AnalysisStage) (message : String) (superseded : Bool) :
    stage.next ≠ .fail stage' message superseded := by
  cases stage <;> simp [AnalysisStage.next]

theorem proceed_recordStage {a : Attempt} {e : AnalyzeEvent} {pc : AnalyzePc}
    {stage : AnalysisStage} {status : StageStatus} {error : Option String}
    (hpc : ∀ stage message, pc ≠ .fail stage message true) :
    AttemptEffect db runId a e
      (a.proceed pc (a.recordStage db runId stage status error fate now)).1
      (a.proceed pc (a.recordStage db runId stage status error fate now)).2 := by
  cases hr : a.recordStage db runId stage status error fate now with
  | mk r db' =>
      obtain ⟨hsame, hres⟩ := recordStage_call hr
      unfold Attempt.proceed
      rcases hres with ⟨rfl, _⟩ | ⟨⟨message, rfl⟩, hn⟩ | ⟨message, rfl⟩
      · exact .goOn hsame hpc
      · exact .superseded (Or.inl hn) hsame
      · exact .goOn hsame (by simp)

theorem proceed_update {a : Attempt} {e : AnalyzeEvent} {pc : AnalyzePc} {values : UpdateValues}
    (hpc : ∀ stage message, pc ≠ .fail stage message true) :
    AttemptEffect db runId a e (a.proceed pc (a.update db runId values fate now)).1
      (a.proceed pc (a.update db runId values fate now)).2 := by
  cases hr : a.update db runId values fate now with
  | mk r db' =>
      unfold Attempt.proceed
      rcases update_call hr with
        ⟨hw, rfl | ⟨message, rfl⟩⟩ | ⟨hsame, ⟨⟨message, rfl⟩, hn⟩ | ⟨message, rfl⟩⟩
      · exact .wrote _ rfl hw fun ⟨stage, message, he⟩ => absurd he (hpc stage message)
      · exact .wrote _ rfl hw (by simp [GivenUp])
      · exact .superseded (Or.inl hn) hsame
      · exact .goOn hsame (by simp)

theorem trustUpdate_effect {a : Attempt} {e : AnalyzeEvent} {values : UpdateValues} {p : Progress}
    (h : (match (a.update db runId values fate now).1 with
      | .ok () => some (Progress.running { a with pc := .leave .collecting },
          (a.update db runId values fate now).2)
      | .superseded message => some (.running { a with pc := .fail .collecting message true },
          (a.update db runId values fate now).2)
      | .raised message => some (.running { a with pc := .fail .collecting message false },
          (a.update db runId values fate now).2)) = some (p, db')) :
    AttemptEffect db runId a e p db' := by
  cases hr : a.update db runId values fate now with
  | mk r db₁ =>
      rw [hr] at h
      rcases update_call hr with
        ⟨hw, rfl | ⟨message, rfl⟩⟩ | ⟨hsame, ⟨⟨message, rfl⟩, hn⟩ | ⟨message, rfl⟩⟩
      · obtain ⟨rfl, rfl⟩ := Prod.mk.inj (Option.some.inj h)
        exact .wrote _ rfl hw (by simp [GivenUp])
      · obtain ⟨rfl, rfl⟩ := Prod.mk.inj (Option.some.inj h)
        exact .wrote _ rfl hw (by simp [GivenUp])
      · obtain ⟨rfl, rfl⟩ := Prod.mk.inj (Option.some.inj h)
        exact .quiet _ rfl hsame fun _ => hn
      · obtain ⟨rfl, rfl⟩ := Prod.mk.inj (Option.some.inj h)
        exact .goOn hsame (by simp)

theorem fail_effect {a : Attempt} {e : AnalyzeEvent} {stage : AnalysisStage} {message : String}
    {superseded : Bool} {p : Progress} {r : CallResult Unit × Db}
    (hres : SameRows db r.2
      ∧ ((r.1 = .ok () ∧ Current db runId a.token)
        ∨ (∃ message, r.1 = .superseded message) ∧ ¬ Current db runId a.token
        ∨ ∃ message, r.1 = .raised message))
    (hpc : a.pc = .fail stage message superseded)
    (h : (if superseded then
        match r.1 with
        | .raised message' => some (.running { a with pc := .finishFailed message' }, r.2)
        | _ => some (.returned, r.2)
      else some (a.proceed (.finishFailed message) r)) = some (p, db')) :
    AttemptEffect db runId a e p db' := by
  obtain ⟨hsame, hres⟩ := hres
  obtain ⟨res, db₁⟩ := r
  dsimp only at hsame hres
  cases superseded with
  | true =>
      rw [if_pos rfl] at h
      rcases hres with ⟨rfl, _⟩ | ⟨⟨message', rfl⟩, _⟩ | ⟨message', rfl⟩
      · obtain ⟨rfl, rfl⟩ := Prod.mk.inj (Option.some.inj h)
        exact .superseded (Or.inr ⟨stage, message, hpc⟩) hsame
      · obtain ⟨rfl, rfl⟩ := Prod.mk.inj (Option.some.inj h)
        exact .superseded (Or.inr ⟨stage, message, hpc⟩) hsame
      · obtain ⟨rfl, rfl⟩ := Prod.mk.inj (Option.some.inj h)
        exact .goOn hsame (by simp)
  | false =>
      rw [if_neg (by simp)] at h
      unfold Attempt.proceed at h
      rcases hres with ⟨rfl, _⟩ | ⟨⟨message', rfl⟩, hn⟩ | ⟨message', rfl⟩
      · obtain ⟨rfl, rfl⟩ := Prod.mk.inj (Option.some.inj h)
        exact .goOn hsame (by simp)
      · obtain ⟨rfl, rfl⟩ := Prod.mk.inj (Option.some.inj h)
        exact .superseded (Or.inl hn) hsame
      · obtain ⟨rfl, rfl⟩ := Prod.mk.inj (Option.some.inj h)
        exact .goOn hsame (by simp)

theorem finish_effect {a : Attempt} {values : UpdateValues} {status : AnalysisStatus}
    {ended p : Progress}
    (hstatus : (status = .completed ∧ ended = .returned)
      ∨ status = .failed ∧ ∃ message, ended = .raised message)
    (hpc : finishing a.pc = true)
    (h : (match (a.finish db runId status fate now).1 with
      | .ok _ => some (ended, (a.finish db runId status fate now).2)
      | .superseded _ => some (.returned, (a.finish db runId status fate now).2)
      | .raised message => some (.raised message, (a.finish db runId status fate now).2))
        = some (p, db')) :
    AttemptEffect db runId a (.store fate values now) p db' := by
  cases hr : a.finish db runId status fate now with
  | mk r db₁ =>
      rw [hr] at h
      rcases finish_call hr with
        ⟨hw, ⟨latency, rfl⟩ | ⟨⟨message, rfl⟩, hf⟩⟩
        | ⟨hsame, ⟨⟨message, rfl⟩, hn⟩ | ⟨⟨message, rfl⟩, hf⟩⟩
      · obtain ⟨rfl, rfl⟩ := Prod.mk.inj (Option.some.inj h)
        rcases hstatus with ⟨rfl, rfl⟩ | ⟨rfl, message, rfl⟩
        · exact .completed hw
        · exact .failed message hw
      · obtain ⟨rfl, rfl⟩ := Prod.mk.inj (Option.some.inj h)
        refine .brokeFinished message status ⟨hpc, hf⟩ hw ?_
        rcases hstatus with ⟨rfl, _⟩ | ⟨rfl, _⟩ <;> simp
      · obtain ⟨rfl, rfl⟩ := Prod.mk.inj (Option.some.inj h)
        exact .superseded (Or.inl hn) hsame
      · obtain ⟨rfl, rfl⟩ := Prod.mk.inj (Option.some.inj h)
        exact .broke message ⟨hpc, hf⟩ hsame

/-- **Every step of an attempt is one of these.** -/
theorem attemptEffect {a : Attempt} {e : AnalyzeEvent} {p : Progress}
    (h : a.step db runId e = some (p, db')) : AttemptEffect db runId a e p db' := by
  unfold Attempt.step at h
  cases e with
  | bodyCompleted =>
      dsimp only at h
      split at h
      · obtain ⟨rfl, rfl⟩ := Prod.mk.inj (Option.some.inj h)
        exact .goOn (SameRows.refl db) (by simp)
      · obtain ⟨rfl, rfl⟩ := Prod.mk.inj (Option.some.inj h)
        exact .goOn (SameRows.refl db) (by simp)
      · exact absurd h (by simp)
  | bodyRaised message =>
      dsimp only at h
      split at h
      · obtain ⟨rfl, rfl⟩ := Prod.mk.inj (Option.some.inj h)
        exact .goOn (SameRows.refl db) (by simp)
      · exact absurd h (by simp)
  | store fate values now =>
      dsimp only at h
      split at h
      · exact absurd h (by simp)
      · rw [← (Prod.mk.inj (Option.some.inj h)).1, ← (Prod.mk.inj (Option.some.inj h)).2]
        exact proceed_recordStage (by simp)
      · exact trustUpdate_effect h
      · rw [← (Prod.mk.inj (Option.some.inj h)).1, ← (Prod.mk.inj (Option.some.inj h)).2]
        exact proceed_recordStage fun stage message => next_ne_fail _ stage message true
      · rename_i stage message superseded hpc
        exact fail_effect (recordStage_call rfl) hpc h
      · rw [← (Prod.mk.inj (Option.some.inj h)).1, ← (Prod.mk.inj (Option.some.inj h)).2]
        exact proceed_update (by simp)
      · rename_i message hpc
        exact finish_effect (Or.inr ⟨rfl, message, rfl⟩) (by rw [hpc]; rfl) h
      · rename_i hpc
        exact finish_effect (Or.inl ⟨rfl, rfl⟩) (by rw [hpc]; rfl) h

/-- A step of an attempt makes no attempt the current one. -/
theorem AttemptEffect.current_back {runId' : Int} {a : Attempt} {e : AnalyzeEvent} {p : Progress}
    {t : Token} (h : AttemptEffect db runId a e p db') (hc : Current db' runId' t) :
    Current db runId' t := by
  have hsame : SameRows db db' → Current db runId' t := by
    intro same
    obtain ⟨row, hr, ht⟩ := hc
    exact ⟨row, by rw [← same]; exact hr, ht⟩
  have hwrote : ∀ {status token}, WroteAs db db' runId a.token status token →
      (∀ t, token = some t → t = a.token) → Current db runId' t := by
    rintro status token ⟨row, row', hr, hown, hw, _, htok⟩ htoken
    by_cases hne : runId' = runId
    · subst hne
      rw [current_iff hw.self, htok] at hc
      exact ⟨row, hr, by rw [htoken t hc]; exact hown⟩
    · obtain ⟨row'', hr'', ht⟩ := hc
      exact ⟨row'', by rw [← hw.other _ hne]; exact hr'', ht⟩
  cases h with
  | quiet a' _ same _ => exact hsame same
  | wrote a' _ hw _ => exact hwrote hw fun t ht => (Option.some.inj ht).symm
  | superseded _ same => exact hsame same
  | completed hw => exact hwrote hw (by simp)
  | failed message hw => exact hwrote hw (by simp)
  | broke message _ same => exact hsame same
  | brokeFinished message status _ hw _ => exact hwrote hw (by simp)

/-! ## Entering a stage -/

theorem proceed_running {a a' : Attempt} {pc : AnalyzePc} {r : CallResult Unit × Db}
    (h : (a.proceed pc r).1 = .running a') :
    (r.1 = .ok () ∧ a'.pc = pc) ∨ ∃ message, a'.pc = .finishFailed message := by
  unfold Attempt.proceed at h
  split at h
  · rename_i hr
    rw [← Progress.running.inj h]
    exact Or.inl ⟨hr, rfl⟩
  · exact absurd h (by simp)
  · rename_i message _
    rw [← Progress.running.inj h]
    exact Or.inr ⟨message, rfl⟩

/-- **Only the current attempt enters a stage.** -/
theorem body_entered {a a' : Attempt} {e : AnalyzeEvent} {stage : AnalysisStage}
    (h : a.step db runId e = some (.running a', db')) (hpc : a'.pc = .body stage) :
    a.pc = .enter stage ∧ Current db runId a.token := by
  have hproceed : ∀ {pc : AnalyzePc} {r : CallResult Unit × Db},
      some (a.proceed pc r) = some (.running a', db') →
      pc = .body stage ∧ r.1 = .ok () := by
    intro pc r he
    rcases proceed_running (congrArg Prod.fst (Option.some.inj he)) with ⟨hr, ha⟩ | ⟨message, ha⟩
    · exact ⟨ha.symm.trans hpc, hr⟩
    · rw [hpc] at ha
      exact absurd ha (by simp)
  have hother : ∀ {a'' : Attempt} {store : Db}, a''.pc ≠ .body stage →
      some (Progress.running a'', store) = some (.running a', db') →
      a.pc = .enter stage ∧ Current db runId a.token := by
    intro a'' store hne he
    obtain ⟨ha, _⟩ := Prod.mk.inj (Option.some.inj he)
    rw [Progress.running.inj ha] at hne
    exact absurd hpc hne
  unfold Attempt.step at h
  cases e with
  | bodyCompleted =>
      dsimp only at h
      split at h
      · exact hother (by simp) h
      · exact hother (by simp) h
      · exact absurd h (by simp)
  | bodyRaised message =>
      dsimp only at h
      split at h
      · exact hother (by simp) h
      · exact absurd h (by simp)
  | store fate values now =>
      dsimp only at h
      split at h
      · exact absurd h (by simp)
      · rename_i stage' henter
        obtain ⟨hstage, hr⟩ := hproceed h
        cases hstage
        cases hcall : a.recordStage db runId stage .started none fate now with
        | mk res store =>
            rw [hcall] at hr
            rcases (recordStage_call hcall).2 with ⟨_, hc⟩ | ⟨⟨message, rfl⟩, _⟩ | ⟨message, rfl⟩
            · exact ⟨henter, hc⟩
            · exact absurd hr (by simp)
            · exact absurd hr (by simp)
      · split at h <;> exact hother (by simp) h
      · rename_i stage' _
        obtain ⟨hstage, _⟩ := hproceed h
        cases stage' <;> exact absurd hstage (by simp [AnalysisStage.next])
      · split at h
        · split at h
          · exact hother (by simp) h
          · exact absurd h (by simp)
        · exact absurd (hproceed h).1 (by simp)
      · exact absurd (hproceed h).1 (by simp)
      · split at h <;> exact absurd h (by simp)
      · split at h <;> exact absurd h (by simp)

end PipeLens.Proof
