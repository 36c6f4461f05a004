import PipeLens.Proof.Pagination

/-!
# Installations see only their own

Two databases that agree on what belongs to a set of installations cannot be told
apart by a caller who is confined to that set, neither by the records nor by a cursor.
The argument is the same for each query: every row it reads has passed the condition
on the installation, so it reads the same rows of both, and the order in which they
are stored is lost in the sort.
-/

namespace PipeLens.Proof

open PipeLens Keyset

/-- The analysis belongs to one of the installations. -/
def Owned (installations : Finset Int) (row : AnalysisRow) : Prop :=
  installationIn (some installations) row = true

/-- The two databases agree on the analyses of `installations`, their feedback and their events. -/
structure AgreeOn (installations : Finset Int) (db db' : Database) : Prop where
  analyses : ∀ row, Owned installations row → (row ∈ db.analyses.rows ↔ row ∈ db'.analyses.rows)
  feedback : ∀ row ∈ db.analyses.rows, Owned installations row → ∀ f : FeedbackRecord,
    f.runId = row.runId → (f ∈ db.feedback.rows ↔ f ∈ db'.feedback.rows)
  events : ∀ row ∈ db.analyses.rows, Owned installations row → ∀ event : StageEvent,
    event.runId = row.runId → (event ∈ db.stageEvents ↔ event ∈ db'.stageEvents)

section Agree

variable {installations : Finset Int} {db db' : Database}

/-! ## What each query reads -/

theorem AgreeOn.row (h : AgreeOn installations db db') (runId : Int) :
    (db.row? runId).filter (installationIn (some installations))
      = (db'.row? runId).filter (installationIn (some installations)) := by
  ext row
  have hfind : ∀ db : Database, db.row? runId = some row ↔ row ∈ db.analyses.rows
      ∧ row.runId = runId := by
    intro db
    constructor
    · exact fun hrow => ⟨Table.mem_of_find? hrow, Table.key_of_find? hrow⟩
    · rintro ⟨hmem, rfl⟩
      exact Table.find?_of_mem hmem
  simp only [Option.filter_eq_some_iff, hfind]
  constructor
  · rintro ⟨⟨hmem, hid⟩, hown⟩
    exact ⟨⟨(h.analyses row hown).mp hmem, hid⟩, hown⟩
  · rintro ⟨⟨hmem, hid⟩, hown⟩
    exact ⟨⟨(h.analyses row hown).mpr hmem, hid⟩, hown⟩

theorem AgreeOn.feedback? (h : AgreeOn installations db db') {row : AnalysisRow}
    (hrow : row ∈ db.analyses.rows) (hown : Owned installations row) :
    db.feedback.find? row.runId = db'.feedback.find? row.runId := by
  ext f
  constructor
  · intro hf
    have hid := Table.key_of_find? hf
    rw [← hid]
    exact Table.find?_of_mem ((h.feedback row hrow hown f hid).mp (Table.mem_of_find? hf))
  · intro hf
    have hid := Table.key_of_find? hf
    rw [← hid]
    exact Table.find?_of_mem ((h.feedback row hrow hown f hid).mpr (Table.mem_of_find? hf))

/-- Events of one id are one event. -/
theorem event_eq_of_id {a b : StageEvent} (ha : a ∈ db.stageEvents) (hb : b ∈ db.stageEvents)
    (hid : a.id = b.id) : a = b :=
  List.inj_on_of_nodup_map db.eventIds ha hb hid

theorem AgreeOn.stageHistory (h : AgreeOn installations db db') (runIds : List Int)
    (hruns : ∀ runId ∈ runIds, ∃ row ∈ db.analyses.rows, Owned installations row
      ∧ row.runId = runId) (runId : Int) :
    db.stageHistory runIds runId = db'.stageHistory runIds runId := by
  unfold Database.stageHistory
  by_cases hin : runId ∈ runIds
  · rw [if_pos hin, if_pos hin]
    have hmem : ∀ event : StageEvent, event.runId ∈ runIds →
        (event ∈ db.stageEvents ↔ event ∈ db'.stageEvents) := by
      intro event hevent
      obtain ⟨row, hrow, hown, hid⟩ := hruns event.runId hevent
      exact h.events row hrow hown event hid.symm
    have hsorted : ∀ db : Database, (((db.stageEvents.filter
        fun event => decide (event.runId ∈ runIds)).insertionSort fun a b => a.id ≤ b.id).filter
          fun event => decide (event.runId = runId)).Pairwise fun a b => a.id ≤ b.id := by
      intro db
      have : Std.Total fun a b : StageEvent => a.id ≤ b.id := ⟨fun a b => le_total a.id b.id⟩
      have : IsTrans StageEvent fun a b => a.id ≤ b.id := ⟨fun _ _ _ => le_trans⟩
      exact (List.pairwise_insertionSort _ _).sublist List.filter_sublist
    have hnodup : ∀ db : Database, (((db.stageEvents.filter
        fun event => decide (event.runId ∈ runIds)).insertionSort fun a b => a.id ≤ b.id).filter
          fun event => decide (event.runId = runId)).Nodup := by
      intro db
      refine List.Nodup.filter _ ((List.perm_insertionSort _ _).nodup_iff.mpr ?_)
      exact (List.Nodup.of_map _ db.eventIds).filter _
    have hperm := (List.perm_ext_iff_of_nodup (hnodup db) (hnodup db')).mpr fun event => by
      simp only [List.mem_filter, List.mem_insertionSort, decide_eq_true_eq]
      constructor
      · rintro ⟨⟨hold, hrun⟩, hid⟩
        exact ⟨⟨(hmem event hrun).mp hold, hrun⟩, hid⟩
      · rintro ⟨⟨hold, hrun⟩, hid⟩
        exact ⟨⟨(hmem event hrun).mpr hold, hrun⟩, hid⟩
    refine congrArg (List.map StageEvent.view) (List.Perm.eq_of_pairwise ?_ (hsorted db)
      (hsorted db') hperm)
    intro a b ha hb hab hba
    simp only [List.mem_filter, List.mem_insertionSort, decide_eq_true_eq] at ha hb
    exact event_eq_of_id ((hmem a ha.1.2).mp ha.1.1) hb.1.1 (le_antisymm hab hba)
  · rw [if_neg hin, if_neg hin]

/-- What `list_page` sorts. -/
theorem AgreeOn.ordered (h : AgreeOn installations db db') (filter : AnalysisFilter)
    (cursor : Option AnalysisCursor) (hfilter : filter.installationIds = some installations) :
    orderDesc listKey (db.analyses.select fun row => filter.matches row && afterCursor cursor row)
      = orderDesc listKey
          (db'.analyses.select fun row => filter.matches row && afterCursor cursor row) := by
  have hnodup : ∀ db : Database, ((db.analyses.select fun row =>
      filter.matches row && afterCursor cursor row).map listKey).Nodup := by
    intro db
    refine List.Nodup.of_map (fun k => (ofLex k).2) ?_
    rw [List.map_map]
    exact db.analyses.nodup.sublist (List.filter_sublist.map _)
  refine orderDesc_congr (hnodup db) ?_
  refine (List.perm_ext_iff_of_nodup (List.Nodup.of_map _ (hnodup db))
    (List.Nodup.of_map _ (hnodup db'))).mpr fun row => ?_
  have hown : filter.matches row = true → Owned installations row := by
    intro hmatch
    unfold AnalysisFilter.matches at hmatch
    simp only [Bool.and_eq_true, hfilter] at hmatch
    exact hmatch.1.1.1
  simp only [Table.select, List.mem_filter, Bool.and_eq_true]
  constructor
  · rintro ⟨hmem, hmatch, hcursor⟩
    exact ⟨(h.analyses row (hown hmatch)).mp hmem, hmatch, hcursor⟩
  · rintro ⟨hmem, hmatch, hcursor⟩
    exact ⟨(h.analyses row (hown hmatch)).mpr hmem, hmatch, hcursor⟩

/-! ## The queries -/

theorem AgreeOn.get (h : AgreeOn installations db db') (runId : Int) :
    db.get runId (some installations) = db'.get runId (some installations) := by
  unfold Database.get
  rw [← h.row runId]
  cases hrow : (db.row? runId).filter (installationIn (some installations)) with
  | none => rfl
  | some row =>
      obtain ⟨hfind, hown⟩ := Option.filter_eq_some_iff.mp hrow
      have hmem : row ∈ db.analyses.rows := Table.mem_of_find? hfind
      have hid : row.runId = runId := Table.key_of_find? hfind
      have hstages := h.stageHistory [runId] (fun r hr => by
        rw [List.mem_singleton.mp hr]
        exact ⟨row, hmem, hown, hid⟩) runId
      simp only [h.feedback? hmem hown, hstages]

theorem mapM_congr {α β ε : Type} {f g : α → Except ε β} {xs : List α} (h : ∀ x ∈ xs, f x = g x) :
    xs.mapM f = xs.mapM g := by
  induction xs with
  | nil => rfl
  | cons x xs ih =>
      rw [List.mapM_cons, List.mapM_cons, h x List.mem_cons_self,
        ih fun y hy => h y (List.mem_cons_of_mem _ hy)]

theorem mem_of_mem_pySlice {α : Type} {n : Int} {xs : List α} {x : α} (h : x ∈ pySlice n xs) :
    x ∈ xs := by
  unfold pySlice at h
  split at h <;> exact List.mem_of_mem_take h

theorem mem_of_sqlLimit {α : Type} {backend : Backend} {n : Int} {xs ys : List α} {x : α}
    (h : sqlLimit backend n xs = .ok ys) (hx : x ∈ ys) : x ∈ xs := by
  unfold sqlLimit at h
  split at h
  · rw [← Except.ok.inj h] at hx
    exact List.mem_of_mem_take hx
  · split at h
    · rw [← Except.ok.inj h] at hx
      exact hx
    · exact absurd h (by simp)

theorem AgreeOn.listPage (h : AgreeOn installations db db') (backend : Backend) (limit : Int)
    (filter : AnalysisFilter) (cursor : Option AnalysisCursor)
    (hfilter : filter.installationIds = some installations) :
    db.listPage backend limit filter cursor = db'.listPage backend limit filter cursor := by
  unfold Database.listPage
  by_cases hempty : filter.installationIds = some ∅
  · rw [if_pos hempty, if_pos hempty]
  rw [if_neg hempty, if_neg hempty, ← h.ordered filter cursor hfilter]
  cases hrows : sqlLimit backend (limit + 1) (orderDesc listKey
      (db.analyses.select fun row => filter.matches row && afterCursor cursor row)) with
  | error e => rfl
  | ok rows =>
      have howned : ∀ row ∈ pySlice limit rows, row ∈ db.analyses.rows
          ∧ Owned installations row := by
        intro row hrow
        have hmem := mem_orderDesc.mp (mem_of_sqlLimit hrows (mem_of_mem_pySlice hrow))
        obtain ⟨hstored, hcond⟩ := List.mem_filter.mp hmem
        simp only [Bool.and_eq_true, AnalysisFilter.matches, hfilter] at hcond
        exact ⟨hstored, hcond.1.1.1.1⟩
      have hruns : ∀ runId ∈ (pySlice limit rows).map AnalysisRow.runId,
          ∃ row ∈ db.analyses.rows, Owned installations row ∧ row.runId = runId := by
        intro runId hrun
        obtain ⟨row, hrow, rfl⟩ := List.mem_map.mp hrun
        exact ⟨row, (howned row hrow).1, (howned row hrow).2, rfl⟩
      have hrecords : (pySlice limit rows).mapM (fun row =>
            toRecord row (db.feedback.find? row.runId)
              (db.stageHistory ((pySlice limit rows).map AnalysisRow.runId) row.runId))
          = (pySlice limit rows).mapM (fun row =>
            toRecord row (db'.feedback.find? row.runId)
              (db'.stageHistory ((pySlice limit rows).map AnalysisRow.runId) row.runId)) := by
        refine mapM_congr fun row hrow => ?_
        rw [h.feedback? (howned row hrow).1 (howned row hrow).2, h.stageHistory _ hruns]
      simp only [bind, Except.bind, hrecords]

/-! ## Feedback -/

/-- The row `save_feedback` leaves for an analysis the caller may see. -/
def savedFeedback (db : Database) (runId : Int) (request : FeedbackRequest) (now : Instant) :
    FeedbackRecord :=
  match db.feedback.find? runId with
  | some f => Database.feedbackValues request now f
  | none => { toFeedbackRequest := request, runId := runId, createdAt := now, updatedAt := now }

theorem savedFeedback_request (db : Database) (runId : Int) (request : FeedbackRequest)
    (now : Instant) : (savedFeedback db runId request now).toFeedbackRequest = request := by
  unfold savedFeedback
  split
  · rfl
  · rfl

/-- What is returned is what is stored. -/
theorem saveFeedback_returns {db : Database} {runId : Int} {request : FeedbackRequest}
    {ids : Option (Finset Int)} {now : Instant} {record : FeedbackRecord}
    (h : (db.saveFeedback runId request ids now).2 = some record) :
    (db.saveFeedback runId request ids now).1.feedback.find? runId = some record := by
  unfold Database.saveFeedback at h ⊢
  split
  · rename_i hnone
    rw [if_pos hnone] at h
    cases h
  · rename_i hids
    rw [if_neg hids] at h
    split
    · rename_i hrow
      rw [hrow] at h
      cases h
    · rename_i row hrow
      rw [hrow] at h
      exact h

/-- **What `save_feedback` does**: at most the feedback of the one run changes. -/
theorem saveFeedback_cases (db : Database) (runId : Int) (request : FeedbackRequest)
    (installations : Finset Int) (now : Instant) :
    ((db.row? runId).filter (installationIn (some installations)) = none
      ∧ db.saveFeedback runId request (some installations) now = (db, none))
    ∨ ((∃ row, (db.row? runId).filter (installationIn (some installations)) = some row)
      ∧ (db.saveFeedback runId request (some installations) now).2
        = some (savedFeedback db runId request now)
      ∧ (db.saveFeedback runId request (some installations) now).1.toDb = db.toDb
      ∧ ∀ k ≠ runId, (db.saveFeedback runId request (some installations) now).1.feedback.find? k
        = db.feedback.find? k) := by
  cases hrow : (db.row? runId).filter (installationIn (some installations)) with
  | none =>
      refine Or.inl ⟨rfl, ?_⟩
      unfold Database.saveFeedback
      rw [hrow]
      split <;> rfl
  | some row =>
      refine Or.inr ⟨⟨row, rfl⟩, ?_⟩
      have hne : some installations ≠ some ∅ := by
        intro heq
        have hown := (Option.filter_eq_some_iff.mp hrow).2
        rw [heq] at hown
        cases hi : row.installationId <;> simp [installationIn, hi] at hown
      unfold Database.saveFeedback savedFeedback
      rw [if_neg hne, hrow]
      dsimp only
      cases hold : db.feedback.find? runId with
      | some f =>
          refine ⟨?_, rfl, fun k hk => Table.find?_updateKey_ne _ hk⟩
          show Table.find? (db.feedback.updateKey runId _ _ _).1 runId = _
          rw [Table.find?_updateKey_self, hold]
          rfl
      | none =>
          cases hins : db.feedback.insert
              { toFeedbackRequest := request, runId := runId, createdAt := now, updatedAt := now } with
          | none =>
              rw [Table.insert_eq_none] at hins
              rw [show db.feedback.find? runId = none from hold] at hins
              exact absurd hins (by simp)
          | some feedback =>
              refine ⟨?_, rfl, fun k hk => ?_⟩
              · show feedback.find? runId = _
                rw [Table.find?_insert hins, if_pos rfl]
              · show feedback.find? k = _
                rw [Table.find?_insert hins, if_neg (Ne.symm hk)]

theorem AgreeOn.saveFeedback (h : AgreeOn installations db db') (runId : Int)
    (request : FeedbackRequest) (now : Instant) :
    (db.saveFeedback runId request (some installations) now).2
      = (db'.saveFeedback runId request (some installations) now).2 := by
  rcases saveFeedback_cases db runId request installations now with
    ⟨hnone, heq⟩ | ⟨⟨row, hrow⟩, hres, _⟩
  · rcases saveFeedback_cases db' runId request installations now with
      ⟨_, heq'⟩ | ⟨⟨row, hrow⟩, _⟩
    · rw [heq, heq']
    · rw [← h.row, hnone] at hrow
      exact absurd hrow (by simp)
  · rcases saveFeedback_cases db' runId request installations now with
      ⟨hnone, _⟩ | ⟨_, hres', _⟩
    · rw [← h.row, hrow] at hnone
      exact absurd hnone (by simp)
    · obtain ⟨hfind, hown⟩ := Option.filter_eq_some_iff.mp hrow
      have hid : row.runId = runId := Table.key_of_find? hfind
      have hfeedback := h.feedback? (Table.mem_of_find? hfind) hown
      rw [hid] at hfeedback
      rw [hres, hres']
      unfold savedFeedback
      rw [hfeedback]

/-- What belongs to no installation of the caller stays as it is. -/
theorem saveFeedback_keeps (db : Database) (runId : Int) (request : FeedbackRequest)
    (installations : Finset Int) (now : Instant) :
    (db.saveFeedback runId request (some installations) now).1.toDb = db.toDb
    ∧ ∀ k, (∀ row, db.row? k = some row → ¬ Owned installations row) →
      (db.saveFeedback runId request (some installations) now).1.feedback.find? k
        = db.feedback.find? k := by
  rcases saveFeedback_cases db runId request installations now with
    ⟨_, heq⟩ | ⟨⟨row, hrow⟩, _, hdb, hothers⟩
  · rw [heq]
    exact ⟨rfl, fun _ _ => rfl⟩
  · refine ⟨hdb, fun k hk => hothers k ?_⟩
    rintro rfl
    obtain ⟨hfind, hown⟩ := Option.filter_eq_some_iff.mp hrow
    exact hk row hfind hown

end Agree

/--
**Installation isolation.** A caller confined to `installations` gets the same from
any two databases that agree on them, and `save_feedback` changes nothing that belongs
to an analysis of another installation or of none.
-/
theorem installation_isolation {installations : Finset Int} {db db' : Database}
    (h : AgreeOn installations db db') :
    (∀ runId, db.get runId (some installations) = db'.get runId (some installations))
    ∧ (∀ backend limit (filter : AnalysisFilter) cursor,
        db.listPage backend limit { filter with installationIds := some installations } cursor
          = db'.listPage backend limit { filter with installationIds := some installations } cursor)
    ∧ (∀ runId request now, (db.saveFeedback runId request (some installations) now).2
        = (db'.saveFeedback runId request (some installations) now).2)
    ∧ ∀ runId request now,
        (db.saveFeedback runId request (some installations) now).1.toDb = db.toDb
        ∧ ∀ k, (∀ row, db.row? k = some row → ¬ Owned installations row) →
          (db.saveFeedback runId request (some installations) now).1.feedback.find? k
            = db.feedback.find? k :=
  ⟨h.get, fun backend limit _ cursor => h.listPage backend limit _ cursor rfl, h.saveFeedback,
    fun runId request now => saveFeedback_keeps db runId request installations now⟩

/-- `twoListed` with an analysis of another installation, newer than both. -/
def withForeign : Database :=
  createAnalysis twoListed { listedRecord 90 "delivery-90" 130 with installationId := some 6 }

theorem installation_isolation_foreign :
    AgreeOn {5} twoListed withForeign
    ∧ withForeign.get 90 (some {5}) = twoListed.get 90 (some {5})
    ∧ withForeign.listPage .postgresql 1 { installationIds := some {5} } none
      = twoListed.listPage .postgresql 1 { installationIds := some {5} } none := by
  have hrows : withForeign.analyses.rows = Db.insertValues
      { listedRecord 90 "delivery-90" 130 with installationId := some 6 }
        :: twoListed.analyses.rows := rfl
  have hagree : AgreeOn {5} twoListed withForeign := by
    refine ⟨fun row hown => ?_, fun _ _ _ _ _ => Iff.rfl, fun _ _ _ _ _ => Iff.rfl⟩
    rw [hrows, List.mem_cons]
    constructor
    · exact Or.inr
    · rintro (rfl | hold)
      · exact absurd hown (by unfold Owned; decide)
      · exact hold
  exact ⟨hagree, ((installation_isolation hagree).1 90).symm,
    ((installation_isolation hagree).2.1 .postgresql 1 { installationIds := none } none).symm⟩

end PipeLens.Proof
