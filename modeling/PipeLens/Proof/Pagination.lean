import Mathlib.Data.List.Pairwise
import PipeLens.Proof.StoreOps
import PipeLens.Queries

/-!
# Pages of the analysis list

Whoever follows `next_cursor` to its end gets every analysis that was there all the
time exactly once, newest first, whatever is inserted in between.

`list_page` is a page of the query `Keyset.page` on the matching rows: the outer join,
the stage histories and the validation of the records add to each row without adding
or dropping one. The rest is the general result about such pages.
-/

namespace PipeLens.Proof

open PipeLens Keyset

/-! ## Databases over time -/

/-- Analyses are added, and the columns of old ones change, but no run id and no creation time. -/
def Grows (db db' : Database) : Prop :=
  ∀ row ∈ db.analyses.rows, ∃ row' ∈ db'.analyses.rows,
    row'.runId = row.runId ∧ row'.createdAt = row.createdAt

theorem Grows.refl (db : Database) : Grows db db := fun row hrow => ⟨row, hrow, rfl, rfl⟩

theorem Grows.trans {db db' db'' : Database} (h : Grows db db') (h' : Grows db' db'') :
    Grows db db'' := by
  intro row hrow
  obtain ⟨row', hrow', hid', hat'⟩ := h row hrow
  obtain ⟨row'', hrow'', hid'', hat''⟩ := h' row' hrow'
  exact ⟨row'', hrow'', hid''.trans hid', hat''.trans hat'⟩

instance : Trans Grows Grows Grows := ⟨Grows.trans⟩

/-- What every operation of the store does to the analyses. -/
structure Accrues (db db' : Db) : Prop where
  kept : ∀ row ∈ db.analyses.rows, ∃ row' ∈ db'.analyses.rows,
    row'.runId = row.runId ∧ row'.createdAt = row.createdAt
  resolutions : (∀ row ∈ db.analyses.rows, resolutionSet row = true) →
    ∀ row ∈ db'.analyses.rows, resolutionSet row = true

theorem Accrues.refl (db : Db) : Accrues db db := ⟨fun row hrow => ⟨row, hrow, rfl, rfl⟩, id⟩

/-- An update that leaves the creation time alone, and the resolution columns all null or all set. -/
theorem accrues_updateKey {db : Db} {k : Int} {p : AnalysisRow → Bool} {f : AnalysisRow → AnalysisRow}
    {events : List StageEvent} {n : Nat} (hid : ∀ row, (f row).runId = row.runId)
    (hat : ∀ row, (f row).createdAt = row.createdAt)
    (hset : ∀ row, resolutionSet row = true → resolutionSet (f row) = true) :
    Accrues db ⟨(db.analyses.updateKey k p f hid).1, events, n⟩ := by
  refine ⟨fun row hrow => ⟨_, List.mem_map_of_mem hrow, Table.key_rewrite hid row, ?_⟩, ?_⟩
  · unfold Table.rewrite
    split
    · exact hat row
    · rfl
  · intro hall row hrow
    obtain ⟨old, hold, rfl⟩ := List.mem_map.mp hrow
    unfold Table.rewrite
    split
    · exact hset old (hall old hold)
    · exact hall old hold

theorem accrues_createIfAbsent (db : Db) (record : AnalysisRecord) :
    Accrues db (db.createIfAbsent record).1 := by
  unfold Db.createIfAbsent
  split
  · exact .refl db
  · split
    · exact .refl db
    · rename_i analyses hins
      have hrows : analyses.rows = Db.insertValues record :: db.analyses.rows := by
        unfold Table.insert at hins
        split at hins
        · exact absurd hins (by simp)
        · rw [← Option.some.inj hins]
      refine ⟨fun row hrow => ⟨row, ?_, rfl, rfl⟩, fun hall row hrow => ?_⟩
      · show row ∈ analyses.rows
        rw [hrows]
        exact List.mem_cons_of_mem _ hrow
      · rw [hrows] at hrow
        rcases List.mem_cons.mp hrow with rfl | hold
        · rfl
        · exact hall row hold

theorem accrues_recordFollowupRun (backend : Backend) (db : Db) (f : FollowupRun) (now : Instant) :
    Accrues db (db.recordFollowupRun backend f now).1 := by
  unfold Db.recordFollowupRun
  split
  · split
    · exact .refl db
    · dsimp only
      split <;> exact accrues_updateKey _ (fun _ => rfl) (fun _ _ => rfl)
  · exact .refl db

theorem accrues_transaction {α : Type} {db : Db} {body : Db → Except StoreError (α × Db)}
    (h : ∀ a db', body db = .ok (a, db') → Accrues db db') : Accrues db (db.transaction body).2 := by
  unfold Db.transaction
  split
  · rename_i a db' hbody
    exact h a db' hbody
  · exact .refl db

theorem accrues_update (db : Db) (runId : Int) (status : AnalysisStatus) (values : UpdateValues)
    (token : Option Token) (now : Instant) :
    Accrues db (db.update runId status values token now).2 := by
  refine accrues_transaction fun _ _ h => ?_
  dsimp only at h
  split at h
  · exact absurd h (by simp)
  · rw [← (Prod.mk.inj (Except.ok.inj h)).2]
    exact accrues_updateKey _ (fun _ => rfl) (fun _ => id)

theorem accrues_beginAnalysis (db : Db) (runId : Int) (token : Option Token) (now : Instant) :
    Accrues db (db.beginAnalysis runId token now).2 := by
  refine accrues_transaction fun _ _ h => ?_
  split at h
  · exact absurd h (by simp)
  · dsimp only at h
    split at h
    · exact absurd h (by simp)
    · rw [← (Prod.mk.inj (Except.ok.inj h)).2]
      exact accrues_updateKey _ (fun _ => rfl) (fun _ => id)

theorem accrues_finishAnalysis (db : Db) (runId : Int) (startedAt : Instant)
    (status : AnalysisStatus) (token : Option Token) (now : Instant) :
    Accrues db (db.finishAnalysis runId startedAt status token now).2 := by
  refine accrues_transaction fun _ _ h => ?_
  split at h
  · exact absurd h (by simp)
  · dsimp only at h
    split at h
    · exact absurd h (by simp)
    · rw [← (Prod.mk.inj (Except.ok.inj h)).2]
      exact accrues_updateKey _ (fun _ => rfl) (fun _ => id)

theorem accrues_recordStage (db : Db) (runId : Int) (stage : AnalysisStage) (status : StageStatus)
    (error : Option String) (token : Option Token) (now : Instant) :
    Accrues db (db.recordStage runId stage status error token now).2 := by
  refine accrues_transaction fun _ _ h => ?_
  split at h
  · exact absurd h (by simp)
  · split at h
    · exact absurd h (by simp)
    · rw [← (Prod.mk.inj (Except.ok.inj h)).2]
      exact ⟨fun row hrow => ⟨row, hrow, rfl, rfl⟩, id⟩

/-- One operation of the store on the analyses, by a webhook or a worker. -/
inductive StoreStep (backend : Backend) (db : Db) : Db → Prop where
  | createIfAbsent (record : AnalysisRecord) : StoreStep backend db (db.createIfAbsent record).1
  | recordFollowupRun (f : FollowupRun) (now : Instant) :
      StoreStep backend db (db.recordFollowupRun backend f now).1
  | update (runId : Int) (status : AnalysisStatus) (values : UpdateValues) (token : Option Token)
      (now : Instant) : StoreStep backend db (db.update runId status values token now).2
  | beginAnalysis (runId : Int) (token : Option Token) (now : Instant) :
      StoreStep backend db (db.beginAnalysis runId token now).2
  | finishAnalysis (runId : Int) (startedAt : Instant) (status : AnalysisStatus)
      (token : Option Token) (now : Instant) :
      StoreStep backend db (db.finishAnalysis runId startedAt status token now).2
  | recordStage (runId : Int) (stage : AnalysisStage) (status : StageStatus)
      (error : Option String) (token : Option Token) (now : Instant) :
      StoreStep backend db (db.recordStage runId stage status error token now).2

theorem accrues_step {backend : Backend} {db db' : Db} (h : StoreStep backend db db') :
    Accrues db db' := by
  cases h with
  | createIfAbsent record => exact accrues_createIfAbsent db record
  | recordFollowupRun f now => exact accrues_recordFollowupRun backend db f now
  | update runId status values token now => exact accrues_update db runId status values token now
  | beginAnalysis runId token now => exact accrues_beginAnalysis db runId token now
  | finishAnalysis runId startedAt status token now =>
      exact accrues_finishAnalysis db runId startedAt status token now
  | recordStage runId stage status error token now =>
      exact accrues_recordStage db runId stage status error token now

/-- **Every operation of the store grows the database.** -/
theorem grows_step {backend : Backend} {db db' : Database}
    (h : StoreStep backend db.toDb db'.toDb) : Grows db db' := (accrues_step h).kept

/-- `create_if_absent` on the whole database. -/
def createAnalysis (db : Database) (record : AnalysisRecord) : Database where
  toDb := (db.toDb.createIfAbsent record).1
  feedback := db.feedback
  eventIds := by rw [createIfAbsent_stageEvents]; exact db.eventIds
  resolutions := (accrues_createIfAbsent db.toDb record).resolutions db.resolutions

/-- Follows `next_cursor`, each page read off a database of its own. -/
def followCursor (backend : Backend) (limit : Int) (filter : AnalysisFilter) :
    Option AnalysisCursor → List Database → Option (List AnalysisDetail)
  | _, [] => none
  | cursor, db :: dbs =>
      match db.listPage backend limit filter cursor with
      | .error _ => none
      | .ok page =>
          match page.nextCursor with
          | none => some page.records
          | some next => (followCursor backend limit filter (some next) dbs).map (page.records ++ ·)

/-! ## A page of the list is a page of the query -/

/-- What a list is ordered by. -/
def detailKey (detail : AnalysisDetail) : Instant ×ₗ Int :=
  toLex (detail.createdAt, detail.runId)

def cursorKey (cursor : AnalysisCursor) : Instant ×ₗ Int := toLex (cursor.createdAt, cursor.runId)

/-- The rows a list is made of. -/
def matching (filter : AnalysisFilter) (db : Database) : List AnalysisRow :=
  db.analyses.select filter.matches

theorem afterCursor_eq (cursor : Option AnalysisCursor) (row : AnalysisRow) :
    afterCursor cursor row = below listKey (cursor.map cursorKey) row := by
  cases cursor with
  | none => rfl
  | some c =>
      simp only [afterCursor, below, Option.map_some, listKey, cursorKey, Prod.Lex.toLex_lt_toLex]
      rw [Bool.decide_or, Bool.decide_and]

/-- A valid row becomes a record under the same key. -/
theorem toRecord_ok {row : AnalysisRow} (h : resolutionSet row = true)
    (feedback : Option FeedbackRecord) (stages : List AnalysisStageEvent) :
    ∃ detail, toRecord row feedback stages = .ok detail ∧ detailKey detail = listKey row := by
  have hres : ∃ resolution, toResolution row = .ok resolution := by
    unfold toResolution
    cases hout : row.resolutionOutcome with
    | none => exact ⟨none, rfl⟩
    | some outcome =>
        simp only [resolutionSet, hout, Option.isNone_some, Option.isSome_some, Bool.false_and,
          Bool.true_and, Bool.false_or, Bool.and_eq_true, Option.isSome_iff_exists] at h
        obtain ⟨⟨⟨⟨⟨a, ha⟩, ⟨b, hb⟩⟩, ⟨c, hc⟩⟩, ⟨d, hd⟩⟩, ⟨e, he⟩⟩ := h
        rw [ha, hb, hc, hd, he]
        exact ⟨_, rfl⟩
  obtain ⟨resolution, hres⟩ := hres
  unfold toRecord
  rw [hres]
  exact ⟨_, rfl, rfl⟩

/-- Converting a list of valid rows does not fail and keeps the keys. -/
theorem mapM_toRecord {rows : List AnalysisRow} (h : ∀ row ∈ rows, resolutionSet row = true)
    (feedback : AnalysisRow → Option FeedbackRecord)
    (stages : AnalysisRow → List AnalysisStageEvent) :
    ∃ details, rows.mapM (fun row => toRecord row (feedback row) (stages row)) = .ok details
      ∧ details.map detailKey = rows.map listKey := by
  induction rows with
  | nil => exact ⟨[], rfl, rfl⟩
  | cons row rows ih =>
      obtain ⟨detail, hdetail, hkey⟩ :=
        toRecord_ok (h row List.mem_cons_self) (feedback row) (stages row)
      obtain ⟨details, hdetails, hkeys⟩ := ih fun row' hr => h row' (List.mem_cons_of_mem _ hr)
      refine ⟨detail :: details, ?_, by rw [List.map_cons, List.map_cons, hkey, hkeys]⟩
      rw [List.mapM_cons, hdetail, hdetails]
      rfl

theorem nodup_listKey (filter : AnalysisFilter) (db : Database) :
    ((matching filter db).map listKey).Nodup := by
  have hids : ((matching filter db).map AnalysisRow.runId).Nodup :=
    db.analyses.nodup.sublist (List.filter_sublist.map _)
  refine List.Nodup.of_map (fun k => (ofLex k).2) ?_
  rw [List.map_map]
  exact hids

/-- An empty set of installations matches nothing. -/
theorem matching_empty {filter : AnalysisFilter} (h : filter.installationIds = some ∅)
    (db : Database) : matching filter db = [] := by
  unfold matching Table.select
  rw [List.filter_eq_nil_iff]
  intro row _
  have hout : installationIn filter.installationIds row = false := by
    rw [h]
    cases row.installationId <;> simp [installationIn]
  simp [AnalysisFilter.matches, hout]

/-- **A page of the list is a page of the query.** -/
theorem listPage_eq (backend : Backend) (db : Database) {limit : Int} (hlimit : 1 ≤ limit)
    (filter : AnalysisFilter) (cursor : Option AnalysisCursor) :
    ∃ page, db.listPage backend limit filter cursor = .ok page
      ∧ page.records.map detailKey
        = (Keyset.page listKey limit.toNat (cursor.map cursorKey) (matching filter db)).1.map listKey
      ∧ page.nextCursor.map cursorKey
        = (Keyset.page listKey limit.toNat (cursor.map cursorKey) (matching filter db)).2 := by
  unfold Database.listPage
  by_cases hempty : filter.installationIds = some ∅
  · rw [if_pos hempty, matching_empty hempty]
    exact ⟨⟨[], none⟩, rfl, by simp [Keyset.page, found, orderDesc],
      by simp [Keyset.page, found, orderDesc]⟩
  rw [if_neg hempty]
  have hquery : (db.analyses.select fun row => filter.matches row && afterCursor cursor row)
      = (matching filter db).filter (below listKey (cursor.map cursorKey)) := by
    unfold matching Table.select
    rw [List.filter_filter]
    refine List.filter_congr fun row _ => ?_
    rw [afterCursor_eq, Bool.and_comm]
  set rows := found listKey (cursor.map cursorKey) (matching filter db) with hrows
  have hsql : sqlLimit backend (limit + 1)
      (orderDesc listKey (db.analyses.select fun row => filter.matches row && afterCursor cursor row))
      = .ok (rows.take (limit.toNat + 1)) := by
    unfold sqlLimit
    rw [if_pos (by omega), hquery, show (limit + 1).toNat = limit.toNat + 1 by omega]
    rfl
  have hslice : pySlice limit (rows.take (limit.toNat + 1)) = rows.take limit.toNat := by
    unfold pySlice
    rw [if_pos (by omega), List.take_take, Nat.min_eq_left (by omega)]
  have hmore : (limit < (rows.take (limit.toNat + 1)).length) ↔ limit.toNat < rows.length := by
    rw [List.length_take]
    omega
  have hvalid : ∀ row ∈ rows.take limit.toNat, resolutionSet row = true := by
    intro row hrow
    have hmem := (mem_found.mp (List.mem_of_mem_take hrow)).1
    exact db.resolutions row (List.mem_filter.mp hmem).1
  obtain ⟨details, hdetails, hkeys⟩ := mapM_toRecord hvalid
    (fun row => db.feedback.find? row.runId)
    (fun row => db.stageHistory ((rows.take limit.toNat).map AnalysisRow.runId) row.runId)
  rw [hsql]
  simp only [bind, Except.bind, pure, Except.pure, hslice, hdetails]
  refine ⟨_, rfl, hkeys, ?_⟩
  unfold Keyset.page
  rw [← hrows]
  by_cases hlt : limit.toNat < rows.length
  · simp only [if_pos hlt, if_pos (hmore.mpr hlt), Option.map_map]
    rfl
  · simp only [if_neg hlt, if_neg (fun h => hlt (hmore.mp h)), Option.map_none]

/-- **Following the cursor is walking the query.** -/
theorem followCursor_eq (backend : Backend) {limit : Int} (hlimit : 1 ≤ limit)
    (filter : AnalysisFilter) (dbs : List Database) (cursor : Option AnalysisCursor) :
    (followCursor backend limit filter cursor dbs).map (·.map detailKey)
      = (walk listKey limit.toNat (cursor.map cursorKey) (dbs.map (matching filter))).map
          (·.map listKey) := by
  induction dbs generalizing cursor with
  | nil => rfl
  | cons db dbs ih =>
      obtain ⟨page, hpage, hkeys, hnext⟩ := listPage_eq backend db hlimit filter cursor
      rw [followCursor, List.map_cons, walk, hpage, ← hnext]
      dsimp only
      cases hc : page.nextCursor with
      | none => exact congrArg some hkeys
      | some next =>
          have hrest := ih (some next)
          simp only [Option.map_some] at hrest ⊢
          cases hf : followCursor backend limit filter (some next) dbs with
          | none =>
              rw [hf] at hrest
              rw [Option.map_none, Option.map_none, Option.map_eq_none_iff.mp hrest.symm]
              rfl
          | some records =>
              rw [hf] at hrest
              obtain ⟨rows, hrows, heq⟩ := Option.map_eq_some_iff.mp hrest.symm
              rw [hrows]
              simp only [Option.map_some, List.map_append, hkeys, heq]

/-! ## All pages together -/

section Exact

variable {dbs : List Database}

/-- A run was created once, whichever database one asks. -/
theorem createdAt_eq (hchain : dbs.IsChain Grows) {db db' : Database} (hdb : db ∈ dbs)
    (hdb' : db' ∈ dbs) {row row' : AnalysisRow} (hrow : row ∈ db.analyses.rows)
    (hrow' : row' ∈ db'.analyses.rows) (hid : row.runId = row'.runId) :
    row.createdAt = row'.createdAt := by
  have hforward : ∀ {db db' : Database} {row row' : AnalysisRow}, Grows db db' →
      row ∈ db.analyses.rows → row' ∈ db'.analyses.rows → row.runId = row'.runId →
      row.createdAt = row'.createdAt := by
    intro db db' row row' hgrows hrow hrow' hid
    obtain ⟨row'', hrow'', hid'', hat⟩ := hgrows row hrow
    have hfind := Table.find?_of_mem hrow''
    rw [hid'', hid, Table.find?_of_mem hrow'] at hfind
    rw [← hat, Option.some.inj hfind]
  have hpair : dbs.Pairwise fun db db' => Grows db db' ∨ Grows db' db :=
    (List.isChain_iff_pairwise.mp hchain).imp fun h => Or.inl h
  have : Std.Symm fun db db' : Database => Grows db db' ∨ Grows db' db := ⟨fun _ _ h => h.symm⟩
  have hrefl : ∀ x ∈ dbs, Grows x x ∨ Grows x x := fun x _ => Or.inl (Grows.refl x)
  rcases List.Pairwise.forall_of_forall hrefl hpair hdb hdb' with h | h
  · exact hforward h hrow hrow' hid
  · exact (hforward h hrow' hrow hid.symm).symm

variable {backend : Backend} {limit : Int} {filter : AnalysisFilter} {records : List AnalysisDetail}

/-- The walk behind a list of records. -/
theorem exists_walk (hlimit : 1 ≤ limit)
    (h : followCursor backend limit filter none dbs = some records) :
    ∃ rows, walk listKey limit.toNat none (dbs.map (matching filter)) = some rows
      ∧ records.map detailKey = rows.map listKey := by
  have heq := followCursor_eq backend hlimit filter dbs none
  rw [h] at heq
  obtain ⟨rows, hrows, hkeys⟩ := Option.map_eq_some_iff.mp heq.symm
  exact ⟨rows, hrows, hkeys.symm⟩

theorem nodup_snapshots (filter : AnalysisFilter) (dbs : List Database) :
    ∀ rows ∈ dbs.map (matching filter), (rows.map listKey).Nodup := by
  intro rows hrows
  obtain ⟨db, _, rfl⟩ := List.mem_map.mp hrows
  exact nodup_listKey filter db

theorem records_descending (hlimit : 1 ≤ limit)
    (h : followCursor backend limit filter none dbs = some records) :
    records.Pairwise fun a b => detailKey b < detailKey a := by
  obtain ⟨rows, hrows, hkeys⟩ := exists_walk hlimit h
  have hpair := walk_pairwise (nodup_snapshots filter dbs) hrows
  have hmapped : (rows.map listKey).Pairwise fun a b => b < a := List.pairwise_map.mpr hpair
  rw [← hkeys] at hmapped
  exact List.pairwise_map.mp hmapped

/-- A returned record is a row of one of the databases. -/
theorem record_row (hlimit : 1 ≤ limit)
    (h : followCursor backend limit filter none dbs = some records) {record : AnalysisDetail}
    (hrecord : record ∈ records) :
    ∃ db ∈ dbs, ∃ row ∈ db.analyses.rows, row.runId = record.runId
      ∧ row.createdAt = record.createdAt := by
  obtain ⟨rows, hrows, hkeys⟩ := exists_walk hlimit h
  have hkey : detailKey record ∈ rows.map listKey := hkeys ▸ List.mem_map_of_mem hrecord
  obtain ⟨row, hrow, heq⟩ := List.mem_map.mp hkey
  obtain ⟨⟨_, hsnapshot, hmem⟩, _⟩ := mem_walk (nodup_snapshots filter dbs) hrows hrow
  obtain ⟨db, hdb, rfl⟩ := List.mem_map.mp hsnapshot
  have hpair : (row.createdAt, row.runId) = (record.createdAt, record.runId) := heq
  refine ⟨db, hdb, row, (List.mem_filter.mp hmem).1, ?_, ?_⟩
  · exact congrArg Prod.snd hpair
  · exact congrArg Prod.fst hpair

theorem nodup_records (hchain : dbs.IsChain Grows) (hlimit : 1 ≤ limit)
    (h : followCursor backend limit filter none dbs = some records) :
    (records.map fun record => record.runId).Nodup := by
  have hpair := records_descending hlimit h
  rw [List.Nodup, List.pairwise_map]
  refine (List.Pairwise.and_mem.mp hpair).imp fun ⟨ha, hb, hlt⟩ hid => ?_
  obtain ⟨_, hdb, _, hrow, hrid, hat⟩ := record_row hlimit h ha
  obtain ⟨_, hdb', _, hrow', hrid', hat'⟩ := record_row hlimit h hb
  have hsame := createdAt_eq hchain hdb hdb' hrow hrow' ((hrid.trans hid).trans hrid'.symm)
  rw [hat, hat'] at hsame
  unfold detailKey at hlt
  rw [hsame, hid] at hlt
  exact absurd hlt (lt_irrefl _)

theorem record_of_kept (hchain : dbs.IsChain Grows) (hlimit : 1 ≤ limit)
    (h : followCursor backend limit filter none dbs = some records) {runId : Int}
    (hkept : ∀ db ∈ dbs, ∃ row, db.row? runId = some row ∧ filter.matches row = true) :
    runId ∈ records.map fun record => record.runId := by
  cases hdbs : dbs with
  | nil =>
      rw [hdbs] at h
      exact absurd h (by simp [followCursor])
  | cons db rest =>
      have hdb : db ∈ dbs := by rw [hdbs]; exact List.mem_cons_self
      obtain ⟨row, hrow, _⟩ := hkept db hdb
      obtain ⟨rows, hrows, hkeys⟩ := exists_walk hlimit h
      have hall : ∀ snapshot ∈ dbs.map (matching filter), ∃ r ∈ snapshot, listKey r = listKey row := by
        intro snapshot hsnapshot
        obtain ⟨db', hdb', rfl⟩ := List.mem_map.mp hsnapshot
        obtain ⟨row', hrow', hmatch⟩ := hkept db' hdb'
        have hid : row'.runId = row.runId :=
          (Table.key_of_find? hrow').trans (Table.key_of_find? hrow).symm
        refine ⟨row', List.mem_filter.mpr ⟨Table.mem_of_find? hrow', hmatch⟩, ?_⟩
        unfold listKey
        rw [hid, createdAt_eq hchain hdb' hdb (Table.mem_of_find? hrow') (Table.mem_of_find? hrow)
          hid]
      obtain ⟨r, hr, hkey⟩ := walk_complete (by omega) (nodup_snapshots filter dbs) hrows hall
        (fun c hc => absurd hc (by simp))
      have hmem : listKey row ∈ records.map detailKey := by
        rw [hkeys, ← hkey]
        exact List.mem_map_of_mem hr
      obtain ⟨record, hrecord, heq⟩ := List.mem_map.mp hmem
      have hpair : (record.createdAt, record.runId) = (row.createdAt, row.runId) := heq
      have hid : row.runId = runId := Table.key_of_find? hrow
      exact List.mem_map.mpr ⟨record, hrecord, (congrArg Prod.snd hpair).trans hid⟩

end Exact

/--
**Cursor pagination is exact.** Following the cursor ends once nothing is inserted any
more. What it returns has no run twice and is strictly descending, and every run that
matches in all the databases on the way is in it exactly once.
-/
theorem pagination_exact (backend : Backend) {limit : Int} (hlimit : 1 ≤ limit)
    (filter : AnalysisFilter) {db : Database} {dbs : List Database}
    (hchain : (db :: dbs).IsChain Grows) :
    (∃ n records, followCursor backend limit filter none
      (db :: dbs ++ List.replicate n (dbs.getLastD db)) = some records)
    ∧ ∀ records, followCursor backend limit filter none (db :: dbs) = some records →
      (records.map fun record => record.runId).Nodup
      ∧ (records.Pairwise fun a b => b.createdAt < a.createdAt
          ∨ (b.createdAt = a.createdAt ∧ b.runId < a.runId))
      ∧ ∀ runId, (∀ db' ∈ db :: dbs, ∃ row, db'.row? runId = some row
            ∧ filter.matches row = true) →
          (records.map fun record => record.runId).count runId = 1 := by
  refine ⟨?_, fun records h => ⟨nodup_records hchain hlimit h, ?_, fun runId hkept => ?_⟩⟩
  · obtain ⟨n, rows, hrows⟩ := walk_ends limit.toNat
      (nodup_listKey filter (dbs.getLastD db)) ((db :: dbs).map (matching filter)) none
    have heq := followCursor_eq backend hlimit filter
      (db :: dbs ++ List.replicate n (dbs.getLastD db)) none
    rw [List.map_append, List.map_replicate, Option.map_none, hrows] at heq
    obtain ⟨records, hrecords, _⟩ := Option.map_eq_some_iff.mp heq
    exact ⟨n, records, hrecords⟩
  · exact (records_descending hlimit h).imp fun hlt => Prod.Lex.toLex_lt_toLex.mp hlt
  · exact List.count_eq_one_of_mem (nodup_records hchain hlimit h)
      (record_of_kept hchain hlimit h hkept)

/-! ## Two analyses, and a third between the pages -/

def emptyDatabase : Database where
  toDb := Db.empty
  feedback := Table.empty
  eventIds := List.nodup_nil
  resolutions := by intro row h; exact absurd h (by simp [Db.empty, Table.empty])

def listedRecord (runId : Int) (deliveryId : String) (createdAt : Instant) : AnalysisRecord :=
  { runId := runId, deliveryId := deliveryId, repository := "acme/widgets", workflowName := "CI",
    headSha := "abc123", htmlUrl := "https://github.com/acme/widgets/actions",
    installationId := some 5, createdAt := createdAt, updatedAt := createdAt }

/-- Runs 77 and 78 were created at the same moment. -/
def twoListed : Database :=
  createAnalysis (createAnalysis emptyDatabase (listedRecord 77 "delivery-77" 100))
    (listedRecord 78 "delivery-78" 100)

def threeListed : Database := createAnalysis twoListed (listedRecord 79 "delivery-79" 120)

theorem pagination_exact_insert :
    (followCursor .sqlite 1 { installationIds := some {5} } none [twoListed, threeListed]).any
      (fun records => decide ((records.map fun record => record.runId) = [78, 77])) = true
    ∧ ∀ records, followCursor .sqlite 1 { installationIds := some {5} } none
        [twoListed, threeListed] = some records →
      (records.map fun record => record.runId).count 77 = 1 := by
  have hchain : [twoListed, threeListed].IsChain Grows :=
    List.IsChain.cons_cons (@grows_step .sqlite _ _ (.createIfAbsent _)) (List.IsChain.singleton _)
  refine ⟨by decide +kernel, fun records h => ?_⟩
  refine ((pagination_exact .sqlite (by decide) _ hchain).2 records h).2.2 77 fun db' hdb' => ?_
  rcases List.mem_cons.mp hdb' with rfl | hdb'
  · exact ⟨_, rfl, by decide +kernel⟩
  · rw [List.mem_singleton.mp hdb']
    exact ⟨_, rfl, by decide +kernel⟩

end PipeLens.Proof
