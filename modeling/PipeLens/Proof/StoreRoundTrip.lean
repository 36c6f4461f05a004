import PipeLens.Columns
import PipeLens.JsonDump
import PipeLens.Proof.ModelDumps

/-!
# What the store reads back

A record is written by one list of columns and read by another. Every field that is no
datetime comes back as it was, from either back end, through the JSON columns too. A datetime
comes back from PostgreSQL as the same moment in the time zone of the session. SQLite keeps
what the clock showed and forgets in which time zone; of the five datetimes of a record only
one is put right by `_to_record`, so that no record comes back equal from there.

Values are followed column by column: what is bound, kept and fetched is one lemma about a
column, and the fields are read from the dictionary by name.
-/

namespace PipeLens.Proof

open Fields Columns

/-! ## One column -/

theorem of?_eq {wall : Int} {offset : Option Int} (h : InRange wall) :
    Datetime.of? wall offset = some ⟨wall, offset, h⟩ := dif_pos h

theorem of?_some {wall : Int} {offset : Option Int} {d : Datetime}
    (h : Datetime.of? wall offset = some d) :
    InRange wall ∧ d.wall = wall ∧ d.offset = offset := by
  unfold Datetime.of? at h
  split at h
  · rename_i hrange
    rw [← Option.some.inj h]
    exact ⟨hrange, rfl, rfl⟩
  · exact nomatch h

theorem instant?_of {d : Datetime} {offset : Int} (h : d.offset = some offset) :
    d.instant? = some (d.wall - offset) := by
  rw [Datetime.instant?, h]
  rfl

/-- The datetime that a PostgreSQL session shows for a moment. -/
def inSession (driver : Driver) (d : Datetime) : Option Datetime :=
  d.instant?.bind fun i => Datetime.of? (i + driver.zone i) (some (driver.zone i))

theorem bind_keep {driver : Driver} {column : Column} {value : PyValue} {cell : Cell}
    (h : driver.bind column value = .ok cell) : driver.keep column.type value = .ok cell := by
  unfold Driver.bind at h
  split at h
  · exact nomatch h
  · exact h

/-- **What is no datetime comes back**, from every column that takes it. -/
theorem fetch_keep_plain {driver : Driver} (hbackend : driver.backend = .postgresql)
    {type : ColumnType} {value : Json} {cell : Cell}
    (hkeep : driver.keep type (.plain value) = .ok cell) :
    driver.fetch type cell = .ok (.plain value) := by
  cases type with
  | json =>
      rw [← Except.ok.inj hkeep]
      unfold Driver.fetch
      dsimp only
      rw [driver.loads_dumps]
  | datetime =>
      cases value with
      | null =>
          rw [← Except.ok.inj hkeep]
          rfl
      | _ => exact nomatch hkeep
  | float =>
      cases value with
      | float x =>
          cases x with
          | nan =>
              unfold Driver.keep at hkeep
              rw [hbackend] at hkeep
              rw [← Except.ok.inj hkeep]
              rfl
          | _ =>
              rw [← Except.ok.inj hkeep]
              rfl
      | _ =>
          rw [← Except.ok.inj hkeep]
          rfl
  | _ =>
      cases value <;>
        · rw [← Except.ok.inj hkeep]
          rfl

/-- A datetime is kept as a moment, and comes back where the session can show that moment. -/
theorem fetch_keep_datetime {driver : Driver} (hbackend : driver.backend = .postgresql)
    {type : ColumnType} {d : Datetime} {cell : Cell} (haware : d.offset.isSome = true)
    (hkeep : driver.keep type (.datetime d) = .ok cell) :
    driver.fetch type cell
      = match inSession driver d with
        | some shown => .ok (.datetime shown)
        | none => .error .driver := by
  cases type with
  | datetime =>
      obtain ⟨offset, hoffset⟩ := Option.isSome_iff_exists.mp haware
      unfold Driver.keep at hkeep
      rw [hbackend] at hkeep
      rw [← Except.ok.inj hkeep, inSession, instant?_of hoffset]
      unfold Driver.fetch Driver.fetchDatetime
      rw [hbackend]
      rfl
  | _ => exact nomatch hkeep

/-- From SQLite every datetime comes back naive. -/
theorem fetch_naive {driver : Driver} (hbackend : driver.backend = .sqlite) {cell : Cell}
    {d : Datetime} (hfetch : driver.fetch .datetime cell = .ok (.datetime d)) :
    d.offset = none := by
  unfold Driver.fetch Driver.fetchDatetime at hfetch
  rw [hbackend] at hfetch
  cases cell with
  | wall wall =>
      have hof : ∃ shown, Datetime.of? wall none = some shown ∧ shown = d := by
        dsimp only at hfetch
        cases hshown : Datetime.of? wall none with
        | none =>
            rw [hshown] at hfetch
            exact nomatch hfetch
        | some shown =>
            rw [hshown] at hfetch
            exact ⟨shown, rfl, PyValue.datetime.inj (Except.ok.inj hfetch)⟩
      obtain ⟨shown, hshown, hsame⟩ := hof
      obtain ⟨_, _, hoffset⟩ := of?_some hshown
      rw [← hsame, hoffset]
  | null => exact nomatch hfetch
  | _ => exact nomatch hfetch

/-! ## The inserted row -/

theorem analysesColumns_nodup : (analysesColumns.map Column.name).Nodup := by decide +kernel

theorem analysisSelect_nodup : (analysisSelect.map Selected.label).Nodup := by decide +kernel

/-- The row that is inserted for a record. -/
def IsRowOf (driver : Driver) (record : TimedRecord) (row : StoredRow) : Prop :=
  build Column.name (fun column => driver.bind column (bound record column)) analysesColumns
    = .ok row

/-- The column of a name. -/
def columnNamed (name : String) : Option Column :=
  analysesColumns.find? fun column => column.name == name

theorem columnNamed_mem {name : String} {column : Column} (h : columnNamed name = some column) :
    column ∈ analysesColumns ∧ column.name = name := by
  refine ⟨List.mem_of_find?_eq_some h, ?_⟩
  have hname := List.find?_some h
  exact eq_of_beq hname

theorem IsRowOf.cell {driver : Driver} {record : TimedRecord} {row : StoredRow}
    (hrow : IsRowOf driver record row) {name : String} {column : Column}
    (hcolumn : columnNamed name = some column) :
    driver.keep column.type (bound record column) = .ok (row.cell name) := by
  obtain ⟨hmem, hname⟩ := columnNamed_mem hcolumn
  obtain ⟨cell, hbind, hlookup⟩ := lookup_build hrow analysesColumns_nodup column hmem
  rw [StoredRow.cell, ← hname, hlookup]
  exact bind_keep hbind

section Fetched

variable {driver : Driver} {record : TimedRecord} {row : StoredRow} {values : Values}

theorem fetched_lookup {joined : StoredRow} (hfetch : fetchRow driver row joined = .ok values)
    {name : String} {column : Column} (hcolumn : columnNamed name = some column) :
    ∃ v, driver.fetch column.type (row.cell name) = .ok v ∧ values.lookup name = some v := by
  obtain ⟨hmem, hname⟩ := columnNamed_mem hcolumn
  have hselected : (⟨column.name, column, false⟩ : Selected) ∈ analysisSelect :=
    List.mem_append_left _ (List.mem_map_of_mem hmem)
  obtain ⟨v, hv, hlookup⟩ := lookup_build hfetch analysisSelect_nodup _ hselected
  rw [← hname]
  exact ⟨v, hv, hlookup⟩

theorem plain_lookup (hbackend : driver.backend = .postgresql) (hrow : IsRowOf driver record row)
    (hfetch : fetchRow driver row [] = .ok values) {name : String} {column : Column}
    {value : Json} (hcolumn : columnNamed name = some column)
    (hbound : bound record column = .plain value) :
    values.lookup name = some (.plain value) := by
  obtain ⟨v, hv, hlookup⟩ := fetched_lookup hfetch hcolumn
  have hkeep := hrow.cell hcolumn
  rw [hbound] at hkeep
  rw [fetch_keep_plain hbackend hkeep] at hv
  rw [hlookup, Except.ok.inj hv]

/-- What a session shows of an optional datetime. -/
def Shown (driver : Driver) : Option Datetime → Option Datetime → Prop
  | none, none => True
  | some d, some shown => inSession driver d = some shown
  | _, _ => False

theorem datetime_lookup (hbackend : driver.backend = .postgresql)
    (hrow : IsRowOf driver record row) (hfetch : fetchRow driver row [] = .ok values)
    {name : String} {column : Column} {value : Option Datetime}
    (hcolumn : columnNamed name = some column)
    (hbound : bound record column = .ofDatetime value)
    (haware : ∀ d ∈ value, d.offset.isSome = true) :
    ∃ shown, Shown driver value shown ∧ values.lookup name = some (.ofDatetime shown) := by
  cases value with
  | none => exact ⟨none, trivial, plain_lookup hbackend hrow hfetch hcolumn hbound⟩
  | some d =>
      obtain ⟨v, hv, hlookup⟩ := fetched_lookup hfetch hcolumn
      have hkeep := hrow.cell hcolumn
      rw [hbound] at hkeep
      rw [fetch_keep_datetime hbackend (haware d rfl) hkeep] at hv
      cases hshown : inSession driver d with
      | none =>
          rw [hshown] at hv
          exact nomatch hv
      | some shown =>
          rw [hshown] at hv
          exact ⟨some shown, hshown, by rw [hlookup, ← Except.ok.inj hv]; rfl⟩

theorem field_plain {α : Type} {name : String} {value : Json} {read : Json → Option α}
    {default : Option α} {a : α} (hlookup : values.lookup name = some (.plain value))
    (hread : read value = some a) : field values name (plain read) default = some a := by
  rw [field, hlookup]
  exact hread

/-- **Every field that is no datetime comes back.** -/
theorem validateFields_fetched (hbackend : driver.backend = .postgresql)
    (hrow : IsRowOf driver record row) (hfetch : fetchRow driver row [] = .ok values) :
    validateFields values = some record.toRecordFields := by
  have hfield {α : Type} (name : String) {column : Column} {value : Json}
      {read : Json → Option α} {default : Option α} {a : α}
      (hcolumn : columnNamed name = some column) (hbound : bound record column = .plain value)
      (hread : read value = some a) : field values name (plain read) default = some a :=
    field_plain (plain_lookup hbackend hrow hfetch hcolumn hbound) hread
  have hinteger := optional_ofOption readsDump_integer nofun
  have hfloat := optional_ofOption readsDump_floating nofun
  have hclassification := optional_ofOption readsDump_classification nofun
  have hdiagnosis := optional_ofOption readsDump_diagnosis nofun
  have hcontext := optional_ofOption readsDump_context nofun
  unfold validateFields
  dsimp only
  rw [hfield "run_id" rfl rfl (readsDump_integer _),
    hfield "delivery_id" rfl rfl (readsDump_text _),
    hfield "repository" rfl rfl (readsDump_text _),
    hfield "workflow_name" rfl rfl (readsDump_text _),
    hfield "head_sha" rfl rfl (readsDump_text _),
    hfield "html_url" rfl rfl (readsDump_text _),
    hfield "run_attempt" rfl rfl (readsDump_integer _),
    hfield "head_branch" rfl rfl (optional_text _),
    hfield "pull_request_number" rfl rfl (hinteger _),
    hfield "installation_id" rfl rfl (hinteger _),
    hfield "trust_level" rfl rfl (readsDump_trustLevel _),
    hfield "baseline_sha" rfl rfl (optional_text _),
    hfield "status" rfl rfl (readsDump_status _),
    hfield "classification" rfl rfl (hclassification _),
    hfield "diagnosis" rfl rfl (hdiagnosis _),
    hfield "related_files" rfl rfl (listOf_map readsDump_relatedFile _),
    hfield "workflow_path" rfl rfl (optional_text _),
    hfield "execution_context" rfl rfl (hcontext _),
    hfield "model_name" rfl rfl (optional_text _),
    hfield "prompt_version" rfl rfl (optional_text _),
    hfield "error" rfl rfl (optional_text _),
    hfield "duration_seconds" rfl rfl (hfloat _),
    hfield "queue_wait_seconds" rfl rfl (hfloat _),
    hfield "total_latency_seconds" rfl rfl (hfloat _)]
  rfl

end Fetched

/-! ## The record that is made of a row -/

/-- A moment that the session shows is the same one. -/
theorem inSession_some {driver : Driver} {d shown : Datetime}
    (h : inSession driver d = some shown) :
    ∃ i, d.instant? = some i ∧ InRange (i + driver.zone i) ∧ shown.instant? = some i
      ∧ shown.offset.isSome = true := by
  unfold inSession at h
  cases hinstant : d.instant? with
  | none =>
      rw [hinstant] at h
      exact nomatch h
  | some i =>
      rw [hinstant] at h
      obtain ⟨hrange, hwall, hoffset⟩ := of?_some h
      refine ⟨i, rfl, hrange, ?_, by rw [hoffset]; rfl⟩
      rw [instant?_of hoffset, hwall, Int.add_sub_cancel]

theorem same_of_instant {a b : Datetime} {i : Instant} (ha : a.instant? = some i)
    (hb : b.instant? = some i) : a.same b = true := by
  rw [Datetime.same, ha, hb]
  exact beq_self_eq_true i

theorem same_inSession {driver : Driver} {d shown : Datetime}
    (h : inSession driver d = some shown) : shown.same d = true := by
  obtain ⟨i, hd, _, hshown, _⟩ := inSession_some h
  exact same_of_instant hshown hd

def sameOption : Option Datetime → Option Datetime → Bool
  | none, none => true
  | some a, some b => a.same b
  | _, _ => false

theorem Shown.sameOption {driver : Driver} {value shown : Option Datetime}
    (h : Shown driver value shown) : sameOption shown value = true := by
  cases value with
  | none =>
      cases shown with
      | none => rfl
      | some d => exact h.elim
  | some d =>
      cases shown with
      | none => exact h.elim
      | some shown => exact same_inSession h

/-- Only an aware datetime is the same as an aware one. -/
theorem aware_of_same {a b : Datetime} (h : a.same b = true) (hb : b.offset.isSome = true) :
    a.offset.isSome = true := by
  obtain ⟨offset, hoffset⟩ := Option.isSome_iff_exists.mp hb
  cases ha : a.offset with
  | some offset => rfl
  | none =>
      have hnone : a.instant? = none := by
        rw [Datetime.instant?, ha]
        rfl
      rw [Datetime.same, hnone, instant?_of hoffset] at h
      exact nomatch h

theorem aware_of_sameOption {a b : Option Datetime} (h : sameOption a b = true)
    (hb : ∀ d ∈ b, d.offset.isSome = true) : ∀ d ∈ a, d.offset.isSome = true := by
  intro d hd
  cases b with
  | none =>
      cases a with
      | none => exact nomatch hd
      | some a => exact nomatch h
  | some b =>
      cases a with
      | none => exact nomatch hd
      | some a => exact Option.some.inj hd ▸ aware_of_same h (hb b rfl)

/-- What `_to_record` makes of a row, part by part. -/
structure Assembled (values : Values) (read : TimedRecord) : Prop where
  fields : validateFields values = some read.toRecordFields
  completed : ∃ v, inUtc values "run_completed_at" = .ok v
  created : field values "created_at" datetime none = some read.createdAt

theorem valid_ok {α : Type} {value : Option α} {a : α} (h : valid value = .ok a) :
    value = some a := by
  cases value with
  | none => exact nomatch h
  | some b => rw [Except.ok.inj h]

theorem toTimedRecord_assembled {values : Values} {events : List TimedStageEvent} {read : TimedRecord}
    (h : toTimedRecord values events = .ok read) : Assembled values read := by
  obtain ⟨completed, hcompleted, h⟩ := bind_ok h
  obtain ⟨feedback, _, h⟩ := bind_ok h
  obtain ⟨resolved, _, h⟩ := bind_ok h
  obtain ⟨resolution, _, h⟩ := bind_ok h
  obtain ⟨fields, hfields, h⟩ := bind_ok h
  obtain ⟨_, _, h⟩ := bind_ok h
  obtain ⟨_, _, h⟩ := bind_ok h
  obtain ⟨_, _, h⟩ := bind_ok h
  obtain ⟨created, hcreated, h⟩ := bind_ok h
  obtain ⟨_, _, h⟩ := bind_ok h
  rw [← Except.ok.inj h]
  exact ⟨valid_ok hfields, ⟨completed, hcompleted⟩, valid_ok hcreated⟩

/-- A row without feedback and resolution. -/
theorem toTimedRecord_plain {values : Values} {events : List TimedStageEvent} {fields : RecordFields}
    {completed completedUtc started finished : Option Datetime} {created updated : Datetime}
    (hfields : validateFields values = some fields)
    (hfeedback : values.lookup "feedback_run_id" = some (.plain .null))
    (houtcome : values.lookup "resolution_outcome" = some (.plain .null))
    (hresolved : values.lookup "resolution_completed_at" = some (.plain .null))
    (hcompleted : values.lookup "run_completed_at" = some (.ofDatetime completed))
    (hutc : optionalUtc (.ofDatetime completed) = .ok (.ofDatetime completedUtc))
    (hstarted : values.lookup "analysis_started_at" = some (.ofDatetime started))
    (hfinished : values.lookup "analysis_completed_at" = some (.ofDatetime finished))
    (hcreated : values.lookup "created_at" = some (.datetime created))
    (hupdated : values.lookup "updated_at" = some (.datetime updated)) :
    toTimedRecord values events
      = .ok ⟨fields, completedUtc, started, finished, created, updated, none, none, events⟩ := by
  have hread (value : Option Datetime) :
      optionalDatetime (.ofDatetime value) = some value := by
    cases value with
    | none => rfl
    | some d => rfl
  have hcompletedUtc : inUtc values "run_completed_at" = .ok (.ofDatetime completedUtc) := by
    rw [inUtc, hcompleted]
    exact hutc
  have hnoFeedback : readFeedback values = .ok none := by
    rw [readFeedback, hfeedback]
    rfl
  have hresolvedUtc : inUtc values "resolution_completed_at" = .ok (.plain .null) := by
    rw [inUtc, hresolved]
    rfl
  have hnoResolution : readResolution (("resolution_completed_at", .plain .null) :: values)
      = .ok none := by
    have hlookup : List.lookup "resolution_outcome"
        (("resolution_completed_at", PyValue.plain .null) :: values) = some (.plain .null) :=
      houtcome
    rw [readResolution, hlookup]
    rfl
  unfold toTimedRecord
  rw [hcompletedUtc, hnoFeedback, hresolvedUtc]
  show (readResolution (("resolution_completed_at", .plain .null) :: values) >>= _) = _
  rw [hnoResolution, hfields, field, hstarted, field, hfinished, field, hcreated, field, hupdated]
  show (valid (optionalDatetime (.ofDatetime completedUtc)) >>= _) = _
  rw [hread]
  show (valid (optionalDatetime (.ofDatetime started)) >>= _) = _
  rw [hread]
  show (valid (optionalDatetime (.ofDatetime finished)) >>= _) = _
  rw [hread]
  rfl

/-! ## Inserting and getting -/

theorem createIfAbsent_true {driver : Driver} {tables tables' : Tables driver.backend}
    {record : TimedRecord} (h : createIfAbsent driver tables record = .ok (tables', true)) :
    ∃ row, IsRowOf driver record row ∧ violates tables row = false
      ∧ tables' = inserted tables row := by
  obtain ⟨row, hrow, hresult⟩ := bind_ok h
  refine ⟨row, hrow, ?_⟩
  cases hviolates : violates tables row with
  | true =>
      rw [hviolates] at hresult
      exact nomatch congrArg Prod.snd (Except.ok.inj hresult)
  | false =>
      rw [hviolates] at hresult
      exact ⟨rfl, (congrArg Prod.fst (Except.ok.inj hresult)).symm⟩

/-- What `get` returns was made of a row. -/
theorem get_some {driver : Driver} {tables : Tables driver.backend} {runId : Int}
    {installationIds : Option (List Int)} {read : TimedRecord}
    (h : Columns.get driver tables runId installationIds = .ok (some read)) :
    ∃ row joined values events, fetchRow driver row joined = .ok values
      ∧ toTimedRecord values events = .ok read := by
  unfold Columns.get at h
  split at h
  · exact nomatch h
  · split at h
    · exact nomatch h
    · rename_i row hfound
      obtain ⟨values, hfetch, h⟩ := bind_ok h
      obtain ⟨events, hevents, h⟩ := bind_ok h
      obtain ⟨made, hmade, h⟩ := bind_ok h
      have hread : made = read := Option.some.inj (Except.ok.inj h)
      rw [hread] at hmade
      exact ⟨row, _, values, events, hfetch, hmade⟩

section Inserted

variable {driver : Driver} {tables : Tables driver.backend} {record : TimedRecord}
  {row : StoredRow}

theorem IsRowOf.runId (hrow : IsRowOf driver record row) :
    row.int "run_id" = some record.runId := by
  have hkeep := hrow.cell (rfl : columnNamed "run_id" = some _)
  have hcell : row.cell "run_id" = .plain (.int record.runId) := (Except.ok.inj hkeep).symm
  rw [StoredRow.int, hcell]

/-- No analysis had the run id. -/
theorem fresh_of_not_violates (hrow : IsRowOf driver record row)
    (hviolates : violates tables row = false) :
    ∀ other ∈ tables.analyses, other.int "run_id" ≠ some record.runId := by
  intro other hother hid
  unfold violates at hviolates
  rw [Bool.or_eq_false_iff, List.any_eq_false] at hviolates
  apply hviolates.2 other hother
  rw [hid, hrow.runId, beq_self_eq_true, Bool.true_or]

/-- **What `get` does after the insertion**, on PostgreSQL. -/
theorem get_inserted (hbackend : driver.backend = .postgresql) (hrow : IsRowOf driver record row)
    (hviolates : violates tables row = false) :
    Columns.get driver (inserted tables row) record.runId none
      = fetchRow driver row [] >>= fun values => (toTimedRecord values []).map some := by
  have hfresh := fresh_of_not_violates hrow hviolates
  -- neither feedback nor events can belong to a run id that no analysis had
  have hothers : ∀ other ∈ tables.feedback ++ tables.stageEvents,
      other.int "run_id" ≠ some record.runId := by
    intro other hother hid
    obtain ⟨analysis, hmem, hsame⟩ := tables.references hbackend other hother
    exact hfresh analysis hmem (hsame.trans hid)
  have hfind : ((inserted tables row).analyses.find? fun other =>
      other.int "run_id" == some record.runId && visible none other) = some row := by
    show (tables.analyses ++ [row]).find? _ = _
    rw [List.find?_append, List.find?_eq_none.mpr]
    · rw [Option.none_or, List.find?_cons, hrow.runId, beq_self_eq_true]
      rfl
    · intro other hother
      have hne := beq_eq_false_iff_ne.mpr (hfresh other hother)
      rw [hne, Bool.false_and]
      exact Bool.false_ne_true
  have hjoined : ((inserted tables row).feedback.find? fun other =>
      other.int "run_id" == some record.runId) = none := by
    rw [List.find?_eq_none]
    intro other hother hid
    exact hothers other (List.mem_append_left _ hother) (eq_of_beq hid)
  have hevents : stageHistory driver (inserted tables row) record.runId = .ok [] := by
    have hnone : ((inserted tables row).stageEvents.filter fun other =>
        other.int "run_id" == some record.runId) = [] := by
      rw [List.filter_eq_nil_iff]
      intro other hother hid
      exact hothers other (List.mem_append_right _ hother) (eq_of_beq hid)
    unfold stageHistory
    dsimp only
    rw [hnone]
    rfl
  unfold Columns.get
  rw [if_neg nofun, hfind, hjoined]
  dsimp only [Option.getD_none]
  cases hfetch : fetchRow driver row [] with
  | error failure => rfl
  | ok values =>
      show (stageHistory driver (inserted tables row) record.runId >>= _) = _
      rw [hevents]
      show (toTimedRecord values [] >>= fun record => pure (some record)) = (toTimedRecord values []).map some
      cases toTimedRecord values [] with
      | error failure => rfl
      | ok read => rfl

end Inserted

/-! ## The round trip -/

/-- The datetimes of a record. -/
def datetimesOf (record : TimedRecord) : List Datetime :=
  record.runCompletedAt.toList ++ (record.analysisStartedAt.toList
    ++ (record.analysisCompletedAt.toList ++ [record.createdAt, record.updatedAt]))

/-- `read == record`, with datetimes compared as moments. -/
structure SameRecord (read record : TimedRecord) : Prop where
  fields : read.toRecordFields = record.toRecordFields
  runCompletedAt : sameOption read.runCompletedAt record.runCompletedAt = true
  analysisStartedAt : sameOption read.analysisStartedAt record.analysisStartedAt = true
  analysisCompletedAt : sameOption read.analysisCompletedAt record.analysisCompletedAt = true
  createdAt : read.createdAt.same record.createdAt = true
  updatedAt : read.updatedAt.same record.updatedAt = true
  feedback : read.feedback = record.feedback
  resolution : read.resolution = record.resolution
  stageHistory : read.stageHistory = record.stageHistory

/-- All datetimes have a timezone. -/
def AwareRecord (record : TimedRecord) : Prop :=
  ∀ d ∈ datetimesOf record, d.offset.isSome = true

/-- Every datetime can be shown: in the time zone of the PostgreSQL session, and the completion of
the run in UTC. That excludes moments less than one offset away from the years 0 and 10000. -/
structure Showable (driver : Driver) (record : TimedRecord) : Prop where
  inZone : ∀ d ∈ datetimesOf record, ∀ i ∈ d.instant?, InRange (i + driver.zone i)
  inUtc : ∀ d ∈ record.runCompletedAt, ∀ i ∈ d.instant?, InRange i

/-- What is bound to a column: a datetime of the record, or no datetime at all. -/
def Carried (record : TimedRecord) (value : PyValue) : Prop :=
  (∃ v, value = .plain v) ∨ ∃ d ∈ datetimesOf record, value = .datetime d

theorem carried_plain {record : TimedRecord} (value : Json) : Carried record (.plain value) :=
  Or.inl ⟨value, rfl⟩

theorem carried_ofDatetime {record : TimedRecord} {value : Option Datetime}
    (h : ∀ d ∈ value.toList, d ∈ datetimesOf record) : Carried record (.ofDatetime value) := by
  cases value with
  | none => exact carried_plain .null
  | some d => exact Or.inr ⟨d, h d List.mem_cons_self, rfl⟩

theorem lookup_carried {record : TimedRecord} {values : Values}
    (h : ∀ p ∈ values, Carried record p.2) {name : String} {default : PyValue}
    (hdefault : Carried record default) : Carried record ((values.lookup name).getD default) := by
  induction values with
  | nil => exact hdefault
  | cons p values ih =>
      rw [List.lookup_cons]
      split
      · exact h p List.mem_cons_self
      · exact ih fun q hq => h q (List.mem_cons_of_mem p hq)

def isPlain : PyValue → Bool
  | .plain _ => true
  | .datetime _ => false

theorem default_carried (record : TimedRecord) {column : Column}
    (hcolumn : column ∈ analysesColumns) : Carried record column.default := by
  have hall : (analysesColumns.all fun column => isPlain column.default) = true := rfl
  have hplain := List.all_eq_true.mp hall column hcolumn
  cases hdefault : column.default with
  | plain v => exact carried_plain v
  | datetime d =>
      rw [hdefault] at hplain
      exact nomatch hplain

theorem bound_carried (record : TimedRecord) {column : Column}
    (hcolumn : column ∈ analysesColumns) : Carried record (bound record column) := by
  refine lookup_carried ?_ (default_carried record hcolumn)
  have hcompleted : ∀ d ∈ record.runCompletedAt.toList, d ∈ datetimesOf record :=
    fun d hd => List.mem_append_left _ hd
  have hstarted : ∀ d ∈ record.analysisStartedAt.toList, d ∈ datetimesOf record :=
    fun d hd => List.mem_append_right _ (List.mem_append_left _ hd)
  have hfinished : ∀ d ∈ record.analysisCompletedAt.toList, d ∈ datetimesOf record :=
    fun d hd => List.mem_append_right _ (List.mem_append_right _ (List.mem_append_left _ hd))
  have hcreated : record.createdAt ∈ datetimesOf record := by simp [datetimesOf]
  have hupdated : record.updatedAt ∈ datetimesOf record := by simp [datetimesOf]
  unfold insertValues
  simp only [List.forall_mem_cons, carried_plain, true_and]
  exact ⟨carried_ofDatetime hcompleted, carried_ofDatetime hstarted, carried_ofDatetime hfinished,
    Or.inr ⟨_, hcreated, rfl⟩, Or.inr ⟨_, hupdated, rfl⟩, fun _ h => absurd h List.not_mem_nil⟩

section RoundTrip

variable {driver : Driver} {tables tables' : Tables driver.backend} {record : TimedRecord}
  {row : StoredRow} {values : Values}

theorem inSession_total {d : Datetime} (haware : d.offset.isSome = true)
    (hrange : ∀ i ∈ d.instant?, InRange (i + driver.zone i)) :
    ∃ shown, inSession driver d = some shown := by
  obtain ⟨offset, hoffset⟩ := Option.isSome_iff_exists.mp haware
  have hinstant := instant?_of hoffset
  rw [inSession, hinstant]
  exact ⟨_, of?_eq (hrange _ hinstant)⟩

/-- A row whose datetimes can be shown is fetched. -/
theorem fetchRow_total (hbackend : driver.backend = .postgresql)
    (hrow : IsRowOf driver record row) (haware : AwareRecord record)
    (hzone : ∀ d ∈ datetimesOf record, ∀ i ∈ d.instant?, InRange (i + driver.zone i)) :
    ∃ values, fetchRow driver row [] = .ok values := by
  refine build_total ?_
  intro selected hselected
  rcases List.mem_append.mp hselected with hanalysis | hfeedback
  · obtain ⟨column, hcolumn, hsame⟩ := List.mem_map.mp hanalysis
    obtain ⟨cell, hbind, hlookup⟩ := lookup_build hrow analysesColumns_nodup column hcolumn
    have hcell : row.cell column.name = cell := by rw [StoredRow.cell, hlookup]; rfl
    rw [← hsame]
    show ∃ v, driver.fetch column.type (row.cell column.name) = .ok v
    rw [hcell]
    rcases bound_carried record hcolumn with ⟨v, hv⟩ | ⟨d, hd, hv⟩
    · rw [hv] at hbind
      exact ⟨_, fetch_keep_plain hbackend (bind_keep hbind)⟩
    · rw [hv] at hbind
      obtain ⟨shown, hshown⟩ := inSession_total (haware d hd) (hzone d hd)
      refine ⟨.datetime shown, ?_⟩
      rw [fetch_keep_datetime hbackend (haware d hd) (bind_keep hbind), hshown]
  · obtain ⟨column, hcolumn, hsame⟩ := List.mem_map.mp hfeedback
    rw [← hsame]
    refine ⟨.plain .null, ?_⟩
    show driver.fetch column.type .null = _
    cases column.type <;> rfl

/-- The datetimes of a fetched row. -/
structure ShownTimes (driver : Driver) (record : TimedRecord) (values : Values)
    (completed started finished : Option Datetime) (created updated : Datetime) : Prop where
  completed : Shown driver record.runCompletedAt completed
    ∧ values.lookup "run_completed_at" = some (.ofDatetime completed)
  started : Shown driver record.analysisStartedAt started
    ∧ values.lookup "analysis_started_at" = some (.ofDatetime started)
  finished : Shown driver record.analysisCompletedAt finished
    ∧ values.lookup "analysis_completed_at" = some (.ofDatetime finished)
  created : inSession driver record.createdAt = some created
    ∧ values.lookup "created_at" = some (.datetime created)
  updated : inSession driver record.updatedAt = some updated
    ∧ values.lookup "updated_at" = some (.datetime updated)

theorem shownTimes (hbackend : driver.backend = .postgresql) (hrow : IsRowOf driver record row)
    (haware : AwareRecord record) (hfetch : fetchRow driver row [] = .ok values) :
    ∃ completed started finished created updated,
      ShownTimes driver record values completed started finished created updated := by
  have htime (value : Option Datetime) {name : String} {column : Column}
      (hcolumn : columnNamed name = some column) (hbound : bound record column = .ofDatetime value)
      (hvalue : ∀ d ∈ value.toList, d ∈ datetimesOf record) :
      ∃ shown, Shown driver value shown ∧ values.lookup name = some (.ofDatetime shown) :=
    datetime_lookup hbackend hrow hfetch hcolumn hbound
      fun d hd => haware d (hvalue d (Option.mem_toList.mpr hd))
  obtain ⟨completed, hcompleted⟩ := htime record.runCompletedAt
    (rfl : columnNamed "run_completed_at" = some _) rfl
    fun d hd => List.mem_append_left _ hd
  obtain ⟨started, hstarted⟩ := htime record.analysisStartedAt
    (rfl : columnNamed "analysis_started_at" = some _) rfl
    fun d hd => List.mem_append_right _ (List.mem_append_left _ hd)
  obtain ⟨finished, hfinished⟩ := htime record.analysisCompletedAt
    (rfl : columnNamed "analysis_completed_at" = some _) rfl
    fun d hd => List.mem_append_right _ (List.mem_append_right _ (List.mem_append_left _ hd))
  obtain ⟨created, hcreated⟩ := htime (some record.createdAt)
    (rfl : columnNamed "created_at" = some _) rfl (by simp [datetimesOf])
  obtain ⟨updated, hupdated⟩ := htime (some record.updatedAt)
    (rfl : columnNamed "updated_at" = some _) rfl (by simp [datetimesOf])
  cases created with
  | none => exact hcreated.1.elim
  | some created =>
      cases updated with
      | none => exact hupdated.1.elim
      | some updated =>
          exact ⟨completed, started, finished, created, updated, hcompleted, hstarted, hfinished,
            hcreated, hupdated⟩

/-- The moments that a session shows are within its range. -/
theorem Shown.inZone {value shown : Option Datetime} (h : Shown driver value shown) :
    ∀ d ∈ value, ∀ i ∈ d.instant?, InRange (i + driver.zone i) := by
  intro d hd i hi
  cases value with
  | none => exact nomatch hd
  | some e =>
      cases shown with
      | none => exact h.elim
      | some shown =>
          obtain ⟨j, hj, hrange, _⟩ := inSession_some h
          rw [Option.some.inj hd, Option.mem_def.mp hi] at hj
          rw [Option.some.inj hj]
          exact hrange

theorem forall_datetimesOf {P : Datetime → Prop} (hcompleted : ∀ d ∈ record.runCompletedAt, P d)
    (hstarted : ∀ d ∈ record.analysisStartedAt, P d)
    (hfinished : ∀ d ∈ record.analysisCompletedAt, P d) (hcreated : P record.createdAt)
    (hupdated : P record.updatedAt) : ∀ d ∈ datetimesOf record, P d := by
  intro d hd
  unfold datetimesOf at hd
  simp only [List.mem_append, List.mem_cons, Option.mem_toList, List.not_mem_nil, or_false] at hd
  rcases hd with h | h | h | h | h
  · exact hcompleted d h
  · exact hstarted d h
  · exact hfinished d h
  · exact h ▸ hcreated
  · exact h ▸ hupdated

theorem asUtc_of {d : Datetime} {i : Instant} (h : d.instant? = some i) :
    d.asUtc = Datetime.of? i (some 0) := by
  rw [Datetime.asUtc, h]

theorem optionalUtc_some (d : Datetime) :
    optionalUtc (.ofDatetime (some d))
      = match d.asUtc with
        | some utc => .ok (.datetime utc)
        | none => .error .overflow := rfl

/-- The completion of a run is the same moment in UTC. -/
theorem optionalUtc_total {value shown : Option Datetime} (h : Shown driver value shown)
    (hutc : ∀ d ∈ value, ∀ i ∈ d.instant?, InRange i) :
    ∃ utc, optionalUtc (.ofDatetime shown) = .ok (.ofDatetime utc)
      ∧ sameOption utc value = true := by
  cases value with
  | none =>
      cases shown with
      | none => exact ⟨none, rfl, rfl⟩
      | some d => exact h.elim
  | some d =>
      cases shown with
      | none => exact h.elim
      | some shown =>
          obtain ⟨i, hd, _, hshown, _⟩ := inSession_some h
          have hrange := hutc d rfl i hd
          refine ⟨some ⟨i, some 0, hrange⟩, ?_, ?_⟩
          · rw [optionalUtc_some, asUtc_of hshown, of?_eq hrange]
            rfl
          · refine same_of_instant ?_ hd
            rw [instant?_of (rfl : (⟨i, some 0, hrange⟩ : Datetime).offset = some 0)]
            exact congrArg some (Int.sub_zero i)

theorem optionalUtc_inRange {value shown : Option Datetime} (h : Shown driver value shown)
    {v : PyValue} (hok : optionalUtc (.ofDatetime shown) = .ok v) :
    ∀ d ∈ value, ∀ i ∈ d.instant?, InRange i := by
  intro d hd i hi
  cases value with
  | none => exact nomatch hd
  | some e =>
      cases shown with
      | none => exact h.elim
      | some shown =>
          obtain ⟨j, hj, _, hshown, _⟩ := inSession_some h
          rw [Option.some.inj hd, Option.mem_def.mp hi] at hj
          rw [← Option.some.inj hj] at hshown
          rw [optionalUtc_some, asUtc_of hshown] at hok
          cases hutc : Datetime.of? i (some 0) with
          | none =>
              rw [hutc] at hok
              exact nomatch hok
          | some utc => exact (of?_some hutc).1

theorem SameRecord.aware {read : TimedRecord} (h : SameRecord read record)
    (haware : AwareRecord record) : AwareRecord read := by
  refine forall_datetimesOf ?_ ?_ ?_ ?_ ?_
  · exact aware_of_sameOption h.runCompletedAt fun d hd => haware d (by simp_all [datetimesOf])
  · exact aware_of_sameOption h.analysisStartedAt fun d hd => haware d (by simp_all [datetimesOf])
  · exact aware_of_sameOption h.analysisCompletedAt
      fun d hd => haware d (by simp_all [datetimesOf])
  · exact aware_of_same h.createdAt (haware _ (by simp [datetimesOf]))
  · exact aware_of_same h.updatedAt (haware _ (by simp [datetimesOf]))

/-- A row of a record whose datetimes can be shown is read back as the same record. -/
theorem toTimedRecord_same (hbackend : driver.backend = .postgresql)
    (hrow : IsRowOf driver record row) (haware : AwareRecord record)
    (hshowable : Showable driver record) (hbare : record.feedback = none)
    (hunresolved : record.resolution = none) (hhistory : record.stageHistory = [])
    (hfetch : fetchRow driver row [] = .ok values) :
    ∃ read, toTimedRecord values [] = .ok read ∧ SameRecord read record ∧ AwareRecord read := by
  obtain ⟨completed, started, finished, created, updated, htimes⟩ :=
    shownTimes hbackend hrow haware hfetch
  obtain ⟨utc, hutc, hcompleted⟩ := optionalUtc_total htimes.completed.1 hshowable.inUtc
  have hfeedback : values.lookup "feedback_run_id" = some (.plain .null) := by
    have hselected : (⟨"feedback_run_id", ⟨"run_id", .integer, false, .plain .null⟩, true⟩ :
        Selected) ∈ analysisSelect :=
      List.mem_append_right _ List.mem_cons_self
    obtain ⟨v, hv, hlookup⟩ := lookup_build hfetch analysisSelect_nodup _ hselected
    rw [hlookup, ← Except.ok.inj hv]
  have hnull {name : String} {column : Column} (hcolumn : columnNamed name = some column)
      (hbound : bound record column = .plain .null) : values.lookup name = some (.plain .null) :=
    plain_lookup hbackend hrow hfetch hcolumn hbound
  have hread := @toTimedRecord_plain values [] record.toRecordFields completed utc started finished
    created updated (validateFields_fetched hbackend hrow hfetch) hfeedback
    (hnull (rfl : columnNamed "resolution_outcome" = some _) rfl)
    (hnull (rfl : columnNamed "resolution_completed_at" = some _) rfl)
    htimes.completed.2 hutc htimes.started.2 htimes.finished.2 htimes.created.2 htimes.updated.2
  have hsame : SameRecord ⟨record.toRecordFields, utc, started, finished, created, updated, none,
      none, []⟩ record :=
    { fields := rfl
      runCompletedAt := hcompleted
      analysisStartedAt := htimes.started.1.sameOption
      analysisCompletedAt := htimes.finished.1.sameOption
      createdAt := same_inSession htimes.created.1
      updatedAt := same_inSession htimes.updated.1
      feedback := hbare.symm
      resolution := hunresolved.symm
      stageHistory := hhistory.symm }
  exact ⟨_, hread, hsame, hsame.aware haware⟩

/-- A row with datetimes that cannot be shown is not read. -/
theorem showable_of_toTimedRecord (hbackend : driver.backend = .postgresql)
    (hrow : IsRowOf driver record row) (haware : AwareRecord record)
    (hfetch : fetchRow driver row [] = .ok values) {read : TimedRecord}
    (hread : toTimedRecord values [] = .ok read) : Showable driver record := by
  obtain ⟨completed, started, finished, created, updated, htimes⟩ :=
    shownTimes hbackend hrow haware hfetch
  have hcreated : Shown driver (some record.createdAt) (some created) := htimes.created.1
  have hupdated : Shown driver (some record.updatedAt) (some updated) := htimes.updated.1
  refine ⟨forall_datetimesOf htimes.completed.1.inZone htimes.started.1.inZone
    htimes.finished.1.inZone (hcreated.inZone _ rfl) (hupdated.inZone _ rfl), ?_⟩
  obtain ⟨v, hv⟩ := (toTimedRecord_assembled hread).completed
  rw [inUtc, htimes.completed.2] at hv
  exact optionalUtc_inRange htimes.completed.1 hv

/-- **SQLite**: whatever `get` returns was created at a naive datetime. -/
theorem created_naive (hbackend : driver.backend = .sqlite) {runId : Int}
    {installationIds : Option (List Int)} {read : TimedRecord}
    (h : Columns.get driver tables runId installationIds = .ok (some read)) :
    read.createdAt.offset = none := by
  obtain ⟨row, joined, values, events, hfetch, hread⟩ := get_some h
  obtain ⟨v, hv, hlookup⟩ := fetched_lookup hfetch (rfl : columnNamed "created_at" = some _)
  have hcreated := (toTimedRecord_assembled hread).created
  rw [field, hlookup] at hcreated
  cases v with
  | plain value => exact nomatch hcreated
  | datetime d =>
      have hsame : d = read.createdAt := Option.some.inj hcreated
      rw [hsame] at hv
      exact fetch_naive hbackend hv

/-- A record is read back: an equal one, whose datetimes have a timezone. -/
def ReadsBack (driver : Driver) (tables : Tables driver.backend) (record : TimedRecord) : Prop :=
  ∃ read, Columns.get driver tables record.runId none = .ok (some read)
    ∧ SameRecord read record ∧ AwareRecord read

theorem not_readsBack_sqlite (hbackend : driver.backend = .sqlite) :
    ¬ ReadsBack driver tables record := by
  intro h
  obtain ⟨read, hget, _, haware⟩ := h
  have hoffset := haware read.createdAt (by simp [datetimesOf])
  rw [created_naive hbackend hget] at hoffset
  exact nomatch hoffset

end RoundTrip

/-- **A record that was created is read back exactly on PostgreSQL**, where the session can show
its datetimes. -/
theorem get_after_create_iff (driver : Driver) (tables tables' : Tables driver.backend)
    (record : TimedRecord) (haware : AwareRecord record) (hfeedback : record.feedback = none)
    (hresolution : record.resolution = none) (hhistory : record.stageHistory = [])
    (hcreate : createIfAbsent driver tables record = .ok (tables', true)) :
    ReadsBack driver tables' record
      ↔ driver.backend = .postgresql ∧ Showable driver record := by
  obtain ⟨row, hrow, hviolates, htables⟩ := createIfAbsent_true hcreate
  cases hbackend : driver.backend with
  | sqlite => exact iff_of_false (not_readsBack_sqlite hbackend) fun h => nomatch h.1
  | postgresql =>
      have hget := get_inserted hbackend hrow hviolates
      rw [← htables] at hget
      rw [and_iff_right rfl]
      constructor
      · intro h
        obtain ⟨read, hread, _⟩ := h
        rw [hget] at hread
        obtain ⟨values, hfetch, hmade⟩ := bind_ok hread
        cases hrecord : toTimedRecord values [] with
        | error failure =>
            rw [hrecord] at hmade
            exact nomatch hmade
        | ok made => exact showable_of_toTimedRecord hbackend hrow haware hfetch hrecord
      · intro hshowable
        obtain ⟨values, hfetch⟩ := fetchRow_total hbackend hrow haware hshowable.inZone
        obtain ⟨read, hread, hsame, hawareRead⟩ := toTimedRecord_same hbackend hrow haware hshowable
          hfeedback hresolution hhistory hfetch
        refine ⟨read, ?_, hsame, hawareRead⟩
        rw [hget, hfetch]
        show (toTimedRecord values []).map some = _
        rw [hread]
        rfl

/-! ## A record of both back ends -/

/-- A driver whose PostgreSQL sessions are in UTC. -/
def utcDriver (backend : Backend) : Driver where
  backend := backend
  zone _ := 0
  ofWall wall := wall
  dumps value := String.ofList (value.dumps Json.fractionText)
  loads text := Json.loads Json.fractionText text.toList
  loads_dumps value := by rw [String.toList_ofList, Json.loads_dumps]
  refuses _ _ := false

/-- The first moment of 1970, on a clock in UTC. -/
def epoch : Datetime := ⟨0, some 0, by decide⟩

/-- The same moment, on a clock nine hours ahead. -/
def epochAhead : Datetime := ⟨32400000000, some 32400000000, by decide⟩

def noTables (backend : Backend) : Tables backend := ⟨[], [], [], fun _ => nofun⟩

def epochRecord : TimedRecord where
  runId := 7
  deliveryId := "delivery"
  repository := "acme/api"
  workflowName := "ci"
  headSha := "abc"
  htmlUrl := "https://github.com/acme/api/actions/runs/7"
  classification := some
    ⟨{ category := .test, confidence := 9 / 10, firstError := "E assert 1 == 2",
       relatedStep := some "pytest" }, by decide +kernel⟩
  relatedFiles :=
    [⟨{ filename := "tests/test_sum.py", score := 3 / 4, reasons := ["named in the log"] },
      by decide +kernel⟩]
  runCompletedAt := some epochAhead
  createdAt := epochAhead
  updatedAt := epochAhead

theorem datetimesOf_epochRecord : ∀ d ∈ datetimesOf epochRecord, d = epochAhead := by
  have hdates : datetimesOf epochRecord = [epochAhead, epochAhead, epochAhead] := rfl
  rw [hdates]
  simp

theorem epochRecord_aware : AwareRecord epochRecord := by
  intro d hd
  rw [datetimesOf_epochRecord d hd]
  rfl

theorem epochRecord_showable : Showable (utcDriver .postgresql) epochRecord := by
  have hinstant : epochAhead.instant? = some 0 := rfl
  constructor
  · intro d hd i hi
    rw [datetimesOf_epochRecord d hd, hinstant] at hi
    have hzero : 0 = i := Option.some.inj hi
    rw [← hzero]
    decide
  · intro d hd i hi
    have hcompleted : epochAhead = d := Option.some.inj hd
    rw [← hcompleted, hinstant] at hi
    have hzero : 0 = i := Option.some.inj hi
    rw [← hzero]
    decide

/-- The row that is inserted for `epochRecord`, if one is. -/
theorem epochRecord_created (backend : Backend) :
    ∃ tables, createIfAbsent (utcDriver backend) (noTables backend) epochRecord
      = .ok (tables, true) := by
  cases backend with
  | sqlite => exact ⟨_, rfl⟩
  | postgresql => exact ⟨_, rfl⟩

theorem get_after_create_iff_queued :
    ∃ tables, createIfAbsent (utcDriver .postgresql) (noTables .postgresql) epochRecord
        = .ok (tables, true)
      ∧ ReadsBack (utcDriver .postgresql) tables epochRecord := by
  obtain ⟨tables, hcreated⟩ := epochRecord_created .postgresql
  have hiff := get_after_create_iff _ _ tables epochRecord epochRecord_aware rfl rfl rfl hcreated
  exact ⟨tables, hcreated, hiff.mpr ⟨rfl, epochRecord_showable⟩⟩

/-- On SQLite the record is created, but no equal one is read back. -/
theorem queued_not_read_back :
    ∃ tables, createIfAbsent (utcDriver .sqlite) (noTables .sqlite) epochRecord
        = .ok (tables, true)
      ∧ ¬ ReadsBack (utcDriver .sqlite) tables epochRecord := by
  obtain ⟨tables, hcreated⟩ := epochRecord_created .sqlite
  exact ⟨tables, hcreated, not_readsBack_sqlite rfl⟩

end PipeLens.Proof
