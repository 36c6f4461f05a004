import PipeLens.Lib.Program
import PipeLens.Payload
import PipeLens.Proof.FailureChain

/-!
# What a rejected payload leaves behind

A payload that is answered with `400`, or that ends the handling with an exception, should
have changed nothing. It does change something when the fault is found after the follow-up
call: the link of an earlier failure is committed by then. The other way is a queue that
takes the analysis and then does not answer `size`.

Both are conditions on the payload and on the store before the handling, and without them
every rejection leaves the analyses as they were.
-/

namespace PipeLens.Proof

open PipeLens

/-- No analysis was added, and no resolution changed. -/
def Untouched (db db' : Db) : Prop :=
  ∀ runId, (db'.row? runId).map resolutionFields = (db.row? runId).map resolutionFields

/-- A client error or an exception; `503` is neither. -/
def IsRejection : WebhookResponse → Prop
  | .badRequest _ => True
  | .internalError => True
  | _ => False

/-- A handling that rejects changes nothing. -/
def RejectsCleanly (db : Db) (handled : Db × WebhookResponse) : Prop :=
  IsRejection handled.2 → Untouched db handled.1

/-! ## Conditions -/

/-- The follow-up call finds an analysis to link. -/
def Links (runtime : Runtime) (db : Db) (incoming : IncomingRun) (clock : HandlingClock) : Prop :=
  ∃ repository, runtime.bind incoming.repository = .text repository
    ∧ candidates db (incoming.followup repository clock) ≠ []

/-- The driver raises on the follow-up call. -/
def FollowupRaises (runtime : Runtime) (payload : Json) (incoming : IncomingRun)
    (clock : HandlingClock) : Prop :=
  (incoming.followup "" clock).isTracked = true
    ∧ (runtime.bind incoming.repository = .refused
      ∨ ∃ repository, runtime.bind incoming.repository = .text repository
        ∧ runtime.followupRefused payload (incoming.followup repository clock) = true)

/-- The rest of the payload is a record that the store takes. -/
def Completes (runtime : Runtime) (payload : Json) (incoming : IncomingRun)
    (clock : HandlingClock) (record : AnalysisRecord) : Prop :=
  incoming.readRecord runtime payload clock = .ok record
    ∧ runtime.createRefused payload record = false

/-- Neither the run nor the delivery is known. -/
def IsNew (db : Db) (runId : Int) (deliveryId : String) : Prop :=
  db.row? runId = none ∧ ∀ runId' row, db.row? runId' = some row → row.deliveryId ≠ deliveryId

/-- The analysis of the run is there and waits for a worker. -/
def Waits (db : Db) (runId : Int) : Prop :=
  ∃ row, db.row? runId = some row ∧ (CompletedRun.queueRequest row).isSome = true

/-- The queue takes the analysis, but does not tell its size. -/
def SizeFails (queue : QueueReply) : Prop :=
  queue.enqueued.isSome = true ∧ queue.sizeRaised = true

/-- A failure that is linked is complete, and the queue does not fail after a change. -/
structure FaultsFoundFirst (runtime : Runtime) (db : Db) (payload : Json) (incoming : IncomingRun)
    (clock : HandlingClock) (queue : QueueReply) : Prop where
  complete : Links runtime db incoming clock →
    ∃ record, Completes runtime payload incoming clock record
  queue : ∀ record, Completes runtime payload incoming clock record → SizeFails queue →
    ¬ IsNew db incoming.runId incoming.deliveryId
      ∧ (Links runtime db incoming clock → ¬ Waits db incoming.runId)

/-! ## The follow-up call -/

section Followup

variable {backend : Backend} {db : Db} {f : FollowupRun} {now : Instant}

/-- A call keeps whatever the resolution values do not set. -/
theorem followup_map {α : Type} (key : AnalysisRow → α)
    (hkey : ∀ row, key (f.resolutionValues row now row) = key row) (runId : Int) :
    ((db.recordFollowupRun backend f now).1.row? runId).map key = (db.row? runId).map key := by
  rcases recordFollowupRun_cases backend db f now with ⟨_, heq⟩ | ⟨c, hc, hrows⟩
  · rw [heq]
  · rw [hrows]
    by_cases he : runId = c.runId
    · rw [if_pos he, he, (mem_candidates.mp hc).2.1, Option.map_some, Option.map_some, hkey]
    · rw [if_neg he]

theorem waits_iff {runId : Int} :
    Waits db runId ↔ ((db.row? runId).map CompletedRun.queueRequest).any Option.isSome = true := by
  unfold Waits
  cases db.row? runId with
  | none => simp
  | some row => simp

theorem waits_followup {runId : Int} :
    Waits (db.recordFollowupRun backend f now).1 runId ↔ Waits db runId := by
  rw [waits_iff, waits_iff, followup_map _ fun _ => rfl]

theorem isNew_followup {runId : Int} {deliveryId : String} :
    IsNew (db.recordFollowupRun backend f now).1 runId deliveryId ↔ IsNew db runId deliveryId := by
  have hdelivery : ∀ runId', ((db.recordFollowupRun backend f now).1.row? runId').map
      AnalysisRow.deliveryId = (db.row? runId').map AnalysisRow.deliveryId :=
    followup_map _ fun _ => rfl
  have hnone : (db.recordFollowupRun backend f now).1.row? runId = none ↔ db.row? runId = none := by
    rw [← Option.map_eq_none_iff, hdelivery, Option.map_eq_none_iff]
  have hother : ∀ db' : Db, (∀ runId' row, db'.row? runId' = some row → row.deliveryId ≠ deliveryId)
      ↔ ∀ runId', (db'.row? runId').map AnalysisRow.deliveryId ≠ some deliveryId := by
    intro db'
    constructor
    · intro h runId' he
      obtain ⟨row, hrow, hid⟩ := Option.map_eq_some_iff.mp he
      exact h runId' row hrow hid
    · intro h runId' row hrow hid
      refine h runId' ?_
      rw [hrow, Option.map_some, hid]
  unfold IsNew
  rw [hnone, hother, hother]
  simp only [hdelivery]

/-- A candidate that is linked has its resolution changed. -/
theorem followup_touches (h : candidates db f ≠ []) :
    ¬ Untouched db (db.recordFollowupRun backend f now).1 := by
  intro huntouched
  rcases recordFollowupRun_cases backend db f now with ⟨hnil, _⟩ | ⟨c, hc, hrows⟩
  · exact h hnil
  · obtain ⟨_, hrow, hcand⟩ := mem_candidates.mp hc
    have hsame := huntouched c.runId
    rw [hrows, if_pos rfl, hrow] at hsame
    exact resolutionFields_ne hcand (Option.some.inj hsame)

end Followup

/-! ## Adding the record -/

section Create

variable {db : Db} {record : AnalysisRecord}

theorem createIfAbsent_of_not_isNew (h : ¬ IsNew db record.runId record.deliveryId) :
    (db.createIfAbsent record).1 = db := by
  unfold Db.createIfAbsent
  split
  · rfl
  · rename_i hdelivery
    cases hins : db.analyses.insert (Db.insertValues record) with
    | none => rfl
    | some analyses =>
        refine absurd ⟨?_, fun runId row hrow hid => hdelivery ?_⟩ h
        · cases hrow : db.row? record.runId with
          | none => rfl
          | some row =>
              have hnone := Table.insert_eq_none (t := db.analyses) (r := Db.insertValues record)
              rw [hins] at hnone
              have hfound : (db.analyses.find? (Db.insertValues record).runId).isSome = true := by
                rw [show db.analyses.find? (Db.insertValues record).runId = some row from hrow]
                rfl
              simp [hfound] at hnone
        · rw [List.any_eq_true]
          exact ⟨row, Table.mem_of_find? hrow, beq_iff_eq.mpr hid⟩

theorem createIfAbsent_of_isNew (h : IsNew db record.runId record.deliveryId) :
    (db.createIfAbsent record).1.row? record.runId = some (Db.insertValues record) :=
  createIfAbsent_fresh record h.1 h.2

/-- The answer at the end is a rejection only when the queue fails on an analysis that waits. -/
theorem rejects_respond {created : Bool} {existing : Option AnalysisRow} {runId : Int}
    {queue : QueueReply} :
    IsRejection (respond created existing runId queue)
      ↔ (existing.bind CompletedRun.queueRequest).isSome = true ∧ SizeFails queue := by
  unfold respond SizeFails
  cases existing.bind CompletedRun.queueRequest with
  | none => simp [IsRejection]
  | some request =>
      cases queue.enqueued with
      | none => simp [IsRejection]
      | some enqueued =>
          cases queue.sizeRaised with
          | false => simp [IsRejection]
          | true => simp [IsRejection]

end Create

/-! ## Reading the record -/

section Reading

variable {runtime : Runtime} {backend : Backend} {db : Db} {payload : Json}
  {incoming : IncomingRun} {clock : HandlingClock}

/-- `answering` never goes on with anything but the value. -/
theorem answering_error {α : Type} {caught : List PyException} {x : Except PyException α}
    {response : WebhookResponse} (h : answering caught x = .error response) :
    IsRejection response := by
  unfold answering at h
  split at h
  · exact nomatch h
  · split at h
    · rw [← Except.error.inj h]
      trivial
    · rw [← Except.error.inj h]
      trivial

theorem readRecord_error {response : WebhookResponse}
    (h : incoming.readRecord runtime payload clock = .error response) : IsRejection response := by
  unfold IncomingRun.readRecord at h
  rcases Program.bind_eq_error h with h | ⟨installation, h⟩
  · exact answering_error h
  rcases Program.bind_eq_error h with h | ⟨id, h⟩
  · exact answering_error h
  split at h
  · rw [← Except.error.inj h]
    trivial
  · rcases Program.bind_eq_error h with h | ⟨headSha, h⟩
    · exact answering_error h
    split at h
    · rw [← Except.error.inj h]
      trivial
    · exact nomatch h

theorem validateRecord_some {headSha id : Json} {record : AnalysisRecord}
    (h : incoming.validateRecord runtime headSha id clock = some record) :
    record.runId = incoming.runId ∧ record.deliveryId = incoming.deliveryId
      ∧ (CompletedRun.queueRequest (Db.insertValues record)).isSome = true := by
  unfold IncomingRun.validateRecord at h
  obtain ⟨repository, _, h⟩ := Option.bind_eq_some_iff.mp h
  obtain ⟨headSha, _, h⟩ := Option.bind_eq_some_iff.mp h
  obtain ⟨installationId, _, h⟩ := Option.bind_eq_some_iff.mp h
  rw [← Option.some.inj h]
  exact ⟨rfl, rfl, rfl⟩

/-- The record is of this run, and waits for a worker. -/
theorem readRecord_ok {record : AnalysisRecord}
    (h : incoming.readRecord runtime payload clock = .ok record) :
    record.runId = incoming.runId ∧ record.deliveryId = incoming.deliveryId
      ∧ (CompletedRun.queueRequest (Db.insertValues record)).isSome = true := by
  unfold IncomingRun.readRecord at h
  obtain ⟨installation, _, h⟩ := Program.bind_eq_ok h
  obtain ⟨id, _, h⟩ := Program.bind_eq_ok h
  split at h
  · exact nomatch h
  · obtain ⟨headSha, _, h⟩ := Program.bind_eq_ok h
    split at h
    · exact nomatch h
    · rename_i record' hvalid
      rw [← Except.ok.inj h]
      exact validateRecord_some hvalid

theorem recordFollowup_eq_none : incoming.recordFollowup runtime backend db payload clock = none
    ↔ FollowupRaises runtime payload incoming clock := by
  unfold IncomingRun.recordFollowup FollowupRaises
  cases (incoming.followup "" clock).isTracked with
  | false => simp
  | true =>
      cases runtime.bind incoming.repository with
      | refused => simp
      | null => simp
      | text repository =>
          cases hrefused : runtime.followupRefused payload (incoming.followup repository clock) with
          | false => simp [hrefused]
          | true => simp [hrefused]

/-- What the follow-up call leaves: the store as it was, or one with the link. -/
theorem recordFollowup_cases {db' : Db}
    (h : incoming.recordFollowup runtime backend db payload clock = some db') :
    (¬ Links runtime db incoming clock ∧ db' = db)
    ∨ ∃ repository, runtime.bind incoming.repository = .text repository
      ∧ candidates db (incoming.followup repository clock) ≠ []
      ∧ db' = (db.recordFollowupRun backend (incoming.followup repository clock)
          clock.linkedAt).1 := by
  unfold IncomingRun.recordFollowup at h
  split at h
  · split at h
    · exact nomatch h
    · rename_i hnull
      refine Or.inl ⟨?_, (Option.some.inj h).symm⟩
      rintro ⟨repository, htext, _⟩
      rw [hnull] at htext
      exact nomatch htext
    · rename_i repository htext
      split at h
      · exact nomatch h
      · by_cases hnil : candidates db (incoming.followup repository clock) = []
        · refine Or.inl ⟨?_, ?_⟩
          · rintro ⟨repository', htext', hlinks⟩
            rw [htext] at htext'
            rw [← Binding.text.inj htext'] at hlinks
            exact hlinks hnil
          · rcases recordFollowupRun_cases backend db (incoming.followup repository clock)
              clock.linkedAt with ⟨_, heq⟩ | ⟨c, hc, _⟩
            · rw [heq] at h
              exact (Option.some.inj h).symm
            · rw [hnil] at hc
              exact nomatch hc
        · exact Or.inr ⟨repository, htext, hnil, (Option.some.inj h).symm⟩
  · rename_i hnot
    refine Or.inl ⟨?_, (Option.some.inj h).symm⟩
    rintro ⟨repository, _, hlinks⟩
    refine hlinks ?_
    unfold candidates
    exact if_neg hnot

theorem recordFollowup_text {repository : String}
    (hrepository : incoming.repository = .str repository)
    (hanswers : ¬ FollowupRaises runtime payload incoming clock) :
    incoming.recordFollowup runtime backend db payload clock
      = some (db.recordFollowupRun backend (incoming.followup repository clock)
          clock.linkedAt).1 := by
  have htext : runtime.bind incoming.repository = .text repository := by
    rw [hrepository]
    rfl
  unfold IncomingRun.recordFollowup
  split
  · rename_i htracked
    rw [htext]
    dsimp only
    split
    · rename_i hrefused
      exact absurd ⟨htracked, Or.inr ⟨repository, htext, hrefused⟩⟩ hanswers
    · rfl
  · rename_i hnot
    have huntracked : ¬ (incoming.followup repository clock).isTracked = true := hnot
    unfold Db.recordFollowupRun
    rw [if_neg huntracked]

/-- On a payload with nothing wrong, the handling is that of the completed run. -/
theorem handleWorkflowRun_eq {delivery : Option String} {queue : QueueReply} {repository : String}
    {headSha : String} {installationId : Int}
    (hread : readRequest runtime delivery payload = .ok incoming)
    (hrepository : incoming.repository = .str repository)
    (hanswers : ¬ FollowupRaises runtime payload incoming clock)
    (hrecord : incoming.conclusion = .failure → Completes runtime payload incoming clock
      ((incoming.toRun repository none none).record incoming.deliveryId headSha installationId
        clock)) :
    handleWorkflowRun runtime backend db delivery payload clock queue
      = githubWebhook backend db
          (incoming.toRun repository (some headSha) (some installationId)) incoming.deliveryId clock
          queue := by
  unfold handleWorkflowRun githubWebhook
  rw [hread]
  dsimp only
  rw [recordFollowup_text hrepository hanswers]
  have hconclusion : (incoming.toRun repository (some headSha) (some installationId)).conclusion
      = incoming.conclusion := rfl
  rw [hconclusion]
  dsimp only
  cases hend : incoming.conclusion with
  | success => rfl
  | failure =>
      obtain ⟨hok, htaken⟩ := hrecord hend
      unfold IncomingRun.finishFailure
      rw [hok]
      dsimp only
      rw [htaken]
      rfl

end Reading

/-! ## The result -/

section Result

variable {runtime : Runtime} {backend : Backend} {db db' : Db} {payload : Json}
  {incoming : IncomingRun} {clock : HandlingClock} {queue : QueueReply}

theorem finishFailure_incomplete (db' : Db) (queue : QueueReply)
    (h : ¬ ∃ record, Completes runtime payload incoming clock record) :
    (incoming.finishFailure runtime db' payload clock queue).1 = db'
      ∧ IsRejection (incoming.finishFailure runtime db' payload clock queue).2 := by
  unfold IncomingRun.finishFailure
  cases hread : incoming.readRecord runtime payload clock with
  | error response => exact ⟨rfl, readRecord_error hread⟩
  | ok record =>
      dsimp only
      cases hrefused : runtime.createRefused payload record with
      | true =>
          rw [if_pos rfl]
          exact ⟨rfl, trivial⟩
      | false => exact absurd ⟨record, hread, hrefused⟩ h

theorem finishFailure_complete {record : AnalysisRecord}
    (h : Completes runtime payload incoming clock record) :
    incoming.finishFailure runtime db' payload clock queue
      = ((db'.createIfAbsent record).1, respond (db'.createIfAbsent record).2
          ((db'.createIfAbsent record).1.row? record.runId) record.runId queue) := by
  unfold IncomingRun.finishFailure
  rw [h.1]
  dsimp only
  rw [h.2]
  rfl

theorem waits_of_bind {runId : Int} :
    ((db.row? runId).bind CompletedRun.queueRequest).isSome = true ↔ Waits db runId := by
  unfold Waits
  cases db.row? runId with
  | none => simp
  | some row => simp

/-- The follow-up call, for what follows: it links or leaves the store, and changes neither
what is new nor what waits. -/
structure Followed (runtime : Runtime) (db db' : Db) (incoming : IncomingRun)
    (clock : HandlingClock) : Prop where
  same : ¬ Links runtime db incoming clock → db' = db
  touched : Links runtime db incoming clock → ¬ Untouched db db'
  absent : ∀ runId, db'.row? runId = none ↔ db.row? runId = none
  isNew : ∀ runId deliveryId, IsNew db' runId deliveryId ↔ IsNew db runId deliveryId
  waits : ∀ runId, Waits db' runId ↔ Waits db runId

theorem followed_of_recordFollowup
    (h : incoming.recordFollowup runtime backend db payload clock = some db') :
    Followed runtime db db' incoming clock := by
  rcases recordFollowup_cases h with ⟨hnot, rfl⟩ | ⟨repository, htext, hcand, rfl⟩
  · exact ⟨fun _ => rfl, fun hlinks => absurd hlinks hnot, fun _ => Iff.rfl, fun _ _ => Iff.rfl,
      fun _ => Iff.rfl⟩
  · refine ⟨fun hnot => absurd ⟨repository, htext, hcand⟩ hnot, fun _ => followup_touches hcand,
      fun runId => ?_, fun _ _ => isNew_followup, fun _ => waits_followup⟩
    rw [← Option.map_eq_none_iff (f := AnalysisRow.runId), followup_map _ fun _ => rfl,
      Option.map_eq_none_iff]

/-- An analysis that is added, or linked, is not untouched. -/
theorem finishFailure_iff (hf : Followed runtime db db' incoming clock) :
    RejectsCleanly db (incoming.finishFailure runtime db' payload clock queue)
      ↔ FaultsFoundFirst runtime db payload incoming clock queue := by
  by_cases hcomplete : ∃ record, Completes runtime payload incoming clock record
  · obtain ⟨record, hrecord⟩ := hcomplete
    obtain ⟨hrun, hdelivery, hwaiting⟩ := readRecord_ok hrecord.1
    have hnewHere : IsNew db' record.runId record.deliveryId
        ↔ IsNew db incoming.runId incoming.deliveryId := by
      rw [hf.isNew, hrun, hdelivery]
    unfold RejectsCleanly
    rw [finishFailure_complete hrecord, rejects_respond, waits_of_bind]
    dsimp only
    constructor
    · intro h
      refine ⟨fun _ => ⟨record, hrecord⟩, fun _ _ hsize => ⟨fun hnew => ?_, fun hlinks hwaits => ?_⟩⟩
      · -- it is added, and waits
        have hrow := createIfAbsent_of_isNew (hnewHere.mpr hnew)
        have hsame := h ⟨⟨_, hrow, hwaiting⟩, hsize⟩ record.runId
        rw [hrow, hrun, hnew.1] at hsame
        exact nomatch hsame
      · -- it was there, and is linked
        have hnot : ¬ IsNew db' record.runId record.deliveryId := by
          intro hnew
          obtain ⟨row, hrow, _⟩ := hwaits
          rw [(hnewHere.mp hnew).1] at hrow
          exact nomatch hrow
        rw [createIfAbsent_of_not_isNew hnot, hf.waits, hrun] at h
        exact hf.touched hlinks (h ⟨hwaits, hsize⟩)
    · rintro h ⟨hwaits, hsize⟩
      obtain ⟨hnotNew, hlinked⟩ := h.queue record hrecord hsize
      rw [createIfAbsent_of_not_isNew fun hnew => hnotNew (hnewHere.mp hnew)] at hwaits ⊢
      rw [hf.waits, hrun] at hwaits
      rw [hf.same fun hlinks => hlinked hlinks hwaits]
      exact fun _ => rfl
  · obtain ⟨hdb, hrejects⟩ := finishFailure_incomplete db' queue hcomplete
    unfold RejectsCleanly
    rw [hdb]
    constructor
    · intro h
      exact ⟨fun hlinks => absurd (h hrejects) (hf.touched hlinks),
        fun record hrecord => absurd ⟨record, hrecord⟩ hcomplete⟩
    · intro h _
      have hnot : ¬ Links runtime db incoming clock := fun hlinks => hcomplete (h.complete hlinks)
      rw [hf.same hnot]
      exact fun _ => rfl

end Result

/-- **Rejected payloads.** A handling that gets as far as the follow-up call with a failure
rejects cleanly if and only if whatever is wrong is found before something changes. Every
other handling rejects cleanly. -/
theorem rejectsCleanly_iff (runtime : Runtime) (backend : Backend) (db : Db)
    (delivery : Option String) (payload : Json) (clock : HandlingClock) (queue : QueueReply) :
    RejectsCleanly db (handleWorkflowRun runtime backend db delivery payload clock queue)
      ↔ ∀ incoming, readRequest runtime delivery payload = .ok incoming →
          incoming.conclusion = .failure →
          ¬ FollowupRaises runtime payload incoming clock →
          FaultsFoundFirst runtime db payload incoming clock queue := by
  have hunchanged : ∀ response, RejectsCleanly db (db, response) := fun _ _ _ => rfl
  unfold handleWorkflowRun
  cases hread : readRequest runtime delivery payload with
  | error response => exact ⟨fun _ _ h => (nomatch h), fun _ => hunchanged response⟩
  | ok incoming =>
      dsimp only
      cases hfollowup : incoming.recordFollowup runtime backend db payload clock with
      | none =>
          refine ⟨fun _ incoming' he _ hnot => absurd ?_ hnot, fun _ => hunchanged _⟩
          rw [← Except.ok.inj he]
          exact recordFollowup_eq_none.mp hfollowup
      | some db' =>
          have hanswers : ¬ FollowupRaises runtime payload incoming clock := by
            intro hraises
            have hnone : incoming.recordFollowup runtime backend db payload clock = none :=
              recordFollowup_eq_none.mpr hraises
            rw [hfollowup] at hnone
            exact nomatch hnone
          have hfollowed := followed_of_recordFollowup hfollowup
          cases hconclusion : incoming.conclusion with
          | success =>
              refine ⟨fun _ incoming' he hfailure => ?_, fun _ => ?_⟩
              · rw [← Except.ok.inj he, hconclusion] at hfailure
                exact nomatch hfailure
              · exact fun hrejects => absurd hrejects id
          | failure =>
              have hiff : RejectsCleanly db
                  (incoming.finishFailure runtime db' payload clock queue)
                  ↔ FaultsFoundFirst runtime db payload incoming clock queue :=
                finishFailure_iff hfollowed
              refine hiff.trans ⟨fun h incoming' he _ _ => ?_, fun h => ?_⟩
              · rw [← Except.ok.inj he]
                exact h
              · exact h incoming rfl hconclusion hanswers

/-- Enough of the runtime for payloads whose values have the types they should have. -/
def plainRuntime : Runtime where
  intOfText := fun _ => none
  repr := fun _ => ""
  fromisoformat := fun _ => none
  validateInt := Json.int?
  bindOther := fun _ => .refused
  followupRefused := fun _ _ => false
  createRefused := fun _ _ => false

/-- Run 80 fails on `main`, in a payload without `installation`. -/
def withoutInstallation : Json :=
  .dict [("action", .str "completed"),
    ("repository", .dict [("full_name", .str "acme/widgets")]),
    ("workflow_run", .dict [("id", .int 80), ("run_attempt", .int 1), ("name", .str "CI"),
      ("conclusion", .str "failure"), ("head_sha", .str "abc123"), ("head_branch", .str "main"),
      ("pull_requests", .list []), ("html_url", .str "https://github.com/acme/widgets/actions")])]

/-- It is answered with `400`, and run 77 is linked to it. -/
theorem rejected_after_link :
    (handleWorkflowRun plainRuntime .sqlite (deliver .sqlite Db.empty (widgetDelivery 77 .failure 100))
        (some "delivery-80") withoutInstallation ⟨160, 160, 160⟩ { enqueued := some true }).2
      = .badRequest "payload has no GitHub App installation id"
    ∧ ¬ RejectsCleanly (deliver .sqlite Db.empty (widgetDelivery 77 .failure 100))
      (handleWorkflowRun plainRuntime .sqlite
        (deliver .sqlite Db.empty (widgetDelivery 77 .failure 100)) (some "delivery-80")
        withoutInstallation ⟨160, 160, 160⟩ { enqueued := some true }) := by
  have hresponse : (handleWorkflowRun plainRuntime .sqlite
      (deliver .sqlite Db.empty (widgetDelivery 77 .failure 100)) (some "delivery-80")
      withoutInstallation ⟨160, 160, 160⟩ { enqueued := some true }).2
      = .badRequest "payload has no GitHub App installation id" := by
    decide +kernel
  refine ⟨hresponse, fun h => ?_⟩
  have hsame := h (by rw [hresponse]; trivial) 77
  exact absurd hsame (by decide +kernel)

end PipeLens.Proof
