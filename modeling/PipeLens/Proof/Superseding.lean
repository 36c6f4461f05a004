import Mathlib.Data.List.Induction
import PipeLens.Proof.Fencing

/-!
# Superseding an attempt

`begin_analysis` is meant to close the stages that an interrupted attempt left open. It
fails every event of the run that still says `started`. But a stage that ended keeps its
`started` event beside the one that says how it ended, so these are rewritten as well.

Which attempt recorded an event is not stored. It is kept in a log beside the store: who
began a run, and who recorded what. From the log the events can be read back, and the
events that still say `started` are found to be those that were recorded since the run
was last begun.
-/

namespace PipeLens.Proof

open PipeLens

/-! ## Histories -/

/-- A call on the store: by an attempt on a run, or around the attempts. -/
inductive HistoryCall where
  | create (record : AnalysisRecord)
  | attempt (runId : Int) (op : AttemptOp)
  /-- A status set without a token, as the worker does it. -/
  | setStatus (runId : Int) (status : AnalysisStatus) (values : UpdateValues) (now : Instant)

inductive LogEntry where
  | began (runId : Int) (t : Token)
  | recorded (t : Token) (event : StageEvent)

/-- The store, and what the attempts did to it. -/
structure History where
  db : Db
  log : List LogEntry

/-- What is logged of an operation that succeeds. -/
def AttemptOp.logged (runId : Int) (db : Db) : AttemptOp → List LogEntry
  | .begin t _ => [.began runId t]
  | .recordStage t stage status error now =>
      [.recorded t (db.newEvent runId stage status error now)]
  | .update _ _ _ => []
  | .finish _ _ _ _ => []

def HistoryCall.perform (h : History) : HistoryCall → History
  | .create record => { h with db := (h.db.createIfAbsent record).1 }
  | .setStatus runId status values now =>
      { h with db := (h.db.update runId status values none now).2 }
  | .attempt runId op =>
      { db := (op.apply runId h.db).2
        log := if succeeded (op.apply runId h.db) then h.log ++ op.logged runId h.db else h.log }

/-- The token of a new attempt. -/
def HistoryCall.newToken : HistoryCall → Option Token
  | .attempt _ (.begin t _) => some t
  | _ => none

def History.init : History := ⟨Db.empty, []⟩

/-! ## What a history says -/

def LogEntry.author : LogEntry → Option Token
  | .began _ _ => none
  | .recorded t _ => some t

/-- Who recorded the events, in their order. -/
def authors (log : List LogEntry) : List Token := log.filterMap LogEntry.author

/-- The attempt recorded the end of the stage. -/
def Ended (log : List LogEntry) (t : Token) (runId : Int) (stage : AnalysisStage) : Prop :=
  ∃ event, .recorded t event ∈ log ∧ event.runId = runId ∧ event.stage = stage
    ∧ (event.status = .completed ∨ event.status = .failed)

/-- Of the events there are, those change that are open: started by an attempt that never
recorded the end of the stage. -/
def ChangesOpen (h : History) (runId : Int) (db' : Db) : Prop :=
  (authors h.log).length = h.db.stageEvents.length
  ∧ db'.stageEvents.length = h.db.stageEvents.length
  ∧ ∀ (i : Nat) (t : Token) (event : StageEvent),
    (authors h.log)[i]? = some t → h.db.stageEvents[i]? = some event →
      (db'.stageEvents[i]? ≠ some event ↔
        event.runId = runId ∧ event.status = .started ∧ ¬ Ended h.log t runId event.stage)

def sinceStep (runId : Int) (events : List (Token × StageEvent)) :
    LogEntry → List (Token × StageEvent)
  | .began runId' _ => if runId' = runId then [] else events
  | .recorded t event => if event.runId = runId then events ++ [(t, event)] else events

/-- What was recorded for the run since it was last begun. -/
def sinceBegin (runId : Int) (log : List LogEntry) : List (Token × StageEvent) :=
  log.foldl (sinceStep runId) []

/-- Since the run was last begun, a stage of it was started and ended. -/
def EndedSinceBegin (runId : Int) (log : List LogEntry) : Prop :=
  ∃ t event event', (t, event) ∈ sinceBegin runId log ∧ (t, event') ∈ sinceBegin runId log
    ∧ event.status = .started ∧ event'.stage = event.stage
    ∧ (event'.status = .completed ∨ event'.status = .failed)

/-! ## Reading the events back from the log -/

def shownStep (events : List (Token × StageEvent)) : LogEntry → List (Token × StageEvent)
  | .began runId _ => events.map fun x => (x.1, supersedeEvent runId x.2)
  | .recorded t event => events ++ [(t, event)]

def shown (log : List LogEntry) : List (Token × StageEvent) := log.foldl shownStep []

def begunStep (runId : Int) (last : Option Token) : LogEntry → Option Token
  | .began runId' t => if runId' = runId then some t else last
  | .recorded _ _ => last

/-- The attempt that began the run last. -/
def beganLast (runId : Int) (log : List LogEntry) : Option Token :=
  log.foldl (begunStep runId) none

section Log

variable {log : List LogEntry} {entry : LogEntry} {runId : Int} {t : Token} {event : StageEvent}

@[simp]
theorem shown_concat : shown (log ++ [entry]) = shownStep (shown log) entry :=
  List.foldl_concat ..

@[simp]
theorem sinceBegin_concat :
    sinceBegin runId (log ++ [entry]) = sinceStep runId (sinceBegin runId log) entry :=
  List.foldl_concat ..

@[simp]
theorem beganLast_concat :
    beganLast runId (log ++ [entry]) = begunStep runId (beganLast runId log) entry :=
  List.foldl_concat ..

theorem shown_authors (log : List LogEntry) : (shown log).map Prod.fst = authors log := by
  induction log using List.reverseRecOn with
  | nil => rfl
  | append_singleton log entry ih =>
      rw [shown_concat, authors, List.filterMap_append, ← authors, ← ih]
      cases entry with
      | began runId t => simp [shownStep, LogEntry.author, Function.comp_def]
      | recorded t event => simp [shownStep, LogEntry.author]

theorem mem_of_sinceBegin (h : (t, event) ∈ sinceBegin runId log) :
    .recorded t event ∈ log ∧ event.runId = runId := by
  induction log using List.reverseRecOn with
  | nil => exact nomatch h
  | append_singleton log entry ih =>
      have hbefore : (t, event) ∈ sinceBegin runId log →
          .recorded t event ∈ log ++ [entry] ∧ event.runId = runId :=
        fun h => ⟨List.mem_append_left _ (ih h).1, (ih h).2⟩
      rw [sinceBegin_concat] at h
      cases entry with
      | began runId' t' =>
          rw [sinceStep] at h
          split at h
          · exact nomatch h
          · exact hbefore h
      | recorded t' event' =>
          rw [sinceStep] at h
          split at h
          · rename_i hid
            rcases List.mem_append.mp h with h | h
            · exact hbefore h
            · obtain ⟨ht, he⟩ := Prod.mk.inj (List.mem_singleton.mp h)
              subst ht he
              exact ⟨List.mem_append_right _ List.mem_cons_self, hid⟩
          · exact hbefore h

theorem supersedeEvent_started {event' : StageEvent}
    (h : supersedeEvent runId event' = event) (hstarted : event.status = .started) :
    event' = event ∧ event.runId ≠ runId := by
  unfold supersedeEvent at h
  split at h
  · rw [← h] at hstarted
    exact nomatch hstarted
  · rename_i hnot
    subst h
    exact ⟨rfl, fun hid => hnot ⟨hid, hstarted⟩⟩

/-- An event that still says `started` was recorded since the run was last begun. -/
theorem mem_shown_started (hid : event.runId = runId) (hstarted : event.status = .started) :
    (t, event) ∈ shown log ↔ (t, event) ∈ sinceBegin runId log := by
  induction log using List.reverseRecOn with
  | nil => exact Iff.rfl
  | append_singleton log entry ih =>
      rw [shown_concat, sinceBegin_concat]
      cases entry with
      | began runId' t' =>
          have hkept : (t, event) ∈ shownStep (shown log) (.began runId' t')
              ↔ (t, event) ∈ shown log ∧ runId' ≠ runId := by
            rw [shownStep, List.mem_map]
            constructor
            · rintro ⟨⟨t₀, event₀⟩, hmem, heq⟩
              obtain ⟨hfst, hsnd⟩ := Prod.mk.inj heq
              obtain ⟨hsame, hne⟩ := supersedeEvent_started hsnd hstarted
              subst hfst hsame
              exact ⟨hmem, fun he => hne (hid.trans he.symm)⟩
            · rintro ⟨hmem, hne⟩
              refine ⟨(t, event), hmem, ?_⟩
              have hother : ¬ (event.runId = runId' ∧ event.status = .started) :=
                fun h => hne (h.1.symm.trans hid)
              rw [supersedeEvent, if_neg hother]
          rw [hkept, ih, sinceStep]
          by_cases he : runId' = runId
          · simp [he]
          · simp [he]
      | recorded t' event' =>
          rw [shownStep, sinceStep]
          by_cases he : event'.runId = runId
          · rw [if_pos he, List.mem_append, List.mem_append, ih]
          · rw [if_neg he, List.mem_append, ih, List.mem_singleton]
            constructor
            · rintro (h | h)
              · exact h
              · rw [← (Prod.mk.inj h).2] at he
                exact absurd hid he
            · exact Or.inl

/-! ## Logs of attempts -/

/-- Every attempt begins with a token of its own, and only the last one records. -/
inductive Fenced : List LogEntry → Prop where
  | nil : Fenced []
  | began {log : List LogEntry} {runId : Int} {t : Token} (h : Fenced log)
      (new : ∀ runId', .began runId' t ∉ log) : Fenced (log ++ [.began runId t])
  | recorded {log : List LogEntry} {t : Token} {event : StageEvent} (h : Fenced log)
      (last : beganLast event.runId log = some t) : Fenced (log ++ [.recorded t event])

theorem began_of_beganLast (h : beganLast runId log = some t) : .began runId t ∈ log := by
  induction log using List.reverseRecOn with
  | nil => exact nomatch h
  | append_singleton log entry ih =>
      rw [beganLast_concat] at h
      cases entry with
      | began runId' t' =>
          rw [begunStep] at h
          split at h
          · rename_i he
            rw [he, Option.some.inj h]
            exact List.mem_append_right log List.mem_cons_self
          · exact List.mem_append_left _ (ih h)
      | recorded t' event' => exact List.mem_append_left _ (ih h)

theorem Fenced.began_of_recorded (h : Fenced log) (hmem : .recorded t event ∈ log) :
    .began event.runId t ∈ log := by
  induction h with
  | nil => exact nomatch hmem
  | began _ _ ih =>
      rcases List.mem_append.mp hmem with hmem | hmem
      · exact List.mem_append_left _ (ih hmem)
      · exact nomatch List.mem_singleton.mp hmem
  | recorded _ last ih =>
      rcases List.mem_append.mp hmem with hmem | hmem
      · exact List.mem_append_left _ (ih hmem)
      · obtain ⟨ht, he⟩ := LogEntry.recorded.inj (List.mem_singleton.mp hmem)
        subst ht he
        exact List.mem_append_left _ (began_of_beganLast last)

/-- Only the attempt that began the run last has recorded anything since then. -/
theorem Fenced.author_since (h : Fenced log) (hmem : (t, event) ∈ sinceBegin runId log) :
    beganLast runId log = some t := by
  induction h with
  | nil => exact nomatch hmem
  | @began log runId' t' _ _ ih =>
      rw [sinceBegin_concat, sinceStep] at hmem
      rw [beganLast_concat, begunStep]
      by_cases he : runId' = runId
      · rw [if_pos he] at hmem
        exact nomatch hmem
      · rw [if_neg he] at hmem ⊢
        exact ih hmem
  | @recorded log t' event' _ last ih =>
      rw [sinceBegin_concat, sinceStep] at hmem
      rw [beganLast_concat, begunStep]
      by_cases he : event'.runId = runId
      · rw [if_pos he] at hmem
        rcases List.mem_append.mp hmem with hmem | hmem
        · exact ih hmem
        · rw [(Prod.mk.inj (List.mem_singleton.mp hmem)).1, ← he]
          exact last
      · rw [if_neg he] at hmem
        exact ih hmem

/-- All that this attempt recorded for the run it recorded since then. -/
theorem Fenced.since_of_recorded (h : Fenced log) (hlast : beganLast runId log = some t)
    (hmem : .recorded t event ∈ log) (hid : event.runId = runId) :
    (t, event) ∈ sinceBegin runId log := by
  induction h with
  | nil => exact nomatch hmem
  | @began log runId' t' hlog new ih =>
      have hmem' : .recorded t event ∈ log := by
        rcases List.mem_append.mp hmem with hmem | hmem
        · exact hmem
        · exact nomatch List.mem_singleton.mp hmem
      rw [beganLast_concat, begunStep] at hlast
      rw [sinceBegin_concat, sinceStep]
      by_cases he : runId' = runId
      · -- a new attempt has recorded nothing yet
        rw [if_pos he] at hlast
        rw [← Option.some.inj hlast] at hmem'
        exact absurd (hlog.began_of_recorded hmem') (new event.runId)
      · rw [if_neg he] at hlast ⊢
        exact ih hlast hmem'
  | @recorded log t' event' _ _ ih =>
      rw [beganLast_concat, begunStep] at hlast
      rw [sinceBegin_concat, sinceStep]
      rcases List.mem_append.mp hmem with hmem | hmem
      · split
        · exact List.mem_append_left _ (ih hlast hmem)
        · exact ih hlast hmem
      · obtain ⟨ht, he⟩ := LogEntry.recorded.inj (List.mem_singleton.mp hmem)
        subst ht he
        rw [if_pos hid]
        exact List.mem_append_right _ List.mem_cons_self

/-- An open event of an attempt that ended the stage is one of the attempt that is replaced. -/
theorem Fenced.ended_iff (h : Fenced log) (runId : Int) :
    (∃ t event, (t, event) ∈ shown log ∧ event.runId = runId ∧ event.status = .started
      ∧ Ended log t runId event.stage) ↔ EndedSinceBegin runId log := by
  constructor
  · rintro ⟨t, event, hshown, hid, hstarted, event', hmem, hid', hstage, hended⟩
    have hsince := (mem_shown_started hid hstarted).mp hshown
    have hsince' := h.since_of_recorded (h.author_since hsince) hmem hid'
    exact ⟨t, event, event', hsince, hsince', hstarted, hstage, hended⟩
  · rintro ⟨t, event, event', hsince, hsince', hstarted, hstage, hended⟩
    obtain ⟨_, hid⟩ := mem_of_sinceBegin hsince
    obtain ⟨hmem, hid'⟩ := mem_of_sinceBegin hsince'
    exact ⟨t, event, (mem_shown_started hid hstarted).mpr hsince, hid, hstarted, event', hmem, hid',
      hstage, hended⟩

end Log

/-! ## The store keeps to the log -/

/-- The log is one of attempts, and tells the events and who may go on. -/
structure Follows (h : History) : Prop where
  fenced : Fenced h.log
  events : h.db.stageEvents = (shown h.log).map Prod.snd
  current : ∀ runId t, Current h.db runId t → beganLast runId h.log = some t

theorem follows_init : Follows History.init where
  fenced := .nil
  events := rfl
  current := fun _ _ hc => absurd hc (not_current_of_none rfl)

section Steps

variable {h : History} {runId : Int} {t : Token}

/-- A call that changes neither the events nor, for the worse, who may go on. -/
theorem Follows.of_same (hf : Follows h) {db' : Db} (hevents : db'.stageEvents = h.db.stageEvents)
    (hcurrent : ∀ runId t, Current db' runId t → Current h.db runId t) :
    Follows { h with db := db' } where
  fenced := hf.fenced
  events := hevents.trans hf.events
  current := fun runId t hc => hf.current runId t (hcurrent runId t hc)

theorem current_of_row? {db db' : Db} {runId : Int} (h : db'.row? runId = db.row? runId) {t : Token}
    (hc : Current db' runId t) : Current db runId t := by
  unfold Current at hc ⊢
  rwa [h] at hc

theorem follows_create (hf : Follows h) (record : AnalysisRecord) :
    Follows ((HistoryCall.create record).perform h) := by
  refine hf.of_same (createIfAbsent_stageEvents h.db record) fun runId t hc => ?_
  rcases createIfAbsent_row? h.db record runId with hsame | ⟨_, _, hnew⟩
  · exact current_of_row? hsame hc
  · rw [current_iff hnew] at hc
    exact nomatch hc

theorem follows_setStatus (hf : Follows h) (runId : Int) (status : AnalysisStatus)
    (values : UpdateValues) (now : Instant) :
    Follows ((HistoryCall.setStatus runId status values now).perform h) := by
  refine hf.of_same rfl fun runId' t hc => ?_
  by_cases he : runId' = runId
  · subst he
    exact current_of_update_unfenced hc
  · exact current_of_row? (row?_updateKey_ne he) hc

theorem perform_ok {op : AttemptOp} {db' : Db} (heq : op.apply runId h.db = (.ok (), db')) :
    (HistoryCall.attempt runId op).perform h = ⟨db', h.log ++ op.logged runId h.db⟩ := by
  unfold HistoryCall.perform
  simp only [heq]
  rfl

theorem perform_error {op : AttemptOp} {e : StoreError}
    (heq : op.apply runId h.db = (.error e, h.db)) :
    (HistoryCall.attempt runId op).perform h = h := by
  unfold HistoryCall.perform
  simp only [heq]
  rfl

theorem follows_begin (hf : Follows h) (now : Instant) (hnew : ∀ runId', .began runId' t ∉ h.log) :
    Follows ((HistoryCall.attempt runId (.begin t now)).perform h) := by
  rcases begin_fenced h.db runId t now with ⟨row, db', _, _, heq, hwrote, hevents⟩ | ⟨_, m, heq⟩
  · rw [perform_ok (by rw [AttemptOp.apply, outcomeOf, heq]; rfl)]
    refine ⟨hf.fenced.began hnew, ?_, fun runId' t' hc => ?_⟩
    · show db'.stageEvents = (shown (h.log ++ [.began runId t])).map Prod.snd
      rw [hevents, hf.events, shown_concat, shownStep, List.map_map, List.map_map]
      rfl
    · show beganLast runId' (h.log ++ [.began runId t]) = some t'
      rw [beganLast_concat, begunStep]
      by_cases he : runId = runId'
      · subst he
        rw [if_pos rfl]
        exact ((current_iff hwrote.self).mp hc)
      · rw [if_neg he]
        exact hf.current runId' t' (current_of_row? (hwrote.other runId' (Ne.symm he)) hc)
  · rw [perform_error (by rw [AttemptOp.apply, outcomeOf, heq]; rfl)]
    exact hf

theorem follows_recordStage (hf : Follows h) (stage : AnalysisStage) (status : StageStatus)
    (error : Option String) (now : Instant) :
    Follows ((HistoryCall.attempt runId (.recordStage t stage status error now)).perform h) := by
  rcases recordStage_fenced h.db runId stage status error t now with
    ⟨hc, db', heq, hrows, hevents⟩ | ⟨_, heq⟩
  · rw [perform_ok (by exact heq)]
    refine ⟨hf.fenced.recorded (hf.current runId t hc), ?_, fun runId' t' hc' => ?_⟩
    · show db'.stageEvents = (shown (h.log ++ [.recorded t _])).map Prod.snd
      rw [hevents, hf.events, shown_concat, shownStep, List.map_append]
      rfl
    · show beganLast runId' (h.log ++ [.recorded t _]) = some t'
      rw [beganLast_concat]
      exact hf.current runId' t' (current_of_row? (hrows runId') hc')
  · rw [perform_error (by exact heq)]
    exact hf

/-- An update or a finish writes one row, in which no token appears. -/
theorem follows_wrote (hf : Follows h) {db' : Db} {row row' : AnalysisRow}
    (hrow : h.db.row? runId = some row) (hwrote : Wrote h.db db' runId row')
    (htoken : ∀ t, row'.attemptToken = some t → row.attemptToken = some t)
    (hevents : db'.stageEvents = h.db.stageEvents) : Follows { h with db := db' } := by
  refine hf.of_same hevents fun runId' t' hc => ?_
  by_cases he : runId' = runId
  · subst he
    rw [current_iff hwrote.self] at hc
    exact (current_iff hrow).mpr (htoken t' hc)
  · exact current_of_row? (hwrote.other runId' he) hc

theorem follows_update (hf : Follows h) (values : UpdateValues) (now : Instant) :
    Follows ((HistoryCall.attempt runId (.update t values now)).perform h) := by
  rcases update_fenced h.db runId .running values t now with
    ⟨row, db', hrow, _, heq, hwrote, hevents⟩ | ⟨_, heq⟩
  · rw [perform_ok (by exact heq)]
    show Follows ⟨db', h.log ++ []⟩
    rw [List.append_nil]
    exact follows_wrote hf hrow hwrote (fun _ => id) hevents
  · rw [perform_error (by exact heq)]
    exact hf

theorem follows_finish (hf : Follows h) (startedAt : Instant) (status : AnalysisStatus)
    (now : Instant) :
    Follows ((HistoryCall.attempt runId (.finish t startedAt status now)).perform h) := by
  rcases finish_fenced h.db runId startedAt status t now with
    ⟨row, db', hrow, _, heq, hwrote, hevents⟩ | ⟨_, m, heq⟩
  · rw [perform_ok (by rw [AttemptOp.apply, outcomeOf, heq]; rfl)]
    show Follows ⟨db', h.log ++ []⟩
    rw [List.append_nil]
    exact follows_wrote hf hrow hwrote (fun t ht => absurd ht.symm (Option.some_ne_none t))
      hevents
  · rw [perform_error (by rw [AttemptOp.apply, outcomeOf, heq]; rfl)]
    exact hf

/-- **Every call keeps the store to the log.** -/
theorem follows_perform (hf : Follows h) (call : HistoryCall)
    (hnew : ∀ t, call.newToken = some t → ∀ runId', .began runId' t ∉ h.log) :
    Follows (call.perform h) := by
  cases call with
  | create record => exact follows_create hf record
  | setStatus runId status values now => exact follows_setStatus hf runId status values now
  | attempt runId op =>
      cases op with
      | begin t now => exact follows_begin hf now (hnew t rfl)
      | update t values now => exact follows_update hf values now
      | recordStage t stage status error now => exact follows_recordStage hf stage status error now
      | finish t startedAt status now => exact follows_finish hf startedAt status now

/-- Only a begin adds a token to the log. -/
theorem began_of_perform {call : HistoryCall} {runId' : Int}
    (hmem : .began runId' t ∈ (call.perform h).log) :
    .began runId' t ∈ h.log ∨ call.newToken = some t := by
  cases call with
  | create record => exact Or.inl hmem
  | setStatus runId status values now => exact Or.inl hmem
  | attempt runId op =>
      unfold HistoryCall.perform at hmem
      dsimp only at hmem
      split at hmem
      · rcases List.mem_append.mp hmem with hmem | hmem
        · exact Or.inl hmem
        · cases op with
          | begin t' now =>
              obtain ⟨_, ht⟩ := LogEntry.began.inj (List.mem_singleton.mp hmem)
              exact Or.inr (congrArg some ht.symm)
          | update _ _ _ => exact nomatch hmem
          | recordStage _ _ _ _ _ => exact nomatch List.mem_singleton.mp hmem
          | finish _ _ _ _ => exact nomatch hmem
      · exact Or.inl hmem

end Steps

/-- The history of some calls. -/
def History.of (calls : List HistoryCall) : History :=
  calls.foldl HistoryCall.perform History.init

theorem follows_run {calls : List HistoryCall} (hfresh : (calls.filterMap HistoryCall.newToken).Nodup) :
    Follows (History.of calls)
    ∧ ∀ runId t, .began runId t ∈ (History.of calls).log →
      t ∈ calls.filterMap HistoryCall.newToken := by
  induction calls using List.reverseRecOn with
  | nil => exact ⟨follows_init, fun _ _ hmem => nomatch hmem⟩
  | append_singleton calls call ih =>
      rw [List.filterMap_append, List.nodup_append] at hfresh
      obtain ⟨hbefore, _, hdisjoint⟩ := hfresh
      obtain ⟨hf, htokens⟩ := ih hbefore
      have hrun : History.of (calls ++ [call]) = call.perform (History.of calls) :=
        List.foldl_concat ..
      rw [hrun, List.filterMap_append]
      constructor
      · refine follows_perform hf call fun t ht runId' hmem => ?_
        refine hdisjoint t (htokens runId' t hmem) t ?_ rfl
        simp [ht]
      · intro runId t hmem
        rcases began_of_perform hmem with hmem | hnew
        · exact List.mem_append_left _ (htokens runId t hmem)
        · refine List.mem_append_right _ ?_
          simp [hnew]

/-! ## What a begin changes -/

theorem Follows.getElem?_shown {h : History} (hf : Follows h) {i : Nat} {t : Token}
    {event : StageEvent} (hi : (shown h.log)[i]? = some (t, event)) :
    (authors h.log)[i]? = some t ∧ h.db.stageEvents[i]? = some event := by
  rw [← shown_authors, hf.events, List.getElem?_map, List.getElem?_map, hi]
  exact ⟨rfl, rfl⟩

theorem Follows.shown_getElem? {h : History} (hf : Follows h) {i : Nat} {t : Token}
    {event : StageEvent} (hauthor : (authors h.log)[i]? = some t)
    (hevent : h.db.stageEvents[i]? = some event) : (shown h.log)[i]? = some (t, event) := by
  rw [← shown_authors, List.getElem?_map] at hauthor
  rw [hf.events, List.getElem?_map] at hevent
  obtain ⟨x, hx, ht⟩ := Option.map_eq_some_iff.mp hauthor
  rw [hx] at hevent ⊢
  rw [← ht, ← Option.some.inj hevent]

theorem supersedeEvent_ne_iff {runId : Int} {event : StageEvent} :
    supersedeEvent runId event ≠ event ↔ event.runId = runId ∧ event.status = .started := by
  unfold supersedeEvent
  split
  · rename_i hopen
    refine ⟨fun _ => hopen, fun _ he => ?_⟩
    have hstatus := congrArg StageEvent.status he
    rw [hopen.2] at hstatus
    exact nomatch hstatus
  · rename_i hnot
    exact ⟨fun h => absurd rfl h, fun h => absurd h hnot⟩

/-- **Superseding.** A begin that succeeds changes just the open events if and only if, since
the run was last begun, no stage of it was both started and ended. -/
theorem changesOpen_iff {calls : List HistoryCall}
    (hfresh : (calls.filterMap HistoryCall.newToken).Nodup) {runId : Int} {t : Token} {now : Instant}
    {start : AnalysisStart} {db' : Db}
    (hbegin : (History.of calls).db.beginAnalysis runId (some t) now = (.ok start, db')) :
    ChangesOpen (History.of calls) runId db' ↔ ¬ EndedSinceBegin runId (History.of calls).log := by
  obtain ⟨hf, _⟩ := follows_run hfresh
  have hevents : db'.stageEvents = (History.of calls).db.stageEvents.map (supersedeEvent runId) := by
    rcases begin_fenced (History.of calls).db runId t now with
      ⟨_, db'', _, _, heq, _, hevents⟩ | ⟨_, m, heq⟩
    · rw [hbegin] at heq
      rw [(Prod.mk.inj heq).2]
      exact hevents
    · rw [hbegin] at heq
      exact nomatch heq
  have hsame : ∀ (i : Nat) (event : StageEvent), (History.of calls).db.stageEvents[i]? = some event →
      (db'.stageEvents[i]? ≠ some event ↔ event.runId = runId ∧ event.status = .started) := by
    intro i event hi
    rw [hevents, List.getElem?_map, hi, ← supersedeEvent_ne_iff]
    exact not_congr (Option.some_inj)
  rw [← hf.fenced.ended_iff runId]
  constructor
  · rintro ⟨_, _, hchanges⟩ ⟨author, event, hmem, hid, hstarted, hended⟩
    obtain ⟨i, hi⟩ := List.mem_iff_getElem?.mp hmem
    obtain ⟨hauthor, hevent⟩ := hf.getElem?_shown hi
    have hopen := (hchanges i author event hauthor hevent).mp
      ((hsame i event hevent).mpr ⟨hid, hstarted⟩)
    exact hopen.2.2 hended
  · intro hnone
    refine ⟨?_, ?_, fun i author event hauthor hevent => ?_⟩
    · rw [← shown_authors, hf.events, List.length_map, List.length_map]
    · rw [hevents, List.length_map]
    · rw [hsame i event hevent]
      refine ⟨fun hopen => ⟨hopen.1, hopen.2, fun hended => hnone ?_⟩, fun h => ⟨h.1, h.2.1⟩⟩
      exact ⟨author, event, List.mem_of_getElem? (hf.shown_getElem? hauthor hevent), hopen.1,
        hopen.2, hended⟩

/-- An attempt that is interrupted in its first stage. -/
def interruptedCalls : List HistoryCall :=
  [.create queuedRecord, .attempt 49 (.begin 1 10),
    .attempt 49 (.recordStage 1 .collecting .started none 11)]

theorem changesOpen_interrupted :
    ∃ start db', (History.of interruptedCalls).db.beginAnalysis 49 (some 2) 13 = (.ok start, db')
      ∧ ChangesOpen (History.of interruptedCalls) 49 db' := by
  refine ⟨_, _, rfl, (changesOpen_iff (by decide) rfl).mpr ?_⟩
  rintro ⟨t, event, event', _, hmem, _, _, hended⟩
  have hstarted := (Prod.mk.inj (List.mem_singleton.mp hmem)).2
  rw [hstarted] at hended
  rcases hended with hended | hended
  · exact nomatch hended
  · exact nomatch hended

/-- The attempt is interrupted after its first stage has completed. -/
def passedCollecting : List HistoryCall :=
  interruptedCalls ++ [.attempt 49 (.recordStage 1 .collecting .completed none 12)]

/-- The event of the completed stage is failed. -/
theorem completed_stage_superseded :
    ∃ start db', (History.of passedCollecting).db.beginAnalysis 49 (some 2) 13 = (.ok start, db')
      ∧ ¬ ChangesOpen (History.of passedCollecting) 49 db' := by
  refine ⟨_, _, rfl, fun ⟨_, _, hchanges⟩ => ?_⟩
  have hfirst := (hchanges 0 1 _ rfl rfl).mp (by decide)
  refine hfirst.2.2 ⟨_, List.mem_cons_of_mem _ (List.mem_cons_of_mem _ List.mem_cons_self), rfl, rfl,
    Or.inl rfl⟩

end PipeLens.Proof
