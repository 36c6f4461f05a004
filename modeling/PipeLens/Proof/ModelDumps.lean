import PipeLens.ModelDump

/-!
# Dumped models are validated

Every model that is kept in a JSON column is read back from its dump: first the shapes that
fields have, then the models, each field in the order in which it is read.
-/

namespace PipeLens.Proof

/-- A reader reads what was dumped. -/
def ReadsDump {α : Type} (dump : α → Json) (read : Json → Option α) : Prop :=
  ∀ a, read (dump a) = some a

theorem readsDump_text : ReadsDump .str Json.text := fun _ => rfl

theorem readsDump_integer : ReadsDump .int Json.integer := fun _ => rfl

theorem readsDump_floating : ReadsDump .float Json.floating := fun _ => rfl

theorem optional_ofOption {α : Type} {dump : α → Json} {read : Json → Option α}
    (h : ReadsDump dump read) (hnull : ∀ a, dump a ≠ .null) (value : Option α) :
    Json.optional read (Json.ofOption dump value) = some value := by
  cases value with
  | none => rfl
  | some a =>
      show Json.optional read (dump a) = _
      unfold Json.optional
      split
      · rename_i heq
        exact absurd heq (hnull a)
      · rw [h a]
        rfl

theorem readAll_map {α : Type} {dump : α → Json} {read : Json → Option α}
    (h : ReadsDump dump read) (values : List α) :
    Json.readAll read (values.map dump) = some values := by
  induction values with
  | nil => rfl
  | cons a values ih =>
      rw [List.map_cons, Json.readAll, h a, ih]
      rfl

theorem listOf_map {α : Type} {dump : α → Json} {read : Json → Option α}
    (h : ReadsDump dump read) (values : List α) :
    Json.listOf read (.list (values.map dump)) = some values := readAll_map h values

theorem listOf_texts (texts : List String) :
    Json.listOf Json.text (Json.ofTexts texts) = some texts := listOf_map readsDump_text texts

theorem optional_text (value : Option String) :
    Json.optional Json.text (Json.ofOption .str value) = some value :=
  optional_ofOption readsDump_text nofun value

theorem ratio_dump {q : Rat} (h : InUnit q) : Json.ratio (.float (.finite q)) = some ⟨q, h⟩ :=
  dif_pos h

theorem readsDump_category :
    ReadsDump (fun c => .str c.value) (Json.member ErrorCategory.members ErrorCategory.value) := by
  intro c
  cases c <;> rfl

theorem readsDump_suggestionSource :
    ReadsDump (fun s => .str s.value)
      (Json.member SuggestionSource.members SuggestionSource.value) := by
  intro s
  cases s <;> rfl

theorem readsDump_trustLevel :
    ReadsDump (fun t => .str t.value) (Json.member TrustLevel.members TrustLevel.value) := by
  intro t
  cases t <;> rfl

theorem readsDump_status :
    ReadsDump (fun s => .str s.value)
      (Json.member AnalysisStatus.members AnalysisStatus.value) := by
  intro s
  cases s <;> rfl

theorem readsDump_evidence : ReadsDump Evidence.dump Evidence.validate := by
  intro e
  show (Json.optional Json.text (Json.ofOption .str e.location)).bind _ = _
  rw [optional_text]
  rfl

theorem readsDump_suggestion : ReadsDump Suggestion.dump Suggestion.validate := by
  intro s
  show (Json.optional Json.text (Json.ofOption .str s.file)).bind _ = _
  rw [optional_text]
  show (Json.optional Json.text (Json.ofOption .str s.patch)).bind _ = _
  rw [optional_text]
  show (Json.optional _ (Json.ofOption _ s.source)).bind _ = _
  rw [optional_ofOption readsDump_suggestionSource nofun]
  rfl

theorem readsDump_failedJob : ReadsDump FailedJobContext.dump FailedJobContext.validate := by
  intro job
  show (Json.listOf Json.text (Json.ofTexts job.failedSteps)).bind _ = _
  rw [listOf_texts]
  show (Json.listOf Json.text (Json.ofTexts job.runnerLabels)).bind _ = _
  rw [listOf_texts]
  rfl

theorem readsDump_context : ReadsDump ExecutionContext.dump ExecutionContext.validate := by
  intro context
  show (Json.optional Json.text (Json.ofOption .str context.workflowName)).bind _ = _
  rw [optional_text]
  show (Json.optional Json.text (Json.ofOption .str context.headBranch)).bind _ = _
  rw [optional_text]
  show (Json.listOf _ (.list (context.failedJobs.map FailedJobContext.dump))).bind _ = _
  rw [listOf_map readsDump_failedJob]
  rfl

theorem readsDump_classification :
    ReadsDump (fun c => c.val.dump) Classification.validate := by
  intro c
  show (Json.member ErrorCategory.members ErrorCategory.value (.str c.val.category.value)).bind _
    = _
  rw [readsDump_category c.val.category]
  show (Json.ratio (.float (.finite c.val.confidence))).bind _ = _
  rw [ratio_dump c.property]
  show (Json.optional Json.text (Json.ofOption .str c.val.relatedStep)).bind _ = _
  rw [optional_text]
  show (Json.listOf Json.text (Json.ofTexts c.val.matchedRules)).bind _ = _
  rw [listOf_texts]
  rfl

theorem readsDump_diagnosis : ReadsDump (fun d => d.val.dump) Diagnosis.validate := by
  intro d
  show (Json.ratio (.float (.finite d.val.confidence))).bind _ = _
  rw [ratio_dump d.property]
  show (Json.listOf _ (.list (d.val.evidence.map Evidence.dump))).bind _ = _
  rw [listOf_map readsDump_evidence]
  show (Json.listOf _ (.list (d.val.suggestions.map Suggestion.dump))).bind _ = _
  rw [listOf_map readsDump_suggestion]
  show (Json.listOf Json.text (Json.ofTexts d.val.conflicts)).bind _ = _
  rw [listOf_texts]
  show (Json.listOf Json.text (Json.ofTexts d.val.notes)).bind _ = _
  rw [listOf_texts]
  rfl

theorem readsDump_relatedFile : ReadsDump (fun f => f.val.dump) RelatedFile.validate := by
  intro f
  show (Json.ratio (.float (.finite f.val.score))).bind _ = _
  rw [ratio_dump f.property]
  show (Json.listOf Json.text (Json.ofTexts f.val.reasons)).bind _ = _
  rw [listOf_texts]
  show (Json.optional Json.text (Json.ofOption .str f.val.patchExcerpt)).bind _ = _
  rw [optional_text]
  rfl

end PipeLens.Proof
