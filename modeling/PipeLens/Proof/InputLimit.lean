import PipeLens.ModelInput

/-!
# The input stays within the limit

What `_bounded_context_json` returns is the text of a context that was cut from the given one,
and it raises only if the context without its log, workflow and related files is too long
already. Both loops end because they take something away each time.

The text need not become shorter when something is cut: a workflow that is gone is written
`null`, which is longer than an empty text. That is why the last comparison is with a context
whose workflow is `null`.
-/

namespace PipeLens.Proof

open LLMContext

variable {floats : FloatText} {limit : Int} {context : LLMContext}

/-! ## Cutting -/

/-- The second text is the beginning of the first. -/
def CutText (text text' : String) : Prop := text'.toList <+: text.toList

/-- A text that was cut, or that was missing and still is. -/
def CutOptional : Option String → Option String → Prop
  | none, text' => text' = none
  | some text, text' => ∃ t, text' = some t ∧ CutText text t

/-- A related file whose excerpt was cut. -/
structure CutFile (related related' : RelatedFile) : Prop where
  filename : related'.filename = related.filename
  score : related'.score = related.score
  reasons : related'.reasons = related.reasons
  excerpt : CutOptional related.patchExcerpt related'.patchExcerpt

/-- A context that was cut from another. -/
structure CutFrom (context context' : LLMContext) : Prop where
  classification : context'.classification = context.classification
  log : CutText context.log context'.log
  files : ∃ kept, kept <+: context.relatedFiles ∧ List.Forall₂ CutFile kept context'.relatedFiles
  executionContext : context'.executionContext = context.executionContext
  workflowPath : context'.workflowPath = context.workflowPath
  workflow : context'.workflowContent = none
    ∨ CutOptional context.workflowContent context'.workflowContent

theorem CutText.refl (text : String) : CutText text text := List.prefix_rfl

theorem CutText.trans {a b c : String} (hab : CutText a b) (hbc : CutText b c) : CutText a c :=
  List.IsPrefix.trans hbc hab

theorem cutText_cut (n : Nat) (text : String) : CutText text (cut n text) := by
  unfold CutText cut
  rw [String.toList_ofList]
  exact List.take_prefix n text.toList

theorem CutOptional.refl (text : Option String) : CutOptional text text := by
  cases text with
  | none => exact rfl
  | some text => exact ⟨text, rfl, CutText.refl text⟩

theorem cutOptional_map (n : Nat) (text : Option String) : CutOptional text (text.map (cut n)) := by
  cases text with
  | none => exact rfl
  | some text => exact ⟨cut n text, rfl, cutText_cut n text⟩

theorem CutFrom.refl (context : LLMContext) : CutFrom context context where
  classification := rfl
  log := CutText.refl context.log
  files := by
    refine ⟨context.relatedFiles, List.prefix_rfl, List.forall₂_same.mpr fun related _ => ?_⟩
    exact ⟨rfl, rfl, rfl, CutOptional.refl related.patchExcerpt⟩
  executionContext := rfl
  workflowPath := rfl
  workflow := Or.inr (CutOptional.refl context.workflowContent)

theorem cutFrom_truncated (limit : Int) (context : LLMContext) :
    CutFrom context (context.truncated limit) where
  classification := rfl
  log := cutText_cut _ context.log
  files := by
    refine ⟨context.relatedFiles, List.prefix_rfl, ?_⟩
    refine List.forall₂_map_right_iff.mpr (List.forall₂_same.mpr fun related _ => ?_)
    exact ⟨rfl, rfl, rfl, cutOptional_map 500 related.patchExcerpt⟩
  executionContext := rfl
  workflowPath := rfl
  workflow := Or.inr (cutOptional_map _ context.workflowContent)

/-! ## The loops -/

/-- One turn of the first loop. -/
theorem CutFrom.dropLast {context' : LLMContext} (h : CutFrom context context') :
    CutFrom context { context' with relatedFiles := context'.relatedFiles.dropLast } where
  classification := h.classification
  log := h.log
  files := by
    obtain ⟨kept, hkept, hall⟩ := h.files
    refine ⟨kept.dropLast, (List.dropLast_prefix kept).trans hkept, ?_⟩
    rw [List.dropLast_eq_take, List.dropLast_eq_take, hall.length_eq]
    exact List.forall₂_take _ hall
  executionContext := h.executionContext
  workflowPath := h.workflowPath
  workflow := h.workflow

/-- **What the first loop leaves**: a context that fits, or one without related files. -/
theorem dropFiles_spec {context' : LLMContext} (h : CutFrom context context') :
    CutFrom context (dropFiles floats limit context')
      ∧ (¬ tooLong floats limit (dropFiles floats limit context')
        ∨ (dropFiles floats limit context').relatedFiles = []) := by
  fun_induction dropFiles floats limit context' with
  | case1 context' hcondition ih => exact ih h.dropLast
  | case2 context' hcondition =>
      refine ⟨h, ?_⟩
      by_cases hlong : tooLong floats limit context'
      · refine Or.inr ?_
        by_contra hfiles
        exact hcondition ⟨hlong, hfiles⟩
      · exact Or.inl hlong

/-- One turn of the second loop. -/
theorem CutFrom.halved {context' : LLMContext} (h : CutFrom context context') :
    CutFrom context context'.halved where
  classification := h.classification
  log := h.log.trans (cutText_cut _ context'.log)
  files := h.files
  executionContext := h.executionContext
  workflowPath := h.workflowPath
  workflow := by
    unfold LLMContext.halved
    dsimp only
    split
    · exact Or.inl rfl
    rename_i hhalf
    rcases h.workflow with hnone | hcut
    · -- the half of nothing is empty
      rw [hnone] at hhalf
      exact absurd (by decide) hhalf
    · cases hworkflow : context.workflowContent with
      | none =>
          rw [hworkflow] at hcut
          rw [show context'.workflowContent = none from hcut] at hhalf
          exact absurd (by decide) hhalf
      | some text =>
          rw [hworkflow] at hcut
          obtain ⟨t, ht, htext⟩ := hcut
          rw [ht]
          exact Or.inr ⟨_, rfl, htext.trans (cutText_cut _ t)⟩

/-- **What the second loop leaves**: a context that fits, or one without log and workflow. -/
theorem halveTexts_spec {context' : LLMContext} (h : CutFrom context context') :
    CutFrom context (halveTexts floats limit context')
      ∧ (¬ tooLong floats limit (halveTexts floats limit context')
        ∨ (halveTexts floats limit context').log = ""
          ∧ (halveTexts floats limit context').workflowContent.getD "" = "")
      ∧ (halveTexts floats limit context').relatedFiles = context'.relatedFiles := by
  fun_induction halveTexts floats limit context' with
  | case1 context' hcondition ih => exact ih h.halved
  | case2 context' hcondition =>
      refine ⟨h, ?_, rfl⟩
      by_cases hlong : tooLong floats limit context'
      · refine Or.inr ?_
        by_contra htexts
        rw [not_and_or] at htexts
        exact hcondition ⟨hlong, htexts⟩
      · exact Or.inl hlong

/-- The second loop does nothing if the text fits. -/
theorem halveTexts_of_fits (h : ¬ tooLong floats limit context) :
    halveTexts floats limit context = context := by
  rw [halveTexts, if_neg fun hcondition => h hcondition.1]

/-! ## The result -/

/-- The context without log, workflow content and related files. -/
def stripped (context : LLMContext) : LLMContext :=
  { context with log := "", workflowContent := none, relatedFiles := [] }

/-- An empty workflow is written shorter than none. -/
theorem length_encoded_le {context' : LLMContext} (h : CutFrom context context')
    (hlog : context'.log = "") (hworkflow : context'.workflowContent.getD "" = "")
    (hfiles : context'.relatedFiles = []) :
    (context'.encoded floats).length ≤ ((stripped context).encoded floats).length := by
  obtain ⟨classification, log, relatedFiles, executionContext, workflowPath, workflowContent⟩ :=
    context'
  obtain rfl : classification = context.classification := h.classification
  obtain rfl : executionContext = context.executionContext := h.executionContext
  obtain rfl : workflowPath = context.workflowPath := h.workflowPath
  obtain rfl : log = "" := hlog
  obtain rfl : relatedFiles = [] := hfiles
  cases workflowContent with
  | none => exact Nat.le_refl _
  | some text =>
      obtain rfl : text = "" := hworkflow
      have hempty : (Json.dumps floats (dumpOptional .str (some ""))).length = 2 := rfl
      have hnull : (Json.dumps floats (dumpOptional .str none)).length = 4 := rfl
      simp only [encoded, LLMContext.modelDump, stripped, Json.dumps, Json.dumpFields,
        Json.dumpMoreFields, List.length_cons, List.length_append, hempty, hnull]
      omega

/-- **The input of the model is within the limit**: it reads back as a context that was cut from
the given one. The call raises only if the rest of the context is too long alone. -/
theorem bounded_context_json (floats : FloatText) (context : LLMContext) (limit : Int) :
    (∀ text, boundedContextJson floats context limit = .ok text →
        (text.length : Int) ≤ limit
          ∧ ∃ context', CutFrom context context' ∧ Json.loads floats text = some context'.modelDump)
      ∧ ∀ message, boundedContextJson floats context limit = .error message →
        message = "configured LLM input limit is too small for the diagnosis metadata"
          ∧ limit < ((stripped context).encoded floats).length := by
  have hdrop := @dropFiles_spec floats limit _ _ (cutFrom_truncated limit context)
  have hhalve := @halveTexts_spec floats limit _ _ hdrop.1
  have hread : ∀ context' : LLMContext,
      Json.loads floats (context'.encoded floats) = some context'.modelDump :=
    fun context' => Json.loads_dumps floats context'.modelDump
  constructor
  · intro text htext
    unfold boundedContextJson at htext
    dsimp only at htext
    split at htext
    · rename_i hfits
      rw [← Except.ok.inj htext]
      exact ⟨Int.not_lt.mp hfits, context, CutFrom.refl context, hread context⟩
    split at htext
    · cases htext
    · rename_i hfits
      rw [← Except.ok.inj htext]
      exact ⟨Int.not_lt.mp hfits, _, hhalve.1, hread _⟩
  · intro message hmessage
    unfold boundedContextJson at hmessage
    dsimp only at hmessage
    split at hmessage
    · cases hmessage
    split at hmessage
    · rename_i hlong
      refine ⟨(Except.error.inj hmessage).symm, ?_⟩
      obtain ⟨hlog, hworkflow⟩ := hhalve.2.1.resolve_left fun hfits => hfits hlong
      -- had the first loop ended because the text fitted, the second would have left it alone
      have hfiles : (dropFiles floats limit (context.truncated limit)).relatedFiles = [] := by
        refine hdrop.2.resolve_left fun hfits => ?_
        rw [halveTexts_of_fits hfits] at hlong
        exact hfits hlong
      have hle := @length_encoded_le floats _ _ hhalve.1 hlog hworkflow
        (hhalve.2.2.trans hfiles)
      exact Int.lt_of_lt_of_le hlong (Int.ofNat_le.mpr hle)
    · cases hmessage

end PipeLens.Proof
