import PipeLens.Diagnosis
import PipeLens.JsonDump

/-!
# The input of the language model

`_bounded_context_json` of `llm.py`: the context as a JSON text within a limit. If the whole
context is too long, the texts in it are cut, then related files are dropped from the end, and
then the log and the workflow are halved until the text fits or nothing is left of them.

The code works on the dictionary that `model_dump` returns. The fields it changes are those of
the context, so the changes are made to the context here.
-/

namespace PipeLens

/-! ## Dumps -/

/-- A value that may be missing. -/
def dumpOptional {α : Type} (dump : α → Json) : Option α → Json
  | none => .null
  | some value => dump value

def dumpStrings (texts : List String) : Json := .list (texts.map .str)

/-- `Classification.model_dump(mode="json")`. -/
def Classification.modelDump (c : Classification) : Json :=
  .dict [("category", .str c.category.value), ("confidence", .float (.finite c.confidence)),
    ("first_error", .str c.firstError), ("related_step", dumpOptional .str c.relatedStep),
    ("matched_rules", dumpStrings c.matchedRules)]

def RelatedFile.modelDump (f : RelatedFile) : Json :=
  .dict [("filename", .str f.filename), ("score", .float (.finite f.score)),
    ("reasons", dumpStrings f.reasons), ("patch_excerpt", dumpOptional .str f.patchExcerpt)]

def FailedJobContext.modelDump (job : FailedJobContext) : Json :=
  .dict [("name", .str job.name), ("failed_steps", dumpStrings job.failedSteps),
    ("runner_labels", dumpStrings job.runnerLabels)]

def ExecutionContext.modelDump (e : ExecutionContext) : Json :=
  .dict [("workflow_name", dumpOptional .str e.workflowName),
    ("head_branch", dumpOptional .str e.headBranch),
    ("failed_jobs", .list (e.failedJobs.map FailedJobContext.modelDump))]

/-- `LLMContext.model_dump(mode="json")`. -/
def LLMContext.modelDump (context : LLMContext) : Json :=
  .dict [("classification", context.classification.modelDump), ("log", .str context.log),
    ("related_files", .list (context.relatedFiles.map RelatedFile.modelDump)),
    ("execution_context", dumpOptional ExecutionContext.modelDump context.executionContext),
    ("workflow_path", dumpOptional .str context.workflowPath),
    ("workflow_content", dumpOptional .str context.workflowContent)]

namespace LLMContext

/-- `json.dumps(data, ensure_ascii=False)`. -/
def encoded (floats : FloatText) (context : LLMContext) : List Char :=
  Json.dumps floats context.modelDump

/-! ## Cutting -/

/-- `text[:n]`. -/
def cut (n : Nat) (text : String) : String := String.ofList (text.toList.take n)

/-- The first cut; an empty text is not touched, and would not change. -/
def truncated (limit : Int) (context : LLMContext) : LLMContext :=
  { context with
    log := cut (max 500 (limit / 2)).toNat context.log
    workflowContent := context.workflowContent.map (cut (max 250 (limit / 5)).toNat)
    relatedFiles := context.relatedFiles.map fun related =>
      { related with patchExcerpt := related.patchExcerpt.map (cut 500) } }

def tooLong (floats : FloatText) (limit : Int) (context : LLMContext) : Prop :=
  limit < (context.encoded floats).length

instance (floats : FloatText) (limit : Int) (context : LLMContext) :
    Decidable (tooLong floats limit context) :=
  inferInstanceAs (Decidable (limit < _))

/-- The loop that drops related files. -/
def dropFiles (floats : FloatText) (limit : Int) (context : LLMContext) : LLMContext :=
  if tooLong floats limit context ∧ context.relatedFiles ≠ [] then
    dropFiles floats limit { context with relatedFiles := context.relatedFiles.dropLast }
  else context
termination_by context.relatedFiles.length
decreasing_by
  rename_i h
  have hpos := List.length_pos_iff.mpr h.2
  rw [List.length_dropLast]
  omega

/-- Half of the log, and half of the workflow or nothing. -/
def halved (context : LLMContext) : LLMContext :=
  let workflow := context.workflowContent.getD ""
  let half := cut (workflow.length / 2) workflow
  { context with
    log := cut (context.log.length / 2) context.log
    workflowContent := if half = "" then none else some half }

/-- The length of the texts that are halved. -/
def textLength (context : LLMContext) : Nat :=
  context.log.length + (context.workflowContent.getD "").length

theorem length_cut (n : Nat) (text : String) : (cut n text).length = min n text.length := by
  unfold cut
  rw [String.length_ofList, List.length_take, String.length_toList]

theorem textLength_halved (context : LLMContext) : context.halved.textLength
    = context.log.length / 2 + (context.workflowContent.getD "").length / 2 := by
  unfold textLength halved
  dsimp only
  have hhalf : ∀ text : String, (cut (text.length / 2) text).length = text.length / 2 := by
    intro text
    rw [length_cut]
    omega
  split
  · rename_i hempty
    have hzero := hhalf (context.workflowContent.getD "")
    rw [hempty] at hzero
    rw [hhalf, ← hzero]
    rfl
  · rw [hhalf, Option.getD_some, hhalf]

/-- The loop that halves the log and the workflow. -/
def halveTexts (floats : FloatText) (limit : Int) (context : LLMContext) : LLMContext :=
  if tooLong floats limit context
      ∧ (context.log ≠ "" ∨ context.workflowContent.getD "" ≠ "") then
    halveTexts floats limit context.halved
  else context
termination_by context.textLength
decreasing_by
  rename_i h
  have hpos : 0 < context.textLength := by
    unfold textLength
    rcases h.2 with hlog | hworkflow
    · have := Nat.pos_of_ne_zero fun hzero => hlog (String.length_eq_zero_iff.mp hzero)
      omega
    · have := Nat.pos_of_ne_zero fun hzero => hworkflow (String.length_eq_zero_iff.mp hzero)
      omega
  rw [textLength_halved]
  unfold textLength at hpos ⊢
  omega

/-- `_bounded_context_json`; the error is the text of its `LLMError`. -/
def boundedContextJson (floats : FloatText) (context : LLMContext) (limit : Int) :
    Except String (List Char) :=
  if ¬ tooLong floats limit context then .ok (context.encoded floats)
  else
    let shortened := halveTexts floats limit (dropFiles floats limit (context.truncated limit))
    if tooLong floats limit shortened then
      .error "configured LLM input limit is too small for the diagnosis metadata"
    else .ok (shortened.encoded floats)

end LLMContext

end PipeLens
