import Mathlib.Algebra.Order.Ring.Unbundled.Rat
import PipeLens.Payload

/-!
# Dumping and validating models

`model_dump(mode="json")` of the models that are kept in JSON columns, and `model_validate`
of what is read back from there.

A value is validated for the type it was dumped with. The conversions that pydantic makes
besides, such as one from `"1"` to `1`, are left out.
-/

namespace PipeLens

/-! ## Values of enumerations -/

def AnalysisStatus.value : AnalysisStatus → String
  | .queued => "queued"
  | .running => "running"
  | .completed => "completed"
  | .failed => "failed"

def AnalysisStatus.members : List AnalysisStatus := [.queued, .running, .completed, .failed]

def AnalysisStage.value : AnalysisStage → String
  | .collecting => "collecting"
  | .sanitizing => "sanitizing"
  | .classifying => "classifying"
  | .correlating => "correlating"
  | .diagnosing => "diagnosing"
  | .publishing => "publishing"

def AnalysisStage.members : List AnalysisStage :=
  [.collecting, .sanitizing, .classifying, .correlating, .diagnosing, .publishing]

def StageStatus.value : StageStatus → String
  | .started => "started"
  | .completed => "completed"
  | .failed => "failed"

def StageStatus.members : List StageStatus := [.started, .completed, .failed]

def ErrorCategory.members : List ErrorCategory :=
  [.test, .build, .dependency, .lint, .docker, .deployAuth, .missingEnv, .timeout, .resource,
    .workflow, .security, .unknown]

def FeedbackAccuracy.value : FeedbackAccuracy → String
  | .accurate => "accurate"
  | .partially => "partial"
  | .inaccurate => "inaccurate"

def FeedbackAccuracy.members : List FeedbackAccuracy := [.accurate, .partially, .inaccurate]

def TrustLevel.value : TrustLevel → String
  | .trusted => "trusted"
  | .untrustedFork => "untrusted_fork"
  | .unverified => "unverified"

def TrustLevel.members : List TrustLevel := [.trusted, .untrustedFork, .unverified]

def ResolutionOutcome.value : ResolutionOutcome → String
  | .resolved => "resolved"
  | .stillFailing => "still_failing"

def ResolutionOutcome.members : List ResolutionOutcome := [.resolved, .stillFailing]

def SuggestionSource.value : SuggestionSource → String
  | .rule => "rule"
  | .llm => "llm"

def SuggestionSource.members : List SuggestionSource := [.rule, .llm]

/-! ## Models -/

/-- What `Field(ge=0, le=1)` checks. -/
def InUnit (q : Rat) : Prop := 0 ≤ q ∧ q ≤ 1

instance (q : Rat) : Decidable (InUnit q) := inferInstanceAs (Decidable (_ ∧ _))

abbrev CheckedClassification := { c : Classification // InUnit c.confidence }

abbrev CheckedDiagnosis := { d : Diagnosis // InUnit d.confidence }

abbrev CheckedFile := { f : RelatedFile // InUnit f.score }

namespace Json

/-- The field `name` of a model; a field without a default is required. -/
def field {α : Type} (value : Json) (name : String) (read : Json → Option α)
    (default : Option α) : Option α :=
  match value with
  | .dict fields =>
      match fields.lookup name with
      | some value => read value
      | none => default
  | _ => none

def text : Json → Option String
  | .str s => some s
  | _ => none

def integer : Json → Option Int
  | .int n => some n
  | _ => none

def boolean : Json → Option Bool
  | .bool b => some b
  | _ => none

def floating : Json → Option JsonFloat
  | .float x => some x
  | _ => none

/-- A number with `Field(ge=0, le=1)`. -/
def ratio : Json → Option { q : Rat // InUnit q }
  | .float (.finite q) => if h : InUnit q then some ⟨q, h⟩ else none
  | _ => none

def member {α : Type} (members : List α) (value : α → String) : Json → Option α
  | .str s => members.find? fun a => value a == s
  | _ => none

def optional {α : Type} (read : Json → Option α) : Json → Option (Option α)
  | .null => some none
  | value => (read value).map some

/-- The items of a list, all of which have to be valid. -/
def readAll {α : Type} (read : Json → Option α) : List Json → Option (List α)
  | [] => some []
  | item :: items => do
      let a ← read item
      let as ← readAll read items
      return a :: as

def listOf {α : Type} (read : Json → Option α) : Json → Option (List α)
  | .list items => readAll read items
  | _ => none

def ofOption {α : Type} (dump : α → Json) : Option α → Json
  | none => .null
  | some a => dump a

def ofTexts (texts : List String) : Json := .list (texts.map .str)

end Json

open Json in
def Evidence.dump (e : Evidence) : Json :=
  .dict [("source", .str e.source), ("content", .str e.content),
    ("location", ofOption .str e.location)]

open Json in
def Evidence.validate (value : Json) : Option Evidence := do
  let source ← value.field "source" text none
  let content ← value.field "content" text none
  let location ← value.field "location" (optional text) (some none)
  return ⟨source, content, location⟩

open Json in
def Classification.dump (c : Classification) : Json :=
  .dict [("category", .str c.category.value), ("confidence", .float (.finite c.confidence)),
    ("first_error", .str c.firstError), ("related_step", ofOption .str c.relatedStep),
    ("matched_rules", ofTexts c.matchedRules)]

open Json in
def Classification.validate (value : Json) : Option CheckedClassification := do
  let category ← value.field "category" (member ErrorCategory.members ErrorCategory.value) none
  let confidence ← value.field "confidence" ratio none
  let firstError ← value.field "first_error" text none
  let relatedStep ← value.field "related_step" (optional text) (some none)
  let matchedRules ← value.field "matched_rules" (listOf text) (some [])
  return ⟨⟨category, confidence.val, firstError, relatedStep, matchedRules⟩, confidence.property⟩

open Json in
def Suggestion.dump (s : Suggestion) : Json :=
  .dict [("description", .str s.description), ("file", ofOption .str s.file),
    ("patch", ofOption .str s.patch), ("source", ofOption (fun src => .str src.value) s.source),
    ("patch_verified", .bool s.patchVerified)]

open Json in
def Suggestion.validate (value : Json) : Option Suggestion := do
  let description ← value.field "description" text none
  let file ← value.field "file" (optional text) (some none)
  let patch ← value.field "patch" (optional text) (some none)
  let source ← value.field "source"
    (optional (member SuggestionSource.members SuggestionSource.value)) (some none)
  let patchVerified ← value.field "patch_verified" boolean (some false)
  return ⟨description, file, patch, source, patchVerified⟩

open Json in
def Diagnosis.dump (d : Diagnosis) : Json :=
  .dict [("summary", .str d.summary), ("root_cause", .str d.rootCause),
    ("confidence", .float (.finite d.confidence)),
    ("evidence", .list (d.evidence.map Evidence.dump)),
    ("suggestions", .list (d.suggestions.map Suggestion.dump)),
    ("conflicts", ofTexts d.conflicts), ("notes", ofTexts d.notes)]

open Json in
def Diagnosis.validate (value : Json) : Option CheckedDiagnosis := do
  let summary ← value.field "summary" text none
  let rootCause ← value.field "root_cause" text none
  let confidence ← value.field "confidence" ratio none
  let evidence ← value.field "evidence" (listOf Evidence.validate) none
  let suggestions ← value.field "suggestions" (listOf Suggestion.validate) (some [])
  let conflicts ← value.field "conflicts" (listOf text) (some [])
  let notes ← value.field "notes" (listOf text) (some [])
  return ⟨⟨summary, rootCause, confidence.val, evidence, suggestions, conflicts, notes⟩,
    confidence.property⟩

open Json in
def RelatedFile.dump (f : RelatedFile) : Json :=
  .dict [("filename", .str f.filename), ("score", .float (.finite f.score)),
    ("reasons", ofTexts f.reasons), ("patch_excerpt", ofOption .str f.patchExcerpt)]

open Json in
def RelatedFile.validate (value : Json) : Option CheckedFile := do
  let filename ← value.field "filename" text none
  let score ← value.field "score" ratio none
  let reasons ← value.field "reasons" (listOf text) none
  let patchExcerpt ← value.field "patch_excerpt" (optional text) (some none)
  return ⟨⟨filename, score.val, reasons, patchExcerpt⟩, score.property⟩

open Json in
def FailedJobContext.dump (job : FailedJobContext) : Json :=
  .dict [("name", .str job.name), ("failed_steps", ofTexts job.failedSteps),
    ("runner_labels", ofTexts job.runnerLabels)]

open Json in
def FailedJobContext.validate (value : Json) : Option FailedJobContext := do
  let name ← value.field "name" text none
  let failedSteps ← value.field "failed_steps" (listOf text) (some [])
  let runnerLabels ← value.field "runner_labels" (listOf text) (some [])
  return ⟨name, failedSteps, runnerLabels⟩

open Json in
def ExecutionContext.dump (context : ExecutionContext) : Json :=
  .dict [("workflow_name", ofOption .str context.workflowName),
    ("head_branch", ofOption .str context.headBranch),
    ("failed_jobs", .list (context.failedJobs.map FailedJobContext.dump))]

open Json in
def ExecutionContext.validate (value : Json) : Option ExecutionContext := do
  let workflowName ← value.field "workflow_name" (optional text) (some none)
  let headBranch ← value.field "head_branch" (optional text) (some none)
  let failedJobs ← value.field "failed_jobs" (listOf FailedJobContext.validate) (some [])
  return ⟨workflowName, headBranch, failedJobs⟩

end PipeLens
