import Mathlib.Algebra.Order.Ring.Unbundled.Rat
import PipeLens.GitHub

/-!
# Diagnoses

`diagnosis.py`, and the part of `llm.py` that turns the answer of a provider into
a diagnosis. Confidences are rationals: they are only compared and copied.
-/

namespace PipeLens

/-! ## Rule-based diagnoses -/

/-- `MESSAGES`: the summary, the cause and the suggestion for a category. -/
def messages : ErrorCategory → String × String × String
  | .test =>
      ("테스트가 실패했습니다.",
        "테스트 assertion 또는 테스트 준비 과정에서 최초 오류가 발생했습니다.",
        "최초 실패 테스트와 그 입력을 로컬에서 재현하세요.")
  | .build =>
      ("빌드 또는 컴파일이 실패했습니다.",
        "컴파일러가 코드 또는 링크 오류를 보고했습니다.",
        "최초 컴파일 오류 위치를 수정한 뒤 빌드를 다시 실행하세요.")
  | .dependency =>
      ("의존성 설치가 실패했습니다.",
        "패키지 버전 해석 또는 설치 단계에서 오류가 발생했습니다.",
        "lockfile과 런타임 버전을 확인하고 의존성을 다시 고정하세요.")
  | .lint =>
      ("Lint 또는 포맷 검사가 실패했습니다.",
        "코드 스타일 검사 도구가 위반 사항을 발견했습니다.",
        "CI와 동일한 lint/format 명령을 실행해 보고된 파일을 수정하세요.")
  | .docker =>
      ("Docker 이미지 빌드가 실패했습니다.",
        "Dockerfile의 빌드 단계가 정상적으로 완료되지 않았습니다.",
        "실패한 Dockerfile 단계와 build context를 확인하세요.")
  | .deployAuth =>
      ("배포 인증에 실패했습니다.",
        "배포 대상이 현재 자격증명을 거부했습니다.",
        "배포용 secret의 만료 여부와 권한 범위를 확인하세요.")
  | .missingEnv =>
      ("필수 환경변수가 없습니다.",
        "실행에 필요한 환경변수가 workflow step에 전달되지 않았습니다.",
        "Repository/Environment secret과 workflow의 env 매핑을 확인하세요.")
  | .timeout =>
      ("작업 제한 시간을 초과했습니다.",
        "명령이 허용된 시간 안에 끝나지 않았습니다.",
        "정체된 작업을 확인하고 필요하면 timeout-minutes를 조정하세요.")
  | .resource =>
      ("실행 환경의 자원이 부족합니다.",
        "Runner의 디스크 또는 메모리가 소진되었습니다.",
        "캐시와 불필요한 산출물을 줄이거나 더 큰 runner를 사용하세요.")
  | .workflow =>
      ("GitHub Actions workflow 설정이 유효하지 않습니다.",
        "Workflow YAML 표현식 또는 구문 검증에 실패했습니다.",
        "표시된 workflow 위치의 YAML과 Actions 표현식을 수정하세요.")
  | .security =>
      ("보안 검사가 실행을 차단했습니다.",
        "취약점·secret·코드 스캔 도구가 허용 기준을 넘는 발견 사항을 보고했습니다.",
        "보고된 package를 수정 버전으로 올리고, secret은 즉시 폐기·교체한 뒤 다시 검사하세요.")
  | .unknown =>
      ("실패 원인을 자동 분류하지 못했습니다.",
        "현재 로그만으로 원인을 확인할 수 없습니다.",
        "첫 오류 전후의 전체 로그와 workflow 설정을 확인하세요.")

/-- `build_rule_based_diagnosis`. -/
def buildRuleBasedDiagnosis (classification : Classification) : Diagnosis :=
  let (summary, cause, suggestion) := messages classification.category
  { summary := summary
    rootCause := if classification.category ≠ .unknown then cause else "확인 불가"
    confidence := classification.confidence
    evidence := [{
      source := "log"
      content := classification.firstError
      location := classification.relatedStep }]
    suggestions := [{ description := suggestion }] }

/-- `validate_diagnosis`; without `repository_files` no suggestion may name a file. -/
def validateDiagnosis (diagnosis : Diagnosis) (log : String)
    (repositoryFiles : Option (List String)) : Diagnosis :=
  let validEvidence :=
    diagnosis.evidence.filter fun e => e.source != "log" || isIn e.content log
  let validSuggestions := diagnosis.suggestions.filter fun s =>
    match s.file with
    | none => true
    | some file => file == "" || repositoryFiles.any fun files => files.contains file
  let checked :=
    if validEvidence.isEmpty then
      { diagnosis with
        rootCause := "확인 불가"
        confidence := min diagnosis.confidence (3 / 10)
        conflicts := diagnosis.conflicts ++
          ["분석 결과가 입력 로그에서 확인할 수 없는 근거를 인용했습니다."] }
    else diagnosis
  { checked with evidence := validEvidence, suggestions := validSuggestions }

/-! ## Diagnoses of a language model -/

inductive EvidenceSource where
  | log | workflow | diff
  deriving DecidableEq, Repr

def EvidenceSource.value : EvidenceSource → String
  | .log => "log"
  | .workflow => "workflow"
  | .diff => "diff"

structure LLMEvidence where
  source : EvidenceSource
  content : String
  location : Option String
  deriving DecidableEq, Repr

structure LLMSuggestion where
  description : String
  file : Option String
  patch : Option String
  deriving DecidableEq, Repr

structure LLMAnalysis where
  category : ErrorCategory
  summary : String
  rootCause : String
  confidence : Rat
  evidence : List LLMEvidence
  suggestions : List LLMSuggestion
  deriving DecidableEq, Repr

structure LLMContext where
  classification : Classification
  log : String
  relatedFiles : List RelatedFile
  executionContext : Option ExecutionContext := none
  workflowPath : Option String := none
  workflowContent : Option String := none
  deriving DecidableEq, Repr

def promptVersion : String := "diagnosis-v2"

/-- `_evidence_source_text`. -/
def evidenceSourceText (source : EvidenceSource) (context : LLMContext) : String :=
  match source with
  | .log => context.log
  | .workflow => context.workflowContent.getD ""
  | .diff => "\n".intercalate (context.relatedFiles.map fun item => item.patchExcerpt.getD "")

/-- `validate_llm_analysis`; the error is the text of its `LLMError`. -/
def validateLlmAnalysis (result : LLMAnalysis) (context : LLMContext) :
    Except String Diagnosis :=
  let validEvidence := result.evidence.filter fun item =>
    item.content != "" && isIn item.content (evidenceSourceText item.source context)
  if validEvidence.isEmpty then
    .error "LLM diagnosis has no evidence grounded in the supplied context"
  else
    let allowedFiles := context.relatedFiles.map RelatedFile.filename ++
      context.workflowPath.toList.filter (· != "")
    let suggestions := result.suggestions.filter fun item =>
      item.file.all fun file => allowedFiles.contains file
    -- on a disagreement with the rules the lower of the two confidences counts
    let conflicting := result.category != context.classification.category
    .ok {
      summary := result.summary
      rootCause := result.rootCause
      confidence :=
        if conflicting then min result.confidence context.classification.confidence
        else result.confidence
      evidence := validEvidence.map fun item =>
        { source := item.source.value, content := item.content, location := item.location }
      suggestions := suggestions.map fun item =>
        { description := item.description
          file := item.file
          patch := item.patch
          source := some .llm }
      conflicts :=
        if conflicting then
          ["규칙 기반 분류 (" ++ context.classification.category.value ++ ")와 LLM 분류 (" ++
            result.category.value ++ ")가 다릅니다."]
        else [] }

end PipeLens
