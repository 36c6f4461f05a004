import PipeLens.Diagnosis
import PipeLens.Lib.Binary64
import PipeLens.Lib.JsonText

/-!
# The body of a comment

`publication.py`. The sections of a body are lines, and the code blocks that
`_code_block` makes. They are put together with line breaks, and what is too long is
cut off at some character.
-/

namespace PipeLens

def maxGithubBodyChars : Nat := 60000

/-- `html.escape(value, quote=False)`, for one character. -/
def escapeHtml (c : Char) : List Char :=
  if c = '&' then "&amp;".toList
  else if c = '<' then "&lt;".toList
  else if c = '>' then "&gt;".toList
  else [c]

/-- What `_safe` puts after every `@`. -/
def zeroWidthSpace : Char := '\u200b'

def breakMention (c : Char) : List Char := if c = '@' then ['@', zeroWidthSpace] else [c]

/-- `_safe`. -/
def safe (value : String) : List Char := (value.toList.flatMap escapeHtml).flatMap breakMention

/-- What `_safe_url` makes of one character. -/
def escapeUrl (c : Char) : List Char :=
  if c = '(' then "%28".toList
  else if c = ')' then "%29".toList
  else if c = ' ' then "%20".toList
  else [c]

/-- `_safe_url`. -/
def safeUrl (value : String) : List Char := value.toList.flatMap escapeUrl

def openCode : List Char := "<pre><code>".toList

def closeCode : List Char := "</code></pre>".toList

/-- `_code_block`. -/
def codeBlock (value : String) : List Char := openCode ++ safe value ++ closeCode

/-- `f"{value:.0%}"`: the float times `100.0`, which is a float again, to the nearest integer.
A value of 0 may be `-0.0`, and keeps its sign then. -/
def percent (negativeZero : Bool) (value : Rat) : List Char :=
  let float := Binary64.round value
  let minus := if float = 0 then negativeZero else decide (float < 0)
  let rounded := Binary64.roundHalfEven (Binary64.round (100 * float))
  (if minus then ['-'] else []) ++ JsonText.encodeInt rounded.natAbs ++ ['%']

example : percent false (995 / 1000) = "100%".toList := by decide +kernel

/-- A value that counts as true. -/
def nonempty (value : Option String) : Option String := value.filter (· ≠ "")

/-- `sha[:12]`. -/
def shortSha (sha : String) : List Char := safe (String.ofList (sha.toList.take 12))

inductive BodySection where
  | line (text : List Char)
  /-- A line made by `_code_block`. -/
  | code (value : String)
  deriving DecidableEq, Repr

namespace BodySection

def text : BodySection → List Char
  | .line text => text
  | .code value => codeBlock value

/-- A line that is given as it is. -/
def plain (text : String) : BodySection := .line text.toList

end BodySection

open BodySection

def forkSections (trustLevel : TrustLevel) : List BodySection :=
  if trustLevel = .untrustedFork then
    [plain "> [!WARNING]",
      plain "> 외부 Fork에서 시작된 실행입니다. 규칙 기반 진단만 수행했으며,",
      plain "> Fork의 로그·코드·Workflow 내용은 LLM에 전송하지 않았습니다.",
      plain ""]
  else []

def summarySections (negativeZero : Bool) (classification : Classification)
    (diagnosis : Diagnosis) : List BodySection :=
  [.line (safe diagnosis.summary),
    plain "",
    .line ("**오류 유형:** `".toList ++ classification.category.value.toList ++ "`  ".toList),
    .line ("**신뢰도:** ".toList ++ percent negativeZero diagnosis.confidence ++ "  ".toList),
    .line ("**관련 Step:** ".toList
      ++ safe ((nonempty classification.relatedStep).getD "확인 불가")),
    plain ""]

def comparisonSections (baselineSha headSha : Option String) : List BodySection :=
  match nonempty baselineSha, nonempty headSha with
  | some baseline, some head =>
      [.line ("**변경 비교:** `".toList ++ shortSha baseline ++ "..".toList ++ shortSha head
          ++ "`".toList),
        plain ""]
  | _, _ => []

def evidenceSections (evidence : Evidence) : List BodySection :=
  let location :=
    match nonempty evidence.location with
    | some location => " · ".toList ++ safe location
    | none => []
  [.line ("**".toList ++ safe evidence.source ++ location ++ "**".toList),
    .code evidence.content,
    plain ""]

def fileSection (negativeZero : Bool) (item : RelatedFile) : BodySection :=
  .line ("- `".toList ++ safe item.filename ++ "` (".toList ++ percent negativeZero item.score
    ++ ") — ".toList ++ " · ".toList.intercalate (item.reasons.map safe))

def fileSections (negativeZeros : List (Option Nat)) (relatedFiles : List RelatedFile) :
    List BodySection :=
  if relatedFiles = [] then [plain "로그와 직접 연결되는 변경 파일을 찾지 못했습니다."]
  else relatedFiles.zipIdx.map fun item => fileSection (negativeZeros.contains item.2) item.1

def suggestionSections (headSha : Option String) (index : Nat) (suggestion : Suggestion) :
    List BodySection :=
  let target :=
    match nonempty suggestion.file with
    | some file => " (`".toList ++ safe file ++ "`)".toList
    | none => []
  let origin := if suggestion.source = some .rule then "규칙" else "LLM"
  let commit :=
    match nonempty headSha with
    | some head => " `".toList ++ shortSha head ++ "`".toList
    | none => []
  .line (JsonText.encodeInt index ++ ". ".toList ++ safe suggestion.description ++ target)
    :: match nonempty suggestion.patch with
      | some patch =>
          if suggestion.patchVerified then
            [plain "",
              .line ("   검증된 수정 diff (".toList ++ origin.toList ++ ") — head".toList ++ commit
                ++ "에 그대로 적용됨을 확인".toList),
              .code patch,
              plain ""]
          else []
      | none => []

/-- `enumerate(diagnosis.suggestions, 1)`. -/
def allSuggestionSections (headSha : Option String) (suggestions : List Suggestion) :
    List BodySection :=
  if suggestions = [] then [plain "검증 가능한 수정 제안을 생성하지 못했습니다."]
  else (suggestions.zipIdx 1).flatMap fun item => suggestionSections headSha item.2 item.1

/-- A list under a heading, if there is anything in it. -/
def listSections (heading : String) (items : List String) : List BodySection :=
  if items = [] then []
  else [plain "", plain heading, plain ""] ++ items.map fun item => .line ("- ".toList ++ safe item)

/-- The arguments of `render_github_diagnosis`. -/
structure CommentContent where
  runId : Int
  classification : Classification
  diagnosis : Diagnosis
  relatedFiles : List RelatedFile
  detailsUrl : String
  trustLevel : TrustLevel := .trusted
  baselineSha : Option String := none
  headSha : Option String := none
  /-- Where `-0.0` stands for 0: in the confidence (`none`), or in the score of the related file
  with this number, from 0 on. -/
  negativeZeros : List (Option Nat) := []
  deriving DecidableEq, Repr

namespace CommentContent

variable (content : CommentContent)

/-- All sections but the line with the link. -/
def sections : List BodySection :=
  [plain "## PipeLens 실패 진단", plain ""]
    ++ forkSections content.trustLevel
    ++ summarySections (content.negativeZeros.contains none) content.classification
      content.diagnosis
    ++ comparisonSections content.baselineSha content.headSha
    ++ [plain "### 추정 원인", plain "", .line (safe content.diagnosis.rootCause), plain "",
      plain "### 검증된 근거", plain ""]
    ++ content.diagnosis.evidence.flatMap evidenceSections
    ++ [plain "### 관련 변경 파일", plain ""]
    ++ fileSections content.negativeZeros content.relatedFiles
    ++ [plain "", plain "### 권장 해결 방법", plain ""]
    ++ allSuggestionSections content.headSha content.diagnosis.suggestions
    ++ listSections "### 분석 충돌" content.diagnosis.conflicts
    ++ listSections "### 참고" content.diagnosis.notes
    ++ [plain "", plain "---"]

/-- The line with the link, up to the URL. -/
def linkStart : List Char := "[PipeLens에서 전체 분석 보기](".toList

/-- The line with the link, after the URL. -/
def linkEnd : List Char :=
  ") · Workflow run `".toList ++ JsonText.encodeInt content.runId ++ "`".toList

def linkLine : List Char := linkStart ++ safeUrl content.detailsUrl ++ content.linkEnd

/-- The whole text, before it is cut. -/
def fullText : List Char :=
  ['\n'].intercalate ((content.sections ++ [BodySection.line content.linkLine]).map BodySection.text)

/-- The note at the end of a text that was cut, up to the link. -/
def noteStart : List Char := "\n\n---\n내용이 길어 일부를 생략했습니다. ".toList

/-- The link in that note. -/
def noteLink : List Char := "[전체 분석 보기](".toList ++ safeUrl content.detailsUrl ++ ")".toList

def suffix : List Char := noteStart ++ content.noteLink

/-- Where a text is cut. -/
def cutPlace : Int := (maxGithubBodyChars : Int) - content.suffix.length

end CommentContent

/-- `text[:stop]`. -/
def slicePrefix (text : List Char) (stop : Int) : List Char :=
  text.take (if stop < 0 then (text.length + stop).toNat else stop.toNat)

/-- `render_github_diagnosis`. -/
def renderGithubDiagnosis (content : CommentContent) : List Char :=
  let body := content.fullText
  if body.length ≤ maxGithubBodyChars then body
  else slicePrefix body content.cutPlace ++ content.suffix

end PipeLens
