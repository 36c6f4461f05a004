import PipeLens.Lib.Ranking
import PipeLens.Sanitizer

/-!
# Changed files that explain a failure

`relevance.py`. Each changed file gets a score for its path in the log, for what the
category says about it and for identifiers that its patch shares with the log. The
files with a score are sorted, and the first few are kept.

`str.lower` is an argument. The scores are sums of a few decimals, and they are taken
as these decimals.
-/

namespace Regex

/-- The matches of `r.finditer(text)` from here on, for an `r` that matches no empty text. -/
def matchesFrom (r : Regex) : Nat → List Char → List Char → List (List Char)
  | 0, _, _ => []
  | _ + 1, _, [] => []
  | n + 1, before, c :: after =>
      match (r.run { before := before, after := c :: after }).head? with
      | none => matchesFrom r n (c :: before) after
      | some pos =>
          (c :: after).take (after.length + 1 - pos.after.length)
            :: matchesFrom r n pos.before pos.after

/-- The texts of the matches of `r.finditer(text)`. -/
def findTexts (r : Regex) (text : List Char) : List (List Char) :=
  matchesFrom r (text.length + 1) [] text

end Regex

namespace PipeLens

/-! ## Pure paths -/

/-- `PurePosixPath`: the root, and the components. -/
structure PurePath where
  root : List Char
  components : List (List Char)
  deriving DecidableEq, Repr

namespace PurePath

/-- `PurePosixPath(text)`. Two leading slashes, not more, are a root of their own. -/
def parse (text : List Char) : PurePath where
  root :=
    match text with
    | '/' :: '/' :: '/' :: _ => ['/']
    | '/' :: '/' :: _ => ['/', '/']
    | '/' :: _ => ['/']
    | _ => []
  components := (text.splitOn '/').filter fun part => part != [] && part != ['.']

def parts (path : PurePath) : List (List Char) :=
  if path.root = [] then path.components else path.root :: path.components

def name (path : PurePath) : List Char := path.components.getLast?.getD []

/-- `str(path)`. -/
def text (path : PurePath) : List Char :=
  if path.root = [] ∧ path.components = [] then ['.']
  else path.root ++ ['/'].intercalate path.components

end PurePath

/-! ## Identifiers -/

section Patterns

open Regex

/-- `TOKEN`. -/
def identifier : Regex :=
  let rest : Regex := .char fun c => c.isAlphanum || c == '_' || c == '-'
  all [.char fun c => c.isAlpha || c == '_', rest, rest, .star rest]

/-- `PATCH_LINE`. -/
def patchLine : Regex :=
  let sign : Regex := .char fun c => c == '+' || c == '-'
  all [.start, sign, .notAhead sign]

end Patterns

/-- `DEPENDENCY_MANIFESTS`. -/
def dependencyManifests : List String :=
  ["package-lock.json", "pnpm-lock.yaml", "yarn.lock", "poetry.lock", "requirements.txt",
    "pyproject.toml"]

/-- `STOP_WORDS`. -/
def stopWords : List String :=
  ["error", "failed", "failure", "fatal", "file", "line", "with", "from", "this", "that"]

/-- `needle in text`. -/
def isWithin (needle text : List Char) : Bool := text.tails.any needle.isPrefixOf

section Correlation

variable (unicode : Unicode) (lower : List Char → List Char)

/-- `_tokens`, in order and with repetitions. -/
def logTokens (text : List Char) : List (List Char) :=
  ((identifier.findTexts text).map lower).filter
    fun token => !(stopWords.map String.toList).contains token

/-- The lines of the loop of `_matching_patch_excerpt`, which stops after the third. -/
def matchingLines (tokens : List (List Char)) (patch : List Char) : List (List Char) :=
  (((Text.splitlines patch).filter fun line =>
    (patchLine.matchStart line).isSome && (logTokens lower line).any tokens.contains).take 3).map
      fun line => line.take 300

/-- `_matching_patch_excerpt`. -/
def matchingPatchExcerpt (patch : Option String) (tokens : List (List Char)) : Option String :=
  match patch with
  | none => none
  | some patch =>
      if patch = "" ∨ tokens = [] then none
      else
        let lines := matchingLines lower tokens patch.toList
        if lines = [] then none
        else some (String.ofList (sanitizeLog unicode (['\n'].intercalate lines)).1)

/-- `_category_affinity`; without affinity the reason is empty. -/
def categoryAffinity (path : PurePath) (category : ErrorCategory) : Rat × String :=
  let name := lower path.name
  let isManifest := (dependencyManifests.map String.toList).contains name
  let isDockerfile := "dockerfile".toList.isPrefixOf name
  match category with
  | .test =>
      if isWithin "test".toList name
          || path.parts.any (["test", "tests", "spec"].map String.toList).contains then
        (20 / 100, "테스트 실패 범주와 테스트 파일이 일치함")
      else (0, "")
  | .workflow =>
      if ".github/workflows/".toList.isPrefixOf (lower path.text) then
        (30 / 100, "Workflow 오류 범주와 Actions 설정 파일이 일치함")
      else (0, "")
  | .docker =>
      if isDockerfile then (25 / 100, "Docker 실패 범주와 Dockerfile이 일치함") else (0, "")
  | .dependency =>
      if isManifest then (20 / 100, "의존성 실패 범주와 패키지 설정 파일이 일치함") else (0, "")
  | .security =>
      if isManifest || isDockerfile then (20 / 100, "보안 검사 범주와 의존성·이미지 정의 파일이 일치함")
      else (0, "")
  | _ => (0, "")

/-- What the path of a file in the log counts. -/
def pathAffinity (log : List Char) (filename : String) : Rat × List String :=
  if isWithin (lower filename.toList) log then (75 / 100, ["로그에 변경 파일 경로가 직접 등장함"])
  else if isWithin (lower (PurePath.parse filename.toList).name) log then
    (50 / 100, ["로그에 변경 파일명이 등장함"])
  else (0, [])

/-- The body of the loop over the changed files: a file without a reason is left out. -/
def relatedFile (log : List Char) (tokens : List (List Char)) (category : ErrorCategory)
    (changed : ChangedFile) : Option RelatedFile :=
  let byPath := pathAffinity lower log changed.filename
  let byCategory := categoryAffinity lower (PurePath.parse changed.filename.toList) category
  let excerpt := matchingPatchExcerpt unicode lower changed.patch tokens
  -- an empty excerpt counts for nothing
  let shared := excerpt.any (· != "")
  let reasons := byPath.2 ++ (if byCategory.1 = 0 then [] else [byCategory.2])
    ++ if shared then ["오류 로그와 변경 코드가 공통 식별자를 포함함"] else []
  if reasons = [] then none
  else some {
    filename := changed.filename
    score := min (byPath.1 + byCategory.1 + if shared then 15 / 100 else 0) 1
    reasons := reasons
    patchExcerpt := excerpt }

/-- The order of `sorted(…, key=lambda item: (-item.score, item.filename))`. -/
def rankedBefore (a b : RelatedFile) : Prop :=
  b.score < a.score ∨ a.score = b.score ∧ a.filename ≤ b.filename

instance : DecidableRel rankedBefore := fun a b =>
  inferInstanceAs (Decidable (b.score < a.score ∨ a.score = b.score ∧ a.filename ≤ b.filename))

/-- `correlate_changed_files`. -/
def correlateChangedFiles (log : List Char) (changedFiles : List ChangedFile)
    (category : ErrorCategory) (limit : Nat := 5) : List RelatedFile :=
  Ranking.firstOf rankedBefore limit
    (changedFiles.filterMap
      (relatedFile unicode lower (lower log) (logTokens lower log) category))

end Correlation

end PipeLens
