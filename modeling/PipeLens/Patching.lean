import PipeLens.Lib.Regex
import PipeLens.Lib.Text
import PipeLens.Models

/-!
# Patches of suggestions

The part of `patching.py` that reads, applies and verifies diffs. Texts are lists
of code points inside, and strings where they come from or go to.

A hunk keeps the lines of the diff with their markers. The two lists of the source,
the old and the new lines, are read off from these.

Three things are parameters: the Unicode tables behind `\w` and `\d`, whether
`sanitize_log` finds anything to redact, and the parsers of YAML, TOML and JSON.
-/

namespace PipeLens

structure VersionBump where
  package : String
  current : String
  target : String
  reason : String
  deriving DecidableEq, Repr

/-- `strip_patches`. -/
def stripPatches (diagnosis : Diagnosis) : Diagnosis :=
  { diagnosis with
    suggestions := diagnosis.suggestions.map fun item =>
      { item with patch := none, patchVerified := false } }

/-! ## What is outside -/

/-- The classes of characters whose tables come with Python. -/
structure Unicode where
  /-- `str.isalnum`. -/
  isAlnum : Char → Bool
  /-- The value of a decimal digit, what `\d` matches. -/
  decimal : Char → Option Nat

/-- What `\w` matches. -/
def Unicode.isWord (unicode : Unicode) (c : Char) : Bool := unicode.isAlnum c || c == '_'

inductive DocumentFormat where
  | yaml | toml | json
  deriving DecidableEq, Repr

def DocumentFormat.name : DocumentFormat → String
  | .yaml => "YAML"
  | .toml => "TOML"
  | .json => "JSON"

/-- How a parser ends. -/
inductive ParseResult where
  | parsed
  /-- It raises `YAMLError`, `TOMLDecodeError` or `JSONDecodeError`. -/
  | invalid
  /-- It raises something else. -/
  | raised (message : String)
  deriving DecidableEq, Repr

structure PatchEnvironment where
  unicode : Unicode
  /-- Whether `sanitize_log` redacts anything in the text. -/
  redacts : String → Bool
  parse : DocumentFormat → String → ParseResult

/-! ## Patterns -/

def maxPatchChars : Nat := 20000

def maxChangedLines : Nat := 200

def workflowPrefix : String := ".github/workflows/"

section Patterns

open Regex

variable (unicode : Unicode)

/-- `\s`. -/
def space : Regex := .char Text.isSpace

/-- `\d`. -/
def digit : Regex := .char fun c => (unicode.decimal c).isSome

/-- `\b`. -/
def wordBoundary : Regex := .boundary unicode.isWord

/-- `[^\n]*`. -/
def restOfLine : Regex := .star (.char (· != '\n'))

/-- A character of the given ones, under `re.I`. -/
def oneOf (characters : String) : Regex := .char fun c => characters.toList.contains (fold c)

/-- `HUNK_HEADER`. -/
def hunkHeader : Regex :=
  let count := opt (all [verbatim ",", plus (digit unicode)])
  all [.start, verbatim "@@ -", .group 1 (plus (digit unicode)), count, verbatim " +",
    plus (digit unicode), count, verbatim " @@"]

/-- `PINNED_VERSION_VALUE`. -/
def pinnedVersionValue : Regex :=
  all [verbatim "==",
    plus (.char fun c => !(Text.isSpace c || [';', ',', '"', '\'', '\\'].contains c))]

/-- `FORBIDDEN_ADDITIONS`: added lines that no published fix may introduce. -/
def forbiddenAdditions : List (String × Regex) :=
  [("원격 스크립트를 셸로 실행",
    .alt
      (all [wordBoundary unicode, any [lit "curl", lit "wget"], wordBoundary unicode, restOfLine,
        lit "|", .star space, opt (all [lit "sudo", plus space]),
        opt (any [lit "ba", lit "z", lit "da"]), lit "sh", wordBoundary unicode])
      (all [wordBoundary unicode, opt (any [lit "ba", lit "z"]), lit "sh", wordBoundary unicode,
        restOfLine, lit "$(", any [lit "curl", lit "wget"], wordBoundary unicode])),
  ("secret·토큰 참조",
    .alt
      (all [lit "$\x7b\x7b", .star space, any [lit "secrets.", lit "github.token"]])
      (all [wordBoundary unicode,
        any [lit "GITHUB_TOKEN", lit "ACTIONS_RUNTIME_TOKEN",
          lit "ACTIONS_ID_TOKEN_REQUEST_TOKEN"],
        wordBoundary unicode])),
  ("인코딩된 명령 실행",
    .alt
      (all [wordBoundary unicode, lit "base64", plus space, any [lit "-d", lit "--decode"],
        wordBoundary unicode])
      (all [wordBoundary unicode, lit "eval", space])),
  ("실행 권한 추가",
    all [wordBoundary unicode, lit "chmod", plus space,
      any [all [.star (oneOf "ugoa"), lit "+x"],
        all [opt (lit "0"), .star (oneOf "01234567"), oneOf "1357", .star (oneOf "01234567")]],
      wordBoundary unicode])]

/-- The scopes that `WORKFLOW_SENSITIVE` knows. -/
def permissionScopes : List String :=
  ["actions", "checks", "contents", "deployments", "id-token", "issues", "packages",
    "pull-requests", "security-events", "statuses"]

/-- `WORKFLOW_SENSITIVE`: lines whose addition or removal changes privileges or triggers. -/
def workflowSensitive : List (String × Regex) :=
  [("workflow 권한 변경",
    .alt
      (all [.start, .star space, lit "permissions", .star space, lit ":"])
      (all [wordBoundary unicode, any (permissionScopes.map lit), .star space, lit ":",
        .star space, any [lit "read", lit "write"], wordBoundary unicode])),
  ("workflow 트리거 변경",
    .alt
      (all [.start, .star space, lit "on", .star space, lit ":"])
      (all [wordBoundary unicode, any [lit "pull_request_target", lit "workflow_run"],
        wordBoundary unicode]))]

end Patterns

/-! ## Reading a diff -/

/-- What `_parse_hunks` raises. -/
inductive PatchException where
  /-- `PatchError`. -/
  | patchError (message : String)
  /-- Any other `ValueError`. -/
  | valueError (message : String)
  deriving DecidableEq, Repr

/-- The first character of a line in a hunk. -/
inductive Marker where
  | context | removed | added
  deriving DecidableEq, Repr

/-- `_Hunk`. -/
structure Hunk where
  oldStart : Nat
  /-- The lines after the header, without their markers. -/
  lines : List (Marker × List Char)
  deriving DecidableEq, Repr

namespace Hunk

/-- `old_lines`. -/
def oldLines (hunk : Hunk) : List (List Char) :=
  (hunk.lines.filter fun line => line.1 ≠ .added).map Prod.snd

/-- `new_lines`. -/
def newLines (hunk : Hunk) : List (List Char) :=
  (hunk.lines.filter fun line => line.1 ≠ .removed).map Prod.snd

def snoc (hunk : Hunk) (marker : Marker) (body : List Char) : Hunk :=
  { hunk with lines := hunk.lines ++ [(marker, body)] }

end Hunk

/-- `line.startswith(start)`. -/
def startsWith (start : String) (line : List Char) : Bool := start.toList.isPrefixOf line

/-- `line.startswith(("+++", "---"))`. -/
def isFileHeader (line : List Char) : Bool := startsWith "+++" line || startsWith "---" line

/-- `int(digits)`, with the limit on the length of what it converts. -/
def pyInt (unicode : Unicode) (digits : List Char) : Except PatchException Nat :=
  if digits.length > 4300 then
    .error (.valueError ("Exceeds the limit (4300 digits) for integer string conversion: " ++
      "value has " ++ toString digits.length ++
      " digits; use sys.set_int_max_str_digits() to increase the limit"))
  else .ok (digits.foldl (fun n c => 10 * n + (unicode.decimal c).getD 0) 0)

/-- The digits of group 1 if the line is a hunk header. -/
def matchHunkHeader (unicode : Unicode) (line : List Char) : Option (List Char) :=
  ((hunkHeader unicode).matchStart line).map fun pos => (pos.groups.lookup 1).getD []

/-- One line of `_parse_hunks`; `hunks` has the newest first, and `current` is its head. -/
def parseLine (unicode : Unicode) (hunks : List Hunk) (raw : List Char) :
    Except PatchException (List Hunk) :=
  let line := Text.stripNewline raw
  match matchHunkHeader unicode line with
  | some digits => do
      let oldStart ← pyInt unicode digits
      return ⟨oldStart, []⟩ :: hunks
  | none =>
      match hunks with
      | [] =>
          if isFileHeader line || startsWith "diff " line || startsWith "index " line then .ok []
          else if (Text.strip line).isEmpty then .ok []
          else .error (.patchError "diff에 hunk 헤더가 없습니다.")
      | current :: earlier =>
          match line with
          | [] => .ok (current.snoc .context ['\n'] :: earlier)
          | '\\' :: _ => .ok hunks
          | ' ' :: _ => .ok (current.snoc .context (raw.drop 1) :: earlier)
          | '-' :: _ => .ok (current.snoc .removed (raw.drop 1) :: earlier)
          | '+' :: _ => .ok (current.snoc .added (raw.drop 1) :: earlier)
          | _ => .error (.patchError "diff에 해석할 수 없는 줄이 있습니다.")

/-- `_parse_hunks`. -/
def parseHunks (unicode : Unicode) (patch : List Char) : Except PatchException (List Hunk) := do
  let hunks ← (Text.rawLines patch).foldlM (parseLine unicode) []
  if hunks.isEmpty then throw (.patchError "diff에 hunk가 없습니다.")
  else return hunks.reverse

/-! ## Applying a diff -/

/-- `matches` of `_locate_hunk`. -/
def hunkMatches (lines : List (List Char)) (hunk : Hunk) (start : Nat) : Bool :=
  ((lines.drop start).take hunk.oldLines.length).map Text.stripNewline
    == hunk.oldLines.map Text.stripNewline

/-- `_locate_hunk`. -/
def locateHunk (lines : List (List Char)) (hunk : Hunk) (cursor : Nat) :
    Except PatchException Nat :=
  let stated := hunk.oldStart - 1
  if cursor ≤ stated && hunkMatches lines hunk stated then .ok stated
  else
    -- `range(cursor, len(lines) - size + 1)`
    let candidates := (List.range (lines.length + 1 - hunk.oldLines.length)).filter fun start =>
      decide (cursor ≤ start) && hunkMatches lines hunk start
    match candidates with
    | [start] => .ok start
    | [] => .error (.patchError "diff의 기존 줄이 head 파일 내용과 일치하지 않습니다.")
    | _ => .error (.patchError "diff를 적용할 위치가 하나로 정해지지 않습니다.")

/-- The loop of `apply_unified_diff`, from the line `cursor` on. -/
def applyHunks (lines : List (List Char)) : Nat → List Hunk →
    Except PatchException (List (List Char))
  | cursor, [] => .ok (lines.drop cursor)
  | cursor, hunk :: hunks => do
      let start ← locateHunk lines hunk cursor
      let rest ← applyHunks lines (start + hunk.oldLines.length) hunks
      return (lines.drop cursor).take (start - cursor) ++ hunk.newLines ++ rest

/-- `apply_unified_diff`. -/
def applyUnifiedDiff (unicode : Unicode) (original patch : List Char) :
    Except PatchException (List Char) := do
  let hunks ← parseHunks unicode patch
  let result ← applyHunks (Text.rawLines original) 0 hunks
  return result.flatten

/-! ## Verification -/

/-- The suffix of the last component of a path, as in `PurePosixPath(path).suffix.lower()`. -/
def pathSuffix (path : String) : String :=
  let parts := (path.toList.splitOn '/').filter fun part => part != [] && part != ['.']
  let name := parts.getLast?.getD []
  let tail := name.reverse.takeWhile (· != '.')
  -- a dot at the start or at the end of the name does not count
  if tail.isEmpty || name.length ≤ tail.length + 1 then ""
  else String.ofList ('.' :: tail.reverse.map Char.toLower)

/-- `STRUCTURED_FORMATS`. -/
def structuredFormat (path : String) : Option DocumentFormat :=
  match pathSuffix path with
  | ".yml" => some .yaml
  | ".yaml" => some .yaml
  | ".toml" => some .toml
  | ".json" => some .json
  | _ => none

/-- `_syntax_error`. -/
def syntaxError (env : PatchEnvironment) (path content : String) :
    Except String (Option String) :=
  match structuredFormat path with
  | none => .ok none
  | some format =>
      match env.parse format content with
      | .parsed => .ok none
      | .invalid => .ok (some ("수정 결과가 유효한 " ++ format.name ++ " 문서가 아닙니다."))
      | .raised message => .error message

/-- The lines of a diff that the checks take for changes. -/
def scannedLines (patch : List Char) : List (List Char) :=
  (Text.splitlines patch).filter fun line => !isFileHeader line

/-- `added` of `_policy_violation`. -/
def scannedAdded (patch : List Char) : List (List Char) :=
  ((scannedLines patch).filter (startsWith "+")).map (List.drop 1)

/-- `removed` of `_policy_violation`. -/
def scannedRemoved (patch : List Char) : List (List Char) :=
  ((scannedLines patch).filter (startsWith "-")).map (List.drop 1)

/-- `changed` of `_patch_rejection`. -/
def scannedChanged (patch : List Char) : List (List Char) :=
  (scannedLines patch).filter fun line => startsWith "+" line || startsWith "-" line

/-- `allowed_headers`. -/
def allowedHeaders (file : String) : List String := ["a/" ++ file, "b/" ++ file, file]

/-- The file that a `---` or `+++` line names. -/
def headerName (line : List Char) : String := String.ofList (Text.strip (line.drop 4))

/-- The label of the first pattern that matches one of the lines. -/
def firstMatch (patterns : List (String × Regex)) (lines : List (List Char)) : Option String :=
  (patterns.find? fun pattern => lines.any pattern.2.search).map Prod.fst

/-- `_policy_violation`. -/
def policyViolation (unicode : Unicode) (suggestion : Suggestion) (patch : List Char) :
    Option String :=
  let added := scannedAdded patch
  let removed := scannedRemoved patch
  let blurred := pinnedVersionValue.sub ['=', '=']
  if suggestion.source = some .rule
      ∧ (added.length ≠ removed.length ∨ (removed.zip added).any fun p => blurred p.2 != blurred p.1)
  then some "규칙 diff가 버전 문자열 외의 내용을 바꿈"
  else
    match firstMatch (forbiddenAdditions unicode) added with
    | some label => some label
    | none =>
        if startsWith workflowPrefix (suggestion.file.getD "").toList then
          firstMatch (workflowSensitive unicode) (added ++ removed)
        else none

/-- `_patch_rejection`; the files are a dictionary. -/
def patchRejection (env : PatchEnvironment) (suggestion : Suggestion)
    (files : List (String × String)) : Except String (Option String) :=
  let patch := (suggestion.patch.getD "").toList
  let file := suggestion.file.getD ""
  match if file = "" then none else files.lookup file with
  | none => .ok (some "대상 파일을 head 기준으로 확인할 수 없습니다.")
  | some content =>
      let changed := scannedChanged patch
      let headers := ((Text.splitlines patch).filter isFileHeader).map headerName
      if patch.length > maxPatchChars then .ok (some "diff가 허용 크기를 넘습니다.")
      else if changed.isEmpty ∨ changed.length > maxChangedLines then
        .ok (some "diff의 변경 줄 수가 허용 범위를 벗어납니다.")
      else if headers.any fun header => !(allowedHeaders file).contains header then
        .ok (some "diff가 제안 대상 외의 파일을 가리킵니다.")
      else if env.redacts (suggestion.patch.getD "") then
        .ok (some "diff에 비밀값으로 보이는 내용이 포함돼 있습니다.")
      else
        match policyViolation env.unicode suggestion patch with
        | some violation =>
            .ok (some ("diff에 허용되지 않는 변경이 포함돼 있습니다(" ++ violation ++ ")."))
        | none =>
            match applyUnifiedDiff env.unicode content.toList patch with
            | .error (.patchError message) => .ok (some message)
            -- only `PatchError` is caught
            | .error (.valueError message) => .error message
            | .ok updated => syntaxError env file (String.ofList updated)

/-- `(suggestion.source or SuggestionSource.LLM).value`. -/
def sourceValue (suggestion : Suggestion) : String :=
  match suggestion.source with
  | some .rule => "rule"
  | _ => "llm"

/-- `outcomes[key] = outcomes.get(key, 0) + 1`. -/
def countOutcome (outcomes : List ((String × String) × Nat)) (key : String × String) :
    List ((String × String) × Nat) :=
  if (outcomes.map Prod.fst).contains key then
    outcomes.map fun entry => if entry.1 = key then (key, entry.2 + 1) else entry
  else outcomes ++ [(key, 1)]

/-- What the loop of `verify_patch_suggestions` collects. -/
structure Verification where
  suggestions : List Suggestion
  notes : List String
  outcomes : List ((String × String) × Nat)
  deriving DecidableEq, Repr

/-- One suggestion of `verify_patch_suggestions`. -/
def verifySuggestion (env : PatchEnvironment) (files : List (String × String))
    (v : Verification) (suggestion : Suggestion) : Except String Verification :=
  if suggestion.patch.getD "" = "" then
    .ok { v with suggestions := v.suggestions ++ [suggestion] }
  else do
    let rejection ← patchRejection env suggestion files
    match rejection with
    | none =>
        return {
          suggestions := v.suggestions ++ [{ suggestion with patchVerified := true }]
          notes := v.notes
          outcomes := countOutcome v.outcomes (sourceValue suggestion, "verified") }
    | some rejection =>
        return {
          suggestions := v.suggestions ++
            [{ suggestion with patch := none, patchVerified := false }]
          notes := v.notes ++ ["수정 diff를 검증하지 못해 제외했습니다: " ++ rejection]
          outcomes := countOutcome v.outcomes (sourceValue suggestion, "rejected") }

/-- `verify_patch_suggestions`. -/
def verifyPatchSuggestions (env : PatchEnvironment) (diagnosis : Diagnosis)
    (files : List (String × String)) :
    Except String (Diagnosis × List ((String × String) × Nat)) := do
  let v ← diagnosis.suggestions.foldlM (verifySuggestion env files) ⟨[], diagnosis.notes, []⟩
  return ({ diagnosis with suggestions := v.suggestions, notes := v.notes }, v.outcomes)

end PipeLens
