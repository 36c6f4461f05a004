import PipeLens.Diagnosis
import PipeLens.Patching

/-!
# Classifying logs

`classifier.py`. The patterns of the rules are searched for in single lines, or in a
text of several lines: `.` does not match a `\n`, but `\s` does.
-/

namespace PipeLens

structure DetectionRule where
  ruleId : String
  category : ErrorCategory
  confidence : Rat
  patterns : List Regex

section Patterns

open Regex

variable (unicode : Unicode)

/-- `[1-9]`. -/
def nonzeroDigit : Regex := .char fun c => '1' ≤ c && c ≤ '9'

/-- `[1-9]\d*`. -/
def positiveNumber : Regex := all [nonzeroDigit, .star (digit unicode)]

/-- `RULES`. Whether `.*` is lazy makes no difference to a search. -/
def rules : List DetectionRule := [
  { ruleId := "security.secret"
    category := .security
    confidence := 95 / 100
    patterns := [
      all [lit "leak", opt (lit "s"), lit " found: ", nonzeroDigit],
      all [lit "secret scanning ", restOfLine, any [lit "detected", lit "found", lit "blocked"]],
      all [wordBoundary unicode, positiveNumber unicode, lit " secret", opt (lit "s"), lit " ",
        any [lit "detected", lit "found"]]] },
  { ruleId := "security.vulnerability"
    category := .security
    confidence := 93 / 100
    patterns := [
      all [lit "total: ", plus (digit unicode), lit " (", restOfLine, wordBoundary unicode,
        any [lit "high", lit "critical"], lit ": ", nonzeroDigit],
      all [wordBoundary unicode, positiveNumber unicode, lit " ",
        any [lit "low", lit "moderate", lit "high", lit "critical"],
        lit " severity vulnerabilit"],
      all [lit "found ", positiveNumber unicode, lit " known vulnerabilit"],
      lit "dependency review detected vulnerable packages"] },
  { ruleId := "security.code_scanning"
    category := .security
    confidence := 90 / 100
    patterns := [
      all [lit "code scanning alert", opt (lit "s"), lit " ", any [lit "found", lit "detected"]],
      all [any [lit "codeql", lit "semgrep"], restOfLine, wordBoundary unicode,
        positiveNumber unicode, lit " ",
        any [all [lit "alert", opt (lit "s")], all [lit "finding", opt (lit "s")]]]] },
  { ruleId := "env.missing"
    category := .missingEnv
    confidence := 94 / 100
    patterns := [
      all [any [lit "keyerror", lit "missing", lit "required"], restOfLine, lit "env"],
      all [any [lit "environment variable", lit "env var"], restOfLine, lit "not ",
        any [lit "set", lit "found", lit "defined"]],
      all [lit "$\x7b\x7b", .star space, lit "secrets.", plus (.char (· != '\x7d')),
        lit "\x7d\x7d", restOfLine, any [lit "not found", lit "empty"]]] },
  { ruleId := "auth.deploy"
    category := .deployAuth
    confidence := 92 / 100
    patterns := [
      any [lit "unauthorized", lit "forbidden", lit "access denied", lit "invalid credentials"],
      lit "authentication required",
      lit "denied: requested access"] },
  { ruleId := "resource.exhaustion"
    category := .resource
    confidence := 96 / 100
    patterns := [
      lit "no space left on device",
      any [lit "out of memory", lit "oomkilled", lit "cannot allocate memory"],
      lit "exit code 137"] },
  { ruleId := "timeout"
    category := .timeout
    confidence := 91 / 100
    patterns := [
      any [all [lit "time", opt (lit "d"), lit " out"], lit "timeout exceeded"],
      lit "deadline exceeded",
      all [lit "job was cancelled because", restOfLine, lit "timeout"],
      all [lit "alert state ", restOfLine, lit "not observed"]] },
  { ruleId := "workflow.syntax"
    category := .workflow
    confidence := 95 / 100
    patterns := [
      lit "invalid workflow file",
      all [lit "yaml", opt (any [lit " syntax", lit " parser"]), lit " error"],
      lit "unrecognized named-value",
      lit "the workflow is not valid"] },
  { ruleId := "dependency.install"
    category := .dependency
    confidence := 90 / 100
    patterns := [
      any [lit "npm err!", lit "eresolve unable to resolve dependency tree"],
      lit "could not find a version that satisfies",
      all [lit "failed ", any [lit "building wheel", lit "to resolve dependencies"]],
      all [lit "package ", restOfLine, lit " has no installation candidate"]] },
  { ruleId := "docker.build"
    category := .docker
    confidence := 89 / 100
    patterns := [
      all [lit "docker build", restOfLine, lit "failed"],
      lit "failed to solve: process",
      all [lit "dockerfile:", plus (digit unicode)],
      all [lit "error response from daemon: ", .notAhead (lit "no such container")]] },
  { ruleId := "lint.format"
    category := .lint
    confidence := 88 / 100
    patterns := [
      all [any [lit "eslint", lit "ruff", lit "flake8", lit "prettier", lit "black"], restOfLine,
        any [lit "error", lit "failed"]],
      lit "would reformat",
      all [lit "lint", opt (lit "ing"), lit " failed"],
      lit "code style issues found"] },
  { ruleId := "test.failure"
    category := .test
    confidence := 90 / 100
    patterns := [
      all [wordBoundary unicode, any [lit "failed", all [lit "failure", opt (lit "s")]],
        wordBoundary unicode, restOfLine, wordBoundary unicode, lit "test", opt (lit "s"),
        wordBoundary unicode],
      all [any [lit "pytest", lit "jest", lit "vitest", lit "rspec"], restOfLine, lit "failed"],
      any [lit "assertionerror", all [lit "expected ", restOfLine, lit " ",
        any [lit "to", lit "but"]]]] },
  { ruleId := "build.compile"
    category := .build
    confidence := 87 / 100
    patterns := [
      all [any [lit "compilation", lit "compile", lit "build"], lit " failed"],
      any [lit "syntaxerror", all [lit "typeerror:", restOfLine,
        any [lit "assignable", lit "property"]]],
      lit "undefined reference",
      lit "cannot find symbol"] }]

/-- `ERROR_LINE`. -/
def errorLine : Regex :=
  any [lit "error", lit "exception", lit "failed", lit "fatal", lit "panic", lit "timeout",
    lit "denied", lit "not found"]

/-- `[│|]`. -/
def tableBar : Regex := .char fun c => c == '│' || c == '|'

/-- `SCANNER_FINDING_ROW`, which is not under `re.I`. -/
def scannerFindingRow : Regex :=
  all [tableBar, .star space, any [verbatim "HIGH", verbatim "CRITICAL"], .star space, tableBar]

end Patterns

variable (unicode : Unicode)

def DetectionRule.matches (rule : DetectionRule) (text : List Char) : Bool :=
  rule.patterns.any fun pattern => pattern.search text

/-- `has_error_signal`. -/
def hasErrorSignal (text : List Char) : Bool :=
  errorLine.search text || scannerFindingRow.search text
    || (rules unicode).any fun rule => rule.matches text

/-- `[line.strip() for line in log.splitlines() if line.strip()]`. -/
def strippedLines (log : List Char) : List (List Char) :=
  ((Text.splitlines log).map Text.strip).filter (· ≠ [])

/-- `max(matching_rules, key=lambda rule: rule.confidence)`: the first one of the best. -/
def bestRule (rule : DetectionRule) (others : List DetectionRule) : DetectionRule :=
  others.foldl (fun best rule => if best.confidence < rule.confidence then rule else best) rule

/-- The first line that matches a rule, with the best rule that it matches. -/
def firstRuleMatch : List (List Char) → Option (List Char × DetectionRule)
  | [] => none
  | line :: lines =>
      match (rules unicode).filter fun rule => rule.matches line with
      | [] => firstRuleMatch lines
      | rule :: others => some (line, bestRule rule others)

/-- `classify_log`. -/
def classifyLog (log : String) (relatedStep : Option String := none) : Classification :=
  let lines := strippedLines log.toList
  let firstError :=
    match lines.find? fun line => errorLine.search line with
    | some line => String.ofList line
    | none =>
        match lines with
        | [] => "No error output was captured"
        | line :: _ => String.ofList line
  match firstRuleMatch unicode lines with
  | some (line, rule) =>
      { category := rule.category
        confidence := rule.confidence
        firstError := String.ofList line
        relatedStep := relatedStep
        matchedRules := [rule.ruleId] }
  | none =>
      { category := .unknown
        confidence := 2 / 10
        firstError := firstError
        relatedStep := relatedStep }

/-! ## The context of errors -/

/-- The half-open window around a line, within `n` lines. -/
def errorWindow (contextLines n index : Nat) : Nat × Nat :=
  (index - contextLines, min n (index + contextLines + 1))

/-- The loop over the lines with a signal. The last range comes first. -/
def mergeRanges (contextLines maxSections n : Nat) :
    List (Nat × Nat) → List Nat → List (Nat × Nat)
  | ranges, [] => ranges.reverse
  | ranges, index :: indexes =>
      let window := errorWindow contextLines n index
      match ranges with
      | [] =>
          if 0 < maxSections then mergeRanges contextLines maxSections n [window] indexes else []
      | last :: earlier =>
          if window.1 ≤ last.2 then
            mergeRanges contextLines maxSections n ((last.1, max last.2 window.2) :: earlier) indexes
          else if ranges.length < maxSections then
            mergeRanges contextLines maxSections n (window :: ranges) indexes
          else ranges.reverse

/-- `lines[-k:]`, which is the whole list for 0. -/
def lastLines (k : Nat) (lines : List (List Char)) : List (List Char) :=
  if k = 0 then lines else lines.drop (lines.length - k)

/-- `separator.join(texts)`. -/
def joinTexts (separator : String) (texts : List (List Char)) : List Char :=
  separator.toList.intercalate texts

/-- `"\n".join(lines[start:end])`. -/
def sectionText (lines : List (List Char)) (range : Nat × Nat) : List Char :=
  joinTexts "\n" ((lines.take range.2).drop range.1)

/-- The numbers of the lines with a signal. -/
def signalIndexes (lines : List (List Char)) : List Nat :=
  (lines.zipIdx.filter fun item => hasErrorSignal unicode item.1).map Prod.snd

/-- `extract_error_context`. -/
def extractErrorContext (log : List Char) (contextLines : Nat := 8) (maxSections : Nat := 5) :
    List Char :=
  let lines := Text.splitlines log
  let indexes := signalIndexes unicode lines
  if indexes = [] then joinTexts "\n" (lastLines (min lines.length (contextLines * 2)) lines)
  else
    joinTexts "\n...\n"
      ((mergeRanges contextLines maxSections lines.length [] indexes).map (sectionText lines))

end PipeLens
