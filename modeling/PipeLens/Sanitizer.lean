import PipeLens.Lib.Redaction
import PipeLens.Patching

/-!
# Sanitizing logs

`sanitizer.py`. Escape sequences and timestamps go first, line by line, then the
redaction rules are applied to the whole text, one after the other.
-/

namespace PipeLens

structure RedactionRule where
  name : String
  pattern : Regex
  replacement : List Regex.Part

section Patterns

open Regex

variable (unicode : Unicode)

/-- `r{n}`. -/
def exactly (n : Nat) (r : Regex) : Regex := all (List.replicate n r)

/-- `r{n,}`. -/
def atLeast (n : Nat) (r : Regex) : Regex := .seq (exactly n r) (.star r)

/-- `[a-b]`. -/
def between (a b : Char) : Regex := .char fun c => a ≤ c && c ≤ b

/-- `ANSI_ESCAPE`. -/
def ansiEscape : Regex :=
  all [verbatim "\x1b", any [
    .char fun c => ('@' ≤ c && c ≤ 'Z') || ('\\' ≤ c && c ≤ '_'),
    all [verbatim "[", .star (between '0' '?'), .star (between ' ' '/'), between '@' '~']]]

/-- `\d{2}:\d{2}:\d{2}`. -/
def clockTime : Regex :=
  all [exactly 2 (digit unicode), verbatim ":", exactly 2 (digit unicode), verbatim ":",
    exactly 2 (digit unicode)]

/-- `TIMESTAMP_PREFIX`. -/
def timestampPrefix : Regex :=
  all [.start, any [
    all [exactly 4 (digit unicode), verbatim "-", exactly 2 (digit unicode), verbatim "-",
      exactly 2 (digit unicode), verbatim "T", clockTime unicode,
      opt (all [verbatim ".", plus (digit unicode)]), verbatim "Z", plus space],
    all [verbatim "[", clockTime unicode, verbatim "]", .star space]]]

/-- `[A-Za-z0-9_]`. -/
def tokenChar : Regex := .char fun c => c.isAlphanum || c == '_'

/-- `gh[pousr]_[A-Za-z0-9_]{20,}|github_pat_[A-Za-z0-9_]{20,}`. -/
def githubToken : Regex :=
  any [all [verbatim "gh", .char fun c => ['p', 'o', 'u', 's', 'r'].contains c, verbatim "_",
      atLeast 20 tokenChar],
    all [verbatim "github_pat_", atLeast 20 tokenChar]]

/-- `(?:AKIA|ASIA)[A-Z0-9]{16}`. -/
def awsAccessKey : Regex :=
  all [any [verbatim "AKIA", verbatim "ASIA"], exactly 16 (.char fun c => c.isUpper || c.isDigit)]

/-- `[A-Za-z0-9_-]+`. -/
def jwtPart : Regex := plus (.char fun c => c.isAlphanum || c == '_' || c == '-')

/-- `eyJ[A-Za-z0-9_-]+\.[A-Za-z0-9_-]+\.[A-Za-z0-9_-]+`. -/
def jwt : Regex :=
  all [verbatim "eyJ", jwtPart, verbatim ".", jwtPart, verbatim ".", jwtPart]

/-- `[:=]`. -/
def assigns : Regex := .char fun c => c == ':' || c == '='

/-- `\s*[:=]\s*`. -/
def assignment : Regex := all [.star space, assigns, .star space]

/-- `(authorization\s*[:=]\s*)(?:bearer\s+|basic\s+)?\S+`, under `re.I`. -/
def authorization : Regex :=
  all [.group 1 (.seq (lit "authorization") assignment),
    opt (any [all [lit "bearer", plus space], all [lit "basic", plus space]]),
    plus (.char fun c => !Text.isSpace c)]

/-- `[A-Z0-9_]*`, under `re.I`. -/
def secretNameChars : Regex :=
  .star (.char fun c => (fold c).isAlphanum || c == '_')

/-- `[A-Z0-9_]*(?:PASSWORD|…)[A-Z0-9_]*`, under `re.I`. -/
def secretName : Regex :=
  all [secretNameChars, any [lit "PASSWORD", lit "PASSWD", lit "SECRET", lit "API_KEY",
    lit "ACCESS_TOKEN", lit "PRIVATE_KEY"], secretNameChars]

/-- `\b(…\s*[:=]\s*)([^\s,;]+)`, under `re.I`. -/
def secretAssignment : Regex :=
  all [wordBoundary unicode, .group 1 (.seq secretName assignment),
    .group 2 (plus (.char fun c => !(Text.isSpace c || c == ',' || c == ';')))]

/-- `[A-Z0-9._%+-]+@[A-Z0-9.-]+\.[A-Z]{2,}`, under `re.I`. -/
def email : Regex :=
  all [plus (.char fun c => (fold c).isAlphanum || ['.', '_', '%', '+', '-'].contains c),
    verbatim "@",
    plus (.char fun c => (fold c).isAlphanum || ['.', '-'].contains c),
    verbatim ".", atLeast 2 (.char fun c => (fold c).isAlpha)]

/-- `REDACTION_RULES`. -/
def redactionRules : List RedactionRule := [
  { name := "github_token"
    pattern := bounded unicode.isWord githubToken
    replacement := [.text "[REDACTED:GITHUB_TOKEN]".toList] },
  { name := "aws_access_key"
    pattern := bounded unicode.isWord awsAccessKey
    replacement := [.text "[REDACTED:AWS_ACCESS_KEY]".toList] },
  { name := "jwt"
    pattern := bounded unicode.isWord jwt
    replacement := [.text "[REDACTED:JWT]".toList] },
  { name := "authorization"
    pattern := authorization
    replacement := [.group 1, .text "[REDACTED]".toList] },
  { name := "secret_assignment"
    pattern := secretAssignment unicode
    replacement := [.group 1, .text "[REDACTED]".toList] },
  { name := "email"
    pattern := bounded unicode.isWord email
    replacement := [.text "[REDACTED:EMAIL]".toList] }]

end Patterns

variable (unicode : Unicode)

/-- The loop over the rules, with the number of redactions of each rule that found any. -/
def redact : List RedactionRule → List Char → List Char × List (String × Nat)
  | [], text => (text, [])
  | rule :: rules, text =>
      let replaced := rule.pattern.subn rule.replacement text
      let rest := redact rules replaced.1
      (rest.1, if replaced.2 = 0 then rest.2 else (rule.name, replaced.2) :: rest.2)

/-- `TIMESTAMP_PREFIX.sub("", line).rstrip()`. -/
def cleanLine (line : List Char) : List Char :=
  ((timestampPrefix unicode).subn [] line).1.rdropWhile Text.isSpace

/-- `sanitize_log`. -/
def sanitizeLog (raw : List Char) : List Char × List (String × Nat) :=
  let text := (ansiEscape.subn [] raw).1
  let lines := (Text.splitlines text).map (cleanLine unicode)
  redact (redactionRules unicode) (['\n'].intercalate lines)

end PipeLens
