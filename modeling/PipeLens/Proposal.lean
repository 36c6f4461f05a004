import Mathlib.Data.List.Sort
import PipeLens.Difflib
import PipeLens.Lib.Substitution

/-!
# Version proposals

`propose_version_patches` of `patching.py`: for every version bump, each file that pins
the package at its current version gets a diff with the target version. The pins are found
by a pattern that ignores case, and are replaced by `re.sub`, which reads the replacement
as a template.

The pattern is a text between two conditions on the characters around it. Which characters
`re.I` takes for one another is an argument.
-/

namespace PipeLens

open Substitution

/-! ## Pins -/

/-- `[A-Za-z0-9._-]` under `re.I`. -/
def isNameChar (c : Char) : Bool :=
  (Regex.fold c).isAlphanum || ['.', '_', '-'].contains (Regex.fold c)

/-- `[0-9A-Za-z.+]` under `re.I`. -/
def isVersionChar (c : Char) : Bool :=
  (Regex.fold c).isAlphanum || ['.', '+'].contains (Regex.fold c)

namespace VersionBump

/-- What the pattern escapes: the package at its current version. -/
def pin (bump : VersionBump) : List Char :=
  bump.package.toList ++ ['=', '='] ++ bump.current.toList

/-- The pattern, from a place in a file: how long the pin is that starts there. -/
def findPin (sameLetter : Char → Char → Bool) (bump : VersionBump) : Search := fun before after =>
  if before.head?.any isNameChar then none
  else
    let text := Regex.all (bump.pin.map fun x => .char (sameLetter x))
    let ends := (text.run { before := before, after := after }).find? fun pos =>
      !pos.after.head?.any isVersionChar
    ends.map fun pos => after.length - pos.after.length

/-- The replacement that `re.sub` is given. -/
def template (bump : VersionBump) : List Char :=
  bump.package.toList ++ ['=', '='] ++ bump.target.toList

end VersionBump

/-! ## Templates -/

/-- A part of a replacement template. -/
inductive TemplatePart where
  | literal (c : Char)
  /-- `\g<0>`. -/
  | wholeMatch
  deriving DecidableEq, Repr

def isOctal (c : Char) : Bool := decide ('0' ≤ c ∧ c ≤ '7')

def octalValue (digits : List Char) : Nat :=
  digits.foldl (fun n c => 8 * n + (c.toNat - '0'.toNat)) 0

/-- The escapes that stand for a character. -/
def escapedChar : Char → Option Char
  | 'a' => some (Char.ofNat 7)
  | 'b' => some (Char.ofNat 8)
  | 't' => some '\t'
  | 'n' => some '\n'
  | 'v' => some (Char.ofNat 11)
  | 'f' => some (Char.ofNat 12)
  | 'r' => some '\r'
  | '\\' => some '\\'
  | _ => none

/-- How `re.sub` reads a template for a pattern without groups; `none` when it raises. The
first argument bounds the length. -/
def parseTemplate : Nat → List Char → Option (List TemplatePart)
  | 0, _ => some []
  | _ + 1, [] => some []
  | n + 1, '\\' :: rest =>
      match rest with
      | [] => none
      | 'g' :: '<' :: rest =>
          let name := rest.takeWhile (· != '>')
          match rest.dropWhile (· != '>') with
          | [] => none
          | _ :: rest =>
              -- there is no group to refer to but the match itself
              if !name.isEmpty && name.all (· == '0') then
                (parseTemplate n rest).map (.wholeMatch :: ·)
              else none
      | '0' :: rest =>
          let digits := (rest.take 2).takeWhile isOctal
          (parseTemplate n (rest.drop digits.length)).map
            (.literal (Char.ofNat (octalValue digits % 256)) :: ·)
      | c :: rest =>
          if c.isDigit then
            let digits := (c :: rest).take 3
            if digits.length = 3 ∧ digits.all isOctal ∧ octalValue digits < 256 then
              (parseTemplate n (rest.drop 2)).map (.literal (Char.ofNat (octalValue digits)) :: ·)
            else none
          else
            match escapedChar c with
            | some e => (parseTemplate n rest).map (.literal e :: ·)
            | none =>
                if c.isAlpha then none
                else (parseTemplate n rest).map fun parts =>
                  .literal '\\' :: .literal c :: parts
  | n + 1, c :: rest => (parseTemplate n rest).map (.literal c :: ·)

/-- The replacement for a match. -/
def expandTemplate (parts : List TemplatePart) (matched : List Char) : List Char :=
  parts.flatMap fun
    | .literal c => [c]
    | .wholeMatch => matched

/-! ## Lock files -/

/-- `needle in line`. -/
def occursIn (needle : String) (line : List Char) : Bool :=
  line.tails.any needle.toList.isPrefixOf

/-- `_is_hash_locked`, on the lines from here on. -/
def isHashLocked (find : Search) : List (List Char) → Bool
  | [] => false
  | line :: lines =>
      let following := lines.headD []
      !(founds (pieces find line)).isEmpty
          && (occursIn "--hash=" line || startsWith "--hash=" (Text.strip following))
        || isHashLocked find lines

/-- `PIP_COMPILE_HEADER`; a line has no `\n`, so that the last part always reaches its end. -/
def pipCompileHeader : Regex :=
  Regex.all [.start, Regex.verbatim "#", Regex.plus space,
    .group 1 (Regex.all [Regex.verbatim "pip-compile", space, restOfLine])]

/-- `_lock_regeneration_note`. -/
def lockRegenerationNote (env : PatchEnvironment) (path : String) (content : List Char)
    (bump : VersionBump) : String :=
  let start := "`" ++ path ++ "`의 " ++ bump.package ++ "==" ++ bump.current
    ++ "는 해시가 고정된 lock 항목이라 diff를 만들지 않았습니다."
  let command := (Text.splitlines content).findSome? fun line =>
    (pipCompileHeader.matchStart line).bind fun pos => (pos.groups.lookup 1).map Text.strip
  match command with
  | none => start ++ " 버전을 " ++ bump.target ++ "로 올린 뒤 lock을 다시 생성하세요."
  | some command =>
      -- commands that carry URLs or credentials are not echoed
      if command.isEmpty || occursIn "://" command || env.redacts (String.ofList command) then
        start ++ " 버전을 " ++ bump.target ++ "로 올린 뒤 lock을 다시 생성하세요."
      else
        start ++ " `" ++ String.ofList command ++ " --upgrade-package " ++ bump.package ++ "=="
          ++ bump.target ++ "`로 lock을 다시 생성하세요."

/-! ## Proposals -/

/-- The suggestion for one file. -/
def versionSuggestion (difflib : Difflib) (bump : VersionBump) (path : String)
    (content updated : List Char) : Suggestion where
  description := bump.package ++ "를 " ++ bump.current ++ "에서 " ++ bump.target
    ++ "로 변경하세요 (" ++ bump.reason ++ ")."
  file := some path
  patch := some (String.ofList (renderUnifiedDiff difflib path content updated))
  source := some .rule

/-- What `propose_version_patches` collects. -/
structure Proposals where
  suggestions : List Suggestion
  notes : List String
  deriving DecidableEq, Repr

section Propose

variable (env : PatchEnvironment) (sameLetter : Char → Char → Bool) (difflib : Difflib)

/-- The inner loop of `propose_version_patches`; `none` when `re.sub` raises. -/
def proposeFile (bump : VersionBump) (p : Proposals) (file : String × String) :
    Option Proposals :=
  let content := file.2.toList
  let found := pieces (bump.findPin sameLetter) content
  if (founds found).isEmpty then some p
  else if isHashLocked (bump.findPin sameLetter) (Text.splitlines content) then
    some { p with notes := p.notes ++ [lockRegenerationNote env file.1 content bump] }
  else
    (parseTemplate (bump.template.length + 1) bump.template).map fun parts =>
      let updated := replaceAll (expandTemplate parts) found
      { p with
        suggestions := p.suggestions ++ [versionSuggestion difflib bump file.1 content updated] }

/-- `sorted(files.items())`; the paths are distinct. -/
def sortedItems (files : List (String × String)) : List (String × String) :=
  files.insertionSort fun x y => x.1 ≤ y.1

/-- `propose_version_patches`. -/
def proposeVersionPatches (bumps : List VersionBump) (files : List (String × String)) :
    Option Proposals :=
  bumps.foldlM (fun p bump => (sortedItems files).foldlM (proposeFile env sameLetter difflib bump) p)
    ⟨[], []⟩

/-- What `propose_and_verify_patches` raises. -/
inductive ProposalError where
  /-- `re.error`, or `IndexError`, by `re.sub`. -/
  | badTemplate
  | verification (message : String)
  deriving DecidableEq, Repr

/-- `propose_and_verify_patches`. -/
def proposeAndVerifyPatches (diagnosis : Diagnosis) (bumps : List VersionBump)
    (files : List (String × String)) :
    Except ProposalError (Diagnosis × List ((String × String) × Nat)) :=
  match proposeVersionPatches env sameLetter difflib bumps files with
  | none => .error .badTemplate
  | some p =>
      let combined : Diagnosis :=
        { diagnosis with
          suggestions := p.suggestions ++ diagnosis.suggestions
          notes := diagnosis.notes ++ p.notes }
      match verifyPatchSuggestions env combined files with
      | .error message => .error (.verification message)
      | .ok result => .ok result

end Propose

end PipeLens
