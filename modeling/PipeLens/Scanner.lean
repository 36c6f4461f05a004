import Mathlib.Data.List.Dedup
import PipeLens.Proposal

/-!
# Version bumps in a log

`find_version_bumps` of `patching.py`: from the messages of pip, and from the tables of
vulnerability scanners. A scanner leaves a cell blank where it repeats the one above, so the
table is read from the top, with the last row kept.

`str.lower` is an argument.
-/

namespace PipeLens

open Text

/-- `VERSION_TOKEN.match`, for a text without a newline at the end. -/
def isVersionToken (text : List Char) : Bool :=
  match text with
  | [] => false
  | c :: rest => c.isDigit
      && rest.all fun c => c.isAlphanum || ['.', '+', '_', ':', '~', '-'].contains c

/-! ## Messages of pip -/

/-- `PIP_UNSATISFIED`. -/
def pipUnsatisfied : Regex :=
  Regex.all [Regex.lit "could not find a version that satisfies the requirement ",
    .group 1 (.seq (.char fun c => (Regex.fold c).isAlphanum) (.star (.char isNameChar))),
    Regex.lit "==",
    .group 2 (Regex.plus (.char fun c => !(isSpace c || [';', ',', '(', ')'].contains c))),
    .star (.char fun c => c != '\n'),
    Regex.lit "(from versions: ", .group 3 (.star (.char fun c => c != ')')), Regex.lit ")"]

/-- The bump that a line of pip's gives. -/
def pipBump (line : List Char) : Option VersionBump :=
  (pipUnsatisfied.find line).bind fun pos =>
    let group n := (pos.groups.lookup n).getD []
    let versions := ((group 3).splitOnP (· == ',')).map strip
    let available := versions.filter isVersionToken
    available.getLast?.map fun target =>
      { package := String.ofList (group 1)
        current := String.ofList (group 2)
        target := String.ofList target
        reason := "설치 가능한 최신 버전" }

/-! ## Tables of scanners -/

/-- `[│|]`. -/
def isSeparator (c : Char) : Bool := c == '│' || c == '|'

/-- The cells of a line. `TABLE_SEPARATOR` takes the white space around it too, but the cells are
stripped anyway. -/
def tableCells (line : List Char) : List (List Char) :=
  ((((strip line).dropWhile isSeparator).rdropWhile isSeparator).splitOnP isSeparator).map strip

def tableBorderChars : List Char := "┌├└─+-=".toList

/-- A row: `row.get`. -/
abbrev Row := List Char → Option (List Char)

def mergedScannerColumns : List (List Char) :=
  ["vulnerability".toList, "severity".toList, "status".toList, "installed version".toList,
    "fixed version".toList]

/-- `columns[name]`: a name that comes twice has its last place. -/
def columnIndex (columns : List (List Char)) (name : List Char) : Option Nat :=
  ((columns.zipIdx.filter fun column => column.1 == name).map Prod.snd).getLast?

/-- `{name: cells[index] for name, index in columns.items()}`. -/
def readRow (columns cells : List (List Char)) : Row := fun name =>
  (columnIndex columns name).bind fun index => cells[index]?

def isHeader (header : List (List Char)) : Bool :=
  header.contains "library".toList && header.contains "installed version".toList
    && header.contains "fixed version".toList

/-- Whether a value is there and not empty. -/
def isTruthy (value : Option (List Char)) : Bool := value.any fun text => !text.isEmpty

/-- The row with what it leaves blank taken from the one before. -/
def carryDown (previous row : Row) : Row := fun name =>
  if mergedScannerColumns.contains name && !isTruthy (row name) && isTruthy (previous name) then
    previous name
  else row name

/-- `re.sub(r"\s*\(.*\)$", "", text)`. -/
def withoutParentheses (text : List Char) : List Char :=
  if text.getLast? == some ')' && text.contains '(' then
    (text.takeWhile (· != '(')).rdropWhile isSpace
  else text

section Scanner

variable (lower : List Char → List Char)

/-- `_scanner_row_bump`. -/
def scannerRowBump (row : Row) : Option VersionBump :=
  if lower ((row "status".toList).getD []) != "fixed".toList then none
  else
    let package := withoutParentheses ((row "library".toList).getD [])
    let current := (row "installed version".toList).getD []
    let target := strip (((row "fixed version".toList).getD []).takeWhile (· != ','))
    if !(isVersionToken current && isVersionToken target) || current == target then none
    else some {
      package := String.ofList package
      current := String.ofList current
      target := String.ofList target
      reason := String.ofList ((row "vulnerability".toList).getD "보안".toList) ++ " 수정 버전" }

/-- What `_scanner_table_bumps` keeps from line to line. -/
structure ScannerState where
  columns : Option (List (List Char)) := none
  previous : Row := fun _ => none
  bumps : List VersionBump := []

/-- A row that says nothing of its own: a title that goes on, or a border. -/
def hasNoLibrary (row : Row) : Bool :=
  match (row "library".toList).getD [] with
  | [] => true
  | c :: _ => ['├', '┼', '┤', '─'].contains c

/-- One line of `_scanner_table_bumps`; `none` when it raises `IndexError`. -/
def scannerLine (s : ScannerState) (line : List Char) : Option ScannerState :=
  if !line.contains '│' && decide (line.count '|' < 4) then
    if (strip line).head?.any fun c => !tableBorderChars.contains c then
      some { s with columns := none }
    else some s
  else
    let cells := tableCells line
    let header := cells.map lower
    if isHeader header then some { s with columns := some header, previous := fun _ => none }
    else
      match s.columns with
      | none => some s
      | some columns =>
          if cells.length < columns.dedup.length then some s
          else if cells.length < columns.length then none
          else
            let row := readRow columns cells
            if hasNoLibrary row then some s
            else
              let row := carryDown s.previous row
              some { s with previous := row, bumps := s.bumps ++ (scannerRowBump lower row).toList }

/-- `_scanner_table_bumps`. -/
def scannerTableBumps (log : List Char) : Option (List VersionBump) :=
  ((splitlines log).foldlM (scannerLine lower) {}).map ScannerState.bumps

/-! ## Both -/

/-- The key of a bump in `unique`. -/
def bumpKey (bump : VersionBump) : List Char × String := (lower bump.package.toList, bump.current)

/-- `unique.setdefault` for every bump in turn. -/
def uniqueBumps (bumps : List VersionBump) : List VersionBump :=
  bumps.foldl (fun unique bump =>
    if (unique.map (bumpKey lower)).contains (bumpKey lower bump) then unique
    else unique ++ [bump]) []

/-- `find_version_bumps`. -/
def findVersionBumps (log : List Char) : Option (List VersionBump) :=
  (scannerTableBumps lower log).map fun bumps =>
    uniqueBumps lower ((splitlines log).filterMap pipBump ++ bumps)

end Scanner

end PipeLens
