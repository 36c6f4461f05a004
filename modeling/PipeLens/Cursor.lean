import PipeLens.Columns
import PipeLens.Lib.Base64
import PipeLens.Lib.JsonText

/-!
# Pagination cursors

`_encode_analysis_cursor` and `_decode_analysis_cursor` of `main.py`. A client sends back what
it was given, or any other text, so that every step of the decoder that can raise is kept,
together with the exceptions that it turns into a response with status 422.

How a datetime is spelled and how JSON is read are arguments, of which only this is known:
what was written is read back.
-/

namespace PipeLens

/-- What `isinstance(value, int)` lets through. -/
inductive PyInt where
  | int (n : Int)
  | bool (b : Bool)
  deriving DecidableEq, Repr

namespace PyInt

def value : PyInt → Int
  | .int n => n
  | .bool b => if b then 1 else 0

def ofJson : Json → Option PyInt
  | .int n => some (.int n)
  | .bool b => some (.bool b)
  | _ => none

def toJson : PyInt → Json
  | .int n => .int n
  | .bool b => .bool b

end PyInt

/-- `AnalysisCursor`. -/
structure TimedCursor where
  createdAt : Datetime
  runId : PyInt
  deriving DecidableEq

/-- `sys.get_int_max_str_digits()`: longer integers are neither written nor read. -/
def maxStrDigits : Nat := 4300

def Writable (runId : PyInt) : Prop :=
  match runId with
  | .int n => (Nat.toDigits 10 n.natAbs).length ≤ maxStrDigits
  | .bool _ => True

instance (runId : PyInt) : Decidable (Writable runId) :=
  match runId with
  | .int _ => inferInstanceAs (Decidable (_ ≤ _))
  | .bool _ => inferInstanceAs (Decidable True)

namespace Cursor

/-! ## Compact JSON in ASCII -/

/-- Four digits. -/
def hex4 (n : Nat) : List Char :=
  [Nat.digitChar (n / 4096 % 16), Nat.digitChar (n / 256 % 16), Nat.digitChar (n / 16 % 16),
    Nat.digitChar (n % 16)]

def unicodeEscape (n : Nat) : List Char := '\\' :: 'u' :: hex4 n

/-- A character as `ensure_ascii` writes it; one beyond the first plane is a surrogate pair. -/
def asciiChar (c : Char) : List Char :=
  if 127 ≤ c.toNat then
    if c.toNat < 65536 then unicodeEscape c.toNat
    else
      unicodeEscape (55296 + (c.toNat - 65536) / 1024)
        ++ unicodeEscape (56320 + (c.toNat - 65536) % 1024)
  else JsonText.escapeChar c

def dumpsText (s : String) : List Char := '"' :: (s.toList.flatMap asciiChar ++ ['"'])

def dumpsInt : PyInt → List Char
  | .int n => JsonText.encodeInt n
  | .bool true => "true".toList
  | .bool false => "false".toList

/-- `json.dumps([text, n], separators=(",", ":"))`. -/
def dumpsPair (text : String) (n : PyInt) : List Char :=
  '[' :: (dumpsText text ++ ',' :: (dumpsInt n ++ [']']))

/-- `payload.encode()`. -/
def utf8 (text : List Char) : List UInt8 := text.flatMap String.utf8EncodeChar

end Cursor

/-- What `json.loads` does with bytes. -/
inductive JsonLoaded where
  | value (value : Json)
  /-- A `ValueError`: no JSON, no text, or an integer with too many digits. -/
  | invalid
  /-- `RecursionError`. -/
  | tooDeep

/-- The characters of `datetime.isoformat()`. -/
def isIsoChar (c : Char) : Bool := c.isDigit || ['-', ':', '.', '+', 'T'].contains c

/-- The parts of Python that a cursor goes through. -/
structure CursorRuntime where
  loads : List UInt8 → JsonLoaded
  isoformat : Datetime → String
  /-- `none` when it raises `ValueError`. -/
  fromisoformat : String → Option Datetime
  isoChars : ∀ d, ∀ c ∈ (isoformat d).toList, isIsoChar c = true
  fromisoformat_isoformat : ∀ d, d.offset.isSome = true → fromisoformat (isoformat d) = some d
  /-- A compact pair is read back. -/
  loads_pair : ∀ (text : String) (n : PyInt), (∀ c ∈ text.toList, isIsoChar c = true) →
    Writable n →
      loads (Cursor.utf8 (Cursor.dumpsPair text n)) = .value (.list [.str text, n.toJson])

/-- How `_decode_analysis_cursor` ends. -/
inductive DecodedCursor where
  | cursor (cursor : TimedCursor)
  /-- `HTTPException(status_code=422, detail="invalid analysis cursor")`. -/
  | unprocessable
  /-- `RecursionError`, which is none of the exceptions that are caught. -/
  | recursionError
  deriving DecidableEq

namespace Cursor

variable (runtime : CursorRuntime)

/-- `_encode_analysis_cursor`; `none` where `json.dumps` raises `ValueError`. -/
def encodeAnalysisCursor (cursor : TimedCursor) : Option String :=
  if Writable cursor.runId then
    let payload := dumpsPair (runtime.isoformat cursor.createdAt) cursor.runId
    some (String.ofList (Base64.strip (Base64.encode (utf8 payload))))
  else none

/-- `created_at_value, run_id = value`; `none` where it raises. A string gives its characters
and a dictionary its keys. -/
def unpackPair : Json → Option (Json × Json)
  | .list [a, b] => some (a, b)
  | .str s =>
      match s.toList with
      | [a, b] => some (.str (String.singleton a), .str (String.singleton b))
      | _ => none
  | .dict fields =>
      match (fields.map Prod.fst).eraseDups with
      | [a, b] => some (.str a, .str b)
      | _ => none
  | _ => none

/-- `datetime.fromisoformat(value)`; `none` where it raises. -/
def parseCreatedAt : Json → Option Datetime
  | .str s => runtime.fromisoformat s
  | _ => none

/-- The cursor that was read, unless one of the checks fails. -/
def checkCursor (createdAt : Datetime) (runId : Json) : Option TimedCursor :=
  match createdAt.offset, PyInt.ofJson runId with
  | some _, some n => if n.value < 1 then none else some ⟨createdAt, n⟩
  | _, _ => none

/-- The bytes of a cursor, which comes without padding. -/
def cursorBytes (value : String) : Option (List UInt8) := Base64.decode (Base64.fill value.toList)

/-- `_decode_analysis_cursor`. -/
def decodeAnalysisCursor (value : String) : DecodedCursor :=
  match cursorBytes value with
  | none => .unprocessable
  | some decoded =>
      match runtime.loads decoded with
      | .tooDeep => .recursionError
      | .invalid => .unprocessable
      | .value json =>
          match unpackPair json with
          | none => .unprocessable
          | some (createdAtValue, runId) =>
              match (parseCreatedAt runtime createdAtValue).bind (checkCursor · runId) with
              | none => .unprocessable
              | some cursor => .cursor cursor

end Cursor

end PipeLens
