import BinFleet.Json.Reader
import BinFleet.Json.Text
import BinFleet.Number.Layout
import BinFleet.Number.Literal
import BinFleet.Text.Blank
import BinFleet.Text.Case
import BinFleet.Time.Instant

namespace BinFleet.Json

/-- Why a value cannot be written. -/
inductive EncodeError where
  | number (text : String)
  | time (cause : Time.Instant.Unwritable)
  deriving DecidableEq, Repr

def EncodeError.message : EncodeError → String
  | .number text => "json: unsupported value: " ++ text
  | .time cause =>
    "json: error calling MarshalJSON for type *time.Time: " ++ cause.message

def ofFloat (x : Float) : Except EncodeError Json :=
  if Number.isFinite x then .ok (.number (Number.Layout.json.write x))
  else .error (.number (Number.Layout.json.write x))

def ofInstant (t : Time.Instant) : Except EncodeError Json :=
  match t.text with
  | .ok s => .ok (.string s)
  | .error e => .error (.time e)

/-- Why a value cannot be read. -/
inductive DecodeError where
  | wrongType
  /-- A quoted number that is none. -/
  | number (text : String) (cause : Number.LiteralError)
  | time
  | unknownKey (key : String)
  deriving DecidableEq, Repr

/-- A telemetry number: a JSON number, or a string that holds one. -/
def toNumber : Json → Except DecodeError Float
  | .null => .ok 0.0
  | .number text =>
    match Number.read text with
    | .ok x => .ok x
    | .error _ => .error .wrongType
  | .string body =>
    match Number.read (unescape body) with
    | .ok x => .ok x
    | .error e => .error (.number (unescape body) e)
  | _ => .error .wrongType

/-- Why a text is no telemetry number. -/
inductive NumberFault where
  /-- It is no document at all. -/
  | document
  | value (cause : DecodeError)
  deriving DecidableEq, Repr

/-- Reads a text that is a telemetry number, apart from blanks of any kind around it, into a
variable. The variable is set last. -/
def numberInto (text : Octets) : ExceptT NumberFault (StateM Float) Unit := do
  match read? (Text.trimChars (Text.Utf8.decode text)) with
  | none => throw .document
  | some j =>
    match j.toNumber with
    | .error e => throw (.value e)
    | .ok x => set x

def toFloat (old : Float) : Json → Except DecodeError Float
  | .null => .ok old
  | .number text =>
    match Number.read text with
    | .ok x => .ok x
    | .error _ => .error .wrongType
  | _ => .error .wrongType

def toText (old : String) : Json → Except DecodeError String
  | .null => .ok old
  | .string body => .ok (unescape body)
  | _ => .error .wrongType

def toBool (old : Bool) : Json → Except DecodeError Bool
  | .null => .ok old
  | .bool b => .ok b
  | _ => .error .wrongType

def digitsValue? (cs : List Char) : Option Nat :=
  if cs.isEmpty then none
  else cs.foldlM (fun n c => (Number.Literal.decimalDigit? c).map (n * 10 + ·)) 0

/-- A whole number of 64 bits, written without point and exponent. -/
def toInt (old : Int) : Json → Except DecodeError Int
  | .null => .ok old
  | .number text =>
    let read :=
      match text.toList with
      | '-' :: ds => (digitsValue? ds).map fun n => -(n : Int)
      | ds => (digitsValue? ds).map fun n => (n : Int)
    match read with
    | some n => if -(Int.pow 2 63) ≤ n ∧ n < Int.pow 2 63 then .ok n else .error .wrongType
    | none => .error .wrongType
  | _ => .error .wrongType

def toInstant (old : Time.Instant) : Json → Except DecodeError Time.Instant
  | .null => .ok old
  | .string body =>
    match Time.Instant.parse? (unescape body) with
    | some t => .ok t
    | none => .error .time
  | _ => .error .time

/-- The fields of an object, one after the other, over an old value. -/
def overFields {α : Type} (field : α → String → Json → Except DecodeError α) (old : α) :
    Json → Except DecodeError α
  | .null => .ok old
  | .object fields => fields.foldlM (fun a (k, v) => field a (unescape k) v) old
  | _ => .error .wrongType

end BinFleet.Json
