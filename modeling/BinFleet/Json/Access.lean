import BinFleet.Json.Value
import BinFleet.Text.Base64

namespace BinFleet.Json

/-- The keys and values of an object, in order. -/
def members : Json → List (String × Json)
  | .object fields => fields.map fun (k, v) => (unescape k, v)
  | _ => []

/-- The value of a key; the last one counts. -/
def field (j : Json) (key : String) : Json :=
  ((j.members.reverse.find? fun (k, _) => k == key).map (·.2)).getD .null

def items : Json → List Json
  | .array items => items
  | _ => []

def isNull : Json → Bool
  | .null => true
  | _ => false

/-- There is a value for a key. -/
def has (j : Json) (key : String) : Bool := !(j.field key).isNull

def textOf (j : Json) : String := (toText "" j).toOption.getD ""

def intOf (j : Json) : Int := (toInt 0 j).toOption.getD 0

/-- A number, also in a string; one that is too great has no limit. -/
def floatOf : Json → Float
  | .number t => (Number.readSaturating t).toOption.getD 0.0
  | .string b => (Number.readSaturating (unescape b)).toOption.getD 0.0
  | _ => 0.0

/-- A piece of a long text: a text, or a text and how often it is repeated. -/
def pieceOf : Json → List UInt8
  | .array [unit, count] => (List.replicate count.intOf.toNat (Text.Utf8.ofString unit.textOf)).flatten
  | piece => Text.Utf8.ofString piece.textOf

/-- The octets of a text, of a list of pieces, or of an object with base64 digits. -/
def octetsOf : Json → List UInt8
  | .array pieces => pieces.flatMap pieceOf
  | .object fields =>
    (Text.Base64.decodePadded? .standard ((Json.object fields).field "b64").textOf.toList).getD []
  | j => pieceOf j

/-- An instant; what is none counts as the first one. -/
def instantOf (j : Json) : Time.Instant := (Time.Instant.parse? j.textOf).getD .zero

/-- The item at a place of a list. -/
def itemAt (j : Json) (n : Nat) : Json := (j.items[n]?).getD .null

def textAt (j : Json) (key : String) : String := (j.field key).textOf

def intAt (j : Json) (key : String) : Int := (j.field key).intOf

def floatAt (j : Json) (key : String) : Float := (j.field key).floatOf

def octetsAt (j : Json) (key : String) : List UInt8 := (j.field key).octetsOf

def flagAt (j : Json) (key : String) : Bool := (toBool false (j.field key)).toOption.getD false

def itemsAt (j : Json) (key : String) : List Json := (j.field key).items

def membersAt (j : Json) (key : String) : List (String × Json) := (j.field key).members

end BinFleet.Json
