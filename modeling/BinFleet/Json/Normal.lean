import BinFleet.Json.Access

namespace BinFleet.Json

/-- A text that is a whole number without an exponent. -/
def isWhole (text : String) : Bool := text.toList.all fun c => c.isDigit || c == '-'

def normalNumber (text : String) : Json :=
  if isWhole text then .number text
  else .number (Number.Layout.json.write ((Number.readSaturating text).toOption.getD 0.0))

/-- Puts a field in its place; the later one of two with the same key stays. -/
def insertField (key : String) (v : Json) : List (String × Json) → List (String × Json)
  | [] => [(key, v)]
  | (k, old) :: rest =>
    if key = k then (k, v) :: rest
    else if key < k then (key, v) :: (k, old) :: rest
    else (k, old) :: insertField key v rest

mutual

/-- The normal form of a value. -/
def normal : Json → Json
  | null => null
  | bool b => bool b
  | number text => normalNumber text
  | string body => ofPlainText (unescape body)
  | array items => array (normalItems items)
  | object fields =>
    object (((normalFields fields).foldl (fun sorted (k, v) => insertField k v sorted) []).map
      fun (k, v) => (escape .plain k, v))

def normalItems : List Json → List Json
  | [] => []
  | j :: rest => j.normal :: normalItems rest

/-- Fields under the texts of their keys. -/
def normalFields : List (String × Json) → List (String × Json)
  | [] => []
  | (k, v) :: rest => (unescape k, v.normal) :: normalFields rest

end

end BinFleet.Json
