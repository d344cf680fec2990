import BinFleet.Json.Reader
import BinFleet.Reading
import BinFleet.Text.Quoted

namespace BinFleet.Web

inductive BodyError where
  | empty
  | tooLarge
  /-- The body ends too early. -/
  | cut
  /-- No document has this character here; the first one is number 1. -/
  | malformed (character : Nat)
  | wrongField (field : String)
  | wrongType (character : Nat)
  | unknownKey (key : String)
  | number (text : String) (cause : Number.LiteralError)
  | severalValues
  deriving DecidableEq, Repr

namespace BodyError

/-- A body has at most this many octets. -/
def limit : Nat := 65536

def message : BodyError → String
  | empty => "body must not be empty"
  | tooLarge => "body must not be larger than " ++ toString limit ++ " bytes"
  | cut => "body contains badly-formed JSON"
  | malformed n => "body contains badly-formed JSON (at character " ++ toString n ++ ")"
  | wrongField field => "body contains incorrect JSON type for field " ++ Text.Quoted.encode field
  | wrongType n => "body contains incorrect JSON type (at character " ++ toString n ++ ")"
  | unknownKey key => "body contains unknown key " ++ Text.Quoted.encode key
  | number text cause =>
    "number " ++ Text.Quoted.encode text ++ ": strconv.ParseFloat: parsing " ++ Text.Quoted.encode text ++
      ": " ++ cause.message
  | severalValues => "body must only contain a single JSON value"

end BodyError

/-- What the body gives; numbers may be missing. -/
structure ReadingForm where
  id : String := ""
  gpsMessage : String := ""
  distance : Option Float := none
  lat : Option Float := none
  latScale : Option Float := none
  long : Option Float := none
  longScale : Option Float := none

namespace ReadingForm

/-- The form so far, and the first fault that was kept. -/
structure Progress where
  form : ReadingForm := {}
  kept : Option BodyError := none

namespace Progress

def keep (p : Progress) (e : BodyError) : Progress := { p with kept := p.kept <|> some e }

def setText (p : Progress) (key old : String) (v : Json) (set : String → ReadingForm) : Progress :=
  match v.toText old with
  | .ok s => { p with form := set s }
  | .error _ => p.keep (.wrongField key)

/-- A number, or nothing for `null`. A value of the wrong kind is noticed at its last character,
or at the first one of a container. -/
def setNumber (p : Progress) (v : Json) (set : Option Float → ReadingForm) : Progress :=
  match v with
  | .null => { p with form := set none }
  | v =>
    match v.toNumber with
    | .ok x => { p with form := set (some x) }
    | .error (.number text cause) => p.keep (.number text cause)
    | .error _ => p.keep (.wrongType (if v.isContainer then 1 else v.render.length))

def setField (p : Progress) (key : String) (v : Json) : Progress :=
  let is := Text.sameName key
  let f := p.form
  if is "id" then p.setText key f.id v fun s => { f with id := s }
  else if is "gps_msg" then p.setText key f.gpsMessage v fun s => { f with gpsMessage := s }
  else if is "distance" then p.setNumber v fun x => { f with distance := x }
  else if is "lat" then p.setNumber v fun x => { f with lat := x }
  else if is "lat_scale" then p.setNumber v fun x => { f with latScale := x }
  else if is "long" then p.setNumber v fun x => { f with long := x }
  else if is "long_scale" then p.setNumber v fun x => { f with longScale := x }
  else p.keep (.unknownKey key)

end Progress

/-- The form that a document of `length` octets is. -/
def ofJson (j : Json) (length : Nat) : Except BodyError ReadingForm :=
  match j with
  | .null => .ok {}
  | .object fields =>
    let p := fields.foldl (fun (p : Progress) (k, v) => p.setField (Json.unescape k) v) {}
    match p.kept with
    | some e => .error e
    | none => .ok p.form
  | .array _ => .error (.wrongType 1)
  | _ => .error (.wrongType length)

/-- How many octets have been read when a fault is noticed before some characters, `rest`: all up to
the character that was not expected, and a bad escape as a whole. A container that is nested too
deeply is not read at all. -/
def faultPlace (window : List UInt8) (expected : Json.Mode) (before : Nat) (rest : List Char) : Nat :=
  let start := Text.Utf8.offset window before
  let opens := rest.head? == some '[' || rest.head? == some '\x7b'
  match expected with
  | .escape _ _ => start + 1
  | .hex _ missing _ => min (start + missing) window.length
  | .value | .firstItem => if opens then start else Text.Utf8.offset window (before + 1)
  | _ => Text.Utf8.offset window (before + 1)

/-- Reads a body. Nothing after the limit is looked at, though a number that touches the limit
may go on there. -/
def read (body : List UInt8) : Except BodyError ReadingForm :=
  let window := body.take BodyError.limit
  let larger := decide (BodyError.limit < body.length)
  let cs := Text.Utf8.decode window
  let place (rest : List Char) : Nat := Text.Utf8.offset window (cs.length - rest.length)
  match Json.readFirst cs with
  | .fault expected rest => .error (.malformed (faultPlace window expected (cs.length - rest.length) rest))
  | .incomplete =>
    if larger then .error .tooLarge else if cs.all Json.isSpace then .error .empty else .error .cut
  | .value j rest =>
    if larger && rest.isEmpty && j.isNumber then .error .tooLarge
    else do
      let form ← ofJson j (place rest - place (cs.dropWhile Json.isSpace))
      if larger || !rest.all Json.isSpace then .error .severalValues else .ok form

/-- Everything that a reading needs is there. -/
def checks (f : ReadingForm) : Checks :=
  let c : Checks := ({} : Checks).check (f.id != "") "id" "must be provided"
  let c := c.check f.distance.isSome "distance" "must be provided"
  let c := c.check f.lat.isSome "lat" "must be provided"
  let c := c.check f.latScale.isSome "lat_scale" "must be provided"
  let c := c.check f.long.isSome "long" "must be provided"
  c.check f.longScale.isSome "long_scale" "must be provided"

/-- The reading of a complete form. -/
def reading (f : ReadingForm) : Reading where
  id := f.id
  gpsMessage := f.gpsMessage
  distance := f.distance.getD 0.0
  lat := f.lat.getD 0.0
  latScale := f.latScale.getD 0.0
  long := f.long.getD 0.0
  longScale := f.longScale.getD 0.0

end ReadingForm

end BinFleet.Web
