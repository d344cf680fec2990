import BinFleet.Check
import BinFleet.Coordinate
import BinFleet.Json.Value
import BinFleet.Text.Blank

namespace BinFleet

/-- One telemetry event of a bin. -/
structure Reading where
  id : String := ""
  distance : Float := 0.0
  lat : Float := 0.0
  latScale : Float := 0.0
  long : Float := 0.0
  longScale : Float := 0.0
  gpsMessage : String := ""
  source : String := ""
  receivedAt : Time.Instant := .zero
  deriving Inhabited

namespace Reading

/-- The source of readings that come from the telemetry broker. -/
def telemetrySource : String := "mqtt"

/-- The source of readings that an operator enters. -/
def operatorSource : String := "operator"

def maxIdLength : Nat := 64

/-- What the marker computation depends on. -/
def checks (r : Reading) (c : Checks) : Checks :=
  let c := c.check (Text.trim r.id != "") "id" "must be provided"
  let c := c.check (r.id.utf8ByteSize ≤ maxIdLength) "id"
    ("must not be more than " ++ toString maxIdLength ++ " characters")
  let c := c.check (Number.isFinite r.distance) "distance" "must be a finite number"
  let c := c.check (r.distance >= 0.0) "distance" "must not be negative"
  let c := c.check (Number.isFinite r.lat) "lat" "must be a finite number"
  let c := c.check (Number.isFinite r.long) "long" "must be a finite number"
  let c := c.check (Number.isFinite r.latScale && r.latScale != 0.0) "lat_scale"
    "must be a non-zero number"
  c.check (Number.isFinite r.longScale && r.longScale != 0.0) "long_scale"
    "must be a non-zero number"

/-- Where the reading was taken. With `sharedScale` the longitude minutes are measured in the
latitude scale. -/
def position (sharedScale : Bool) (r : Reading) : Position :=
  ⟨Coordinate.decode r.lat r.latScale,
    Coordinate.decodeWith r.long r.longScale (if sharedScale then r.latScale else r.longScale)⟩

/-- A text field that is left out when it is empty. -/
def optionalText (key value : String) : List (String × Json) :=
  if value = "" then [] else [(key, .ofText value)]

def toJson (r : Reading) : Except Json.EncodeError Json := do
  let distance ← Json.ofFloat r.distance
  let lat ← Json.ofFloat r.lat
  let latScale ← Json.ofFloat r.latScale
  let long ← Json.ofFloat r.long
  let longScale ← Json.ofFloat r.longScale
  let receivedAt ← Json.ofInstant r.receivedAt
  return .object ([("id", .ofText r.id), ("distance", distance), ("lat", lat),
    ("lat_scale", latScale), ("long", long), ("long_scale", longScale)] ++
    optionalText "gps_msg" r.gpsMessage ++ optionalText "source" r.source ++
    [("received_at", receivedAt)])

/-- Takes over one field; unknown keys are skipped. -/
def setField (r : Reading) (key : String) (v : Json) : Except Json.DecodeError Reading :=
  let is := Text.sameName key
  if is "id" then v.toText r.id |>.map fun x => { r with id := x }
  else if is "distance" then v.toNumber.map fun x => { r with distance := x }
  else if is "lat" then v.toNumber.map fun x => { r with lat := x }
  else if is "lat_scale" then v.toNumber.map fun x => { r with latScale := x }
  else if is "long" then v.toNumber.map fun x => { r with long := x }
  else if is "long_scale" then v.toNumber.map fun x => { r with longScale := x }
  else if is "gps_msg" then v.toText r.gpsMessage |>.map fun x => { r with gpsMessage := x }
  else if is "source" then v.toText r.source |>.map fun x => { r with source := x }
  else if is "received_at" then v.toInstant r.receivedAt |>.map fun x => { r with receivedAt := x }
  else .ok r

def ofJson (old : Reading) (j : Json) : Except Json.DecodeError Reading :=
  j.overFields setField old

end Reading

end BinFleet
