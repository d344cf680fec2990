import BinFleet.Fill
import BinFleet.Json.Reader
import BinFleet.Reading

namespace BinFleet

/-- How a pin is drawn. -/
structure Icon where
  path : String := ""
  fillColor : String := ""
  fillOpacity : Float := 0.0
  strokeWeight : Float := 0.0
  rotation : Float := 0.0
  scale : Float := 0.0
  anchorX : Float := 0.0
  anchorY : Float := 0.0
  deriving Inhabited

namespace Icon

/-- A map pin with a bin inside, in a box of 24 by 24. -/
def pinPath : String :=
  "M 12 14 z M 12 2.016 q 2.906 0 4.945 2.039 t 2.039 4.945 q 0 1.453 -0.727 3.328 t -1.758 3.516 t -2.039 3.07 t -1.711 2.273 l -0.75 0.797 q -0.281 -0.328 -0.75 -0.867 t -1.688 -2.156 t -2.133 -3.141 t -1.664 -3.445 t -0.75 -3.375 q 0 -2.906 2.039 -4.945 t 4.945 -2.039 z\n" ++
  "M 13.7 9.55 v 4.5 H 10.1 V 9.55 h 3.6 m -0.675 -2.7 h -2.025 l -0.45 0.45 H 8.75 v 0.9 h 6.3 V 7.3 h -1.575 l -0.45 -0.45 z M 14.6 8.65 H 9.2 v 5.4 c 0 0.495 0.405 0.9 0.9 0.9 h 3.6 c 0.495 0 0.9 -0.405 0.9 -0.9 V 8.65 z"

/-- The pin in a colour. -/
def pin (color : String) : Icon :=
  ⟨pinPath, color, 1.0, 0.0, 0.0, 1.4, 15.0, 30.0⟩

/-- The pin of a bin at a fill percentage. -/
def ofPercent {α : Type} [Scalar α] (p : α) : Icon := pin (Fill.color p).hex

def toJson (i : Icon) : Except Json.EncodeError Json := do
  let fillOpacity ← Json.ofFloat i.fillOpacity
  let strokeWeight ← Json.ofFloat i.strokeWeight
  let rotation ← Json.ofFloat i.rotation
  let scale ← Json.ofFloat i.scale
  let x ← Json.ofFloat i.anchorX
  let y ← Json.ofFloat i.anchorY
  return .object [("path", .ofText i.path), ("fillColor", .ofText i.fillColor),
    ("fillOpacity", fillOpacity), ("strokeWeight", strokeWeight), ("rotation", rotation),
    ("scale", scale), ("anchor", .object [("x", x), ("y", y)])]

def setAnchorField (i : Icon) (key : String) (v : Json) : Except Json.DecodeError Icon :=
  if Text.sameName key "x" then v.toFloat i.anchorX |>.map fun x => { i with anchorX := x }
  else if Text.sameName key "y" then v.toFloat i.anchorY |>.map fun x => { i with anchorY := x }
  else .ok i

def setField (i : Icon) (key : String) (v : Json) : Except Json.DecodeError Icon :=
  let is := Text.sameName key
  if is "path" then v.toText i.path |>.map fun x => { i with path := x }
  else if is "fillColor" then v.toText i.fillColor |>.map fun x => { i with fillColor := x }
  else if is "fillOpacity" then v.toFloat i.fillOpacity |>.map fun x => { i with fillOpacity := x }
  else if is "strokeWeight" then
    v.toFloat i.strokeWeight |>.map fun x => { i with strokeWeight := x }
  else if is "rotation" then v.toFloat i.rotation |>.map fun x => { i with rotation := x }
  else if is "scale" then v.toFloat i.scale |>.map fun x => { i with scale := x }
  else if is "anchor" then v.overFields setAnchorField i
  else .ok i

end Icon

namespace Position

def toJson (p : Position) : Except Json.EncodeError Json := do
  let lat ← Json.ofFloat p.lat
  let lng ← Json.ofFloat p.lng
  return .object [("lat", lat), ("lng", lng)]

def setField (p : Position) (key : String) (v : Json) : Except Json.DecodeError Position :=
  if Text.sameName key "lat" then v.toFloat p.lat |>.map fun x => { p with lat := x }
  else if Text.sameName key "lng" then v.toFloat p.lng |>.map fun x => { p with lng := x }
  else .ok p

end Position

/-- The single visible pin of a device. -/
structure Marker where
  deviceId : String := ""
  position : Position := ⟨0.0, 0.0⟩
  distance : Float := 0.0
  percent : Float := 0.0
  color : String := ""
  icon : Icon := {}
  readings : Int := 0
  updatedAt : Time.Instant := .zero
  deriving Inhabited

namespace Marker

def toJson (m : Marker) : Except Json.EncodeError Json := do
  let position ← m.position.toJson
  let distance ← Json.ofFloat m.distance
  let percent ← Json.ofFloat m.percent
  let icon ← m.icon.toJson
  let updatedAt ← Json.ofInstant m.updatedAt
  return .object [("device_id", .ofText m.deviceId), ("position", position),
    ("distance", distance), ("percent", percent), ("color", .ofText m.color), ("icon", icon),
    ("readings", .ofInt m.readings), ("updated_at", updatedAt)]

def setField (m : Marker) (key : String) (v : Json) : Except Json.DecodeError Marker :=
  let is := Text.sameName key
  if is "device_id" then v.toText m.deviceId |>.map fun x => { m with deviceId := x }
  else if is "position" then
    v.overFields Position.setField m.position |>.map fun x => { m with position := x }
  else if is "distance" then v.toFloat m.distance |>.map fun x => { m with distance := x }
  else if is "percent" then v.toFloat m.percent |>.map fun x => { m with percent := x }
  else if is "color" then v.toText m.color |>.map fun x => { m with color := x }
  else if is "icon" then v.overFields Icon.setField m.icon |>.map fun x => { m with icon := x }
  else if is "readings" then v.toInt m.readings |>.map fun x => { m with readings := x }
  else if is "updated_at" then v.toInstant m.updatedAt |>.map fun x => { m with updatedAt := x }
  else .ok m

end Marker

/-- What an accepted reading did to the map. -/
structure MarkerUpdate where
  marker : Marker := {}
  reading : Reading := {}
  replaced : Bool := false
  timestamp : Time.Instant := .zero
  deriving Inhabited

namespace MarkerUpdate

def toJson (u : MarkerUpdate) : Except Json.EncodeError Json := do
  let marker ← u.marker.toJson
  let reading ← u.reading.toJson
  let timestamp ← Json.ofInstant u.timestamp
  return .object [("marker", marker), ("reading", reading), ("replaced", .bool u.replaced),
    ("timestamp", timestamp)]

def setField (u : MarkerUpdate) (key : String) (v : Json) : Except Json.DecodeError MarkerUpdate :=
  let is := Text.sameName key
  if is "marker" then
    v.overFields Marker.setField u.marker |>.map fun x => { u with marker := x }
  else if is "reading" then
    v.overFields Reading.setField u.reading |>.map fun x => { u with reading := x }
  else if is "replaced" then v.toBool u.replaced |>.map fun x => { u with replaced := x }
  else if is "timestamp" then v.toInstant u.timestamp |>.map fun x => { u with timestamp := x }
  else .ok u

/-- The update that a message body holds. -/
def ofBytes? (body : List UInt8) : Option MarkerUpdate := do
  let j ← Json.read? (Text.Utf8.decode body)
  (j.overFields setField {}).toOption

end MarkerUpdate

end BinFleet
