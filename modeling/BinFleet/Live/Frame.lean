import BinFleet.Marker

namespace BinFleet.Live

inductive Frame where
  | snapshot (markers : List Marker) (time : Time.Instant)
  | changed (marker : Marker) (time : Time.Instant)
  | removed (deviceId : String) (time : Time.Instant)

namespace Frame

def kind : Frame → String
  | snapshot .. => "snapshot"
  | changed .. => "marker"
  | removed .. => "removed"

def timestamp : Frame → Time.Instant
  | snapshot _ t => t
  | changed _ t => t
  | removed _ t => t

/-- The fields between the kind and the time; a snapshot of no markers and an empty device id are
left out. -/
def content : Frame → Except Json.EncodeError (List (String × Json))
  | snapshot [] _ => return []
  | snapshot markers _ => do
    let items ← markers.mapM Marker.toJson
    return [("markers", .array items)]
  | changed marker _ => do
    let m ← marker.toJson
    return ("marker", m) :: deviceField marker.deviceId
  | removed deviceId _ => return deviceField deviceId
where
  deviceField (id : String) : List (String × Json) := if id = "" then [] else [("device_id", .ofText id)]

def toJson (f : Frame) : Except Json.EncodeError Json := do
  let content ← f.content
  let time ← Json.ofInstant f.timestamp
  return .object ([("type", .string f.kind)] ++ content ++ [("timestamp", time)])

/-- The text of a frame. -/
def encode (f : Frame) : Except String String :=
  match f.toJson with
  | .ok j => .ok (j.compact ++ "\n")
  | .error e => .error e.message

end Frame

end BinFleet.Live
