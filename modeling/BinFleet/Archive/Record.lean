import BinFleet.Json.Access
import BinFleet.Marker

namespace BinFleet

/-- A reading as it is kept, with the marker it gave. -/
structure ArchivedReading where
  id : Int
  reading : Reading
  percent : Float
  color : String
  position : Position

namespace ArchivedReading

def toJson (a : ArchivedReading) : Except Json.EncodeError Json := do
  let reading ← a.reading.toJson
  let percent ← Json.ofFloat a.percent
  let position ← a.position.toJson
  return .object [("id", .ofInt a.id), ("reading", reading), ("percent", percent),
    ("color", .ofText a.color), ("position", position)]

/-- A reading from the columns of its row. -/
def ofColumns (row : Json) : ArchivedReading :=
  let text (n : Nat) := (row.itemAt n).textOf
  let float (n : Nat) := (row.itemAt n).floatOf
  { id := (row.itemAt 0).intOf
    reading :=
      { id := text 1, distance := float 2, lat := float 3, latScale := float 4, long := float 5
        longScale := float 6, gpsMessage := text 7, source := text 8, receivedAt := (row.itemAt 13).instantOf }
    percent := float 9
    color := text 10
    position := ⟨float 11, float 12⟩ }

end ArchivedReading

/-- The latest known state of a device. -/
structure ArchivedDevice where
  deviceId : String
  position : Position
  percent : Float
  color : String
  readingsCount : Int
  firstSeenAt : Time.Instant
  updatedAt : Time.Instant

namespace ArchivedDevice

def toJson (d : ArchivedDevice) : Except Json.EncodeError Json := do
  let position ← d.position.toJson
  let percent ← Json.ofFloat d.percent
  let firstSeenAt ← Json.ofInstant d.firstSeenAt
  let updatedAt ← Json.ofInstant d.updatedAt
  return .object [("device_id", .ofText d.deviceId), ("position", position), ("percent", percent),
    ("color", .ofText d.color), ("readings_count", .ofInt d.readingsCount),
    ("first_seen_at", firstSeenAt), ("updated_at", updatedAt)]

/-- A device from the columns of its row. -/
def ofColumns (row : Json) : ArchivedDevice :=
  let float (n : Nat) := (row.itemAt n).floatOf
  { deviceId := (row.itemAt 0).textOf
    position := ⟨float 1, float 2⟩
    percent := float 3
    color := (row.itemAt 4).textOf
    readingsCount := (row.itemAt 5).intOf
    firstSeenAt := (row.itemAt 6).instantOf
    updatedAt := (row.itemAt 7).instantOf }

end ArchivedDevice

end BinFleet
