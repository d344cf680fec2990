import BinFleet.Csv
import BinFleet.Reading

namespace BinFleet.History

def columns : List String :=
  ["id", "distance", "lat", "lat_scale", "long", "long_scale", "gps_msg", "source", "received_at"]

/-- Numbers are written without exponents. -/
def number (x : Float) : String := Number.Layout.plain.write x

def record (r : Reading) : Except Time.Instant.Unwritable (List String) := do
  return [r.id, number r.distance, number r.lat, number r.latScale, number r.long,
    number r.longScale, r.gpsMessage, r.source, ← r.receivedAt.text]

/-- The text of a failed encoding. -/
def encodeMessage (e : Time.Instant.Unwritable) : String :=
  "csvutil: error calling MarshalText for type time.Time: Time.MarshalText: " ++ e.message

/-- A record before others; where there is none, all ends. -/
def precede (row : Except Time.Instant.Unwritable (List String))
    (rest : List (List String) × Option Time.Instant.Unwritable) :
    List (List String) × Option Time.Instant.Unwritable :=
  match row with
  | .ok row => (row :: rest.1, rest.2)
  | .error e => ([], some e)

/-- The records up to the first reading that has none, and why it has none. -/
def records (readings : List Reading) : List (List String) × Option Time.Instant.Unwritable :=
  readings.foldr (fun r rest => precede (record r) rest) ([], none)

/-- A header and one record for each reading, up to the first that has none; nothing at all
without readings. -/
def csv (readings : List Reading) : String × Option Time.Instant.Unwritable :=
  if readings.isEmpty then ("", none)
  else
    let (rows, failure) := records readings
    (Csv.render (columns :: rows), failure)

/-- A table leaves in pieces of this many octets, the last one when it is complete. -/
def pieceSize : Nat := 4096

/-- What has left of a table when it breaks off. -/
def sent (table : String) : String :=
  let bytes := Text.Utf8.ofString table
  Text.Utf8.toString (bytes.take ((bytes.length - 1) / pieceSize * pieceSize))

def isFileSafe (c : Char) : Bool :=
  ('a' ≤ c && c ≤ 'z') || ('A' ≤ c && c ≤ 'Z') || ('0' ≤ c && c ≤ '9') || c == '-' || c == '_'

/-- The name of the download: every other character of the device id becomes an underscore. -/
def fileName (deviceId : String) : String :=
  "bin-" ++ String.ofList (deviceId.toList.map fun c => if isFileSafe c then c else '_') ++
    "-history.csv"

end BinFleet.History
