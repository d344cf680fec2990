import BinFleet.Archive.Record
import BinFleet.FleetStats
import BinFleet.Log.Context
import BinFleet.Nearest

namespace BinFleet.View

def text (s : String) : Json := .ofPlainText s

/-- What JSON has no number for is shown as text. -/
def number (x : Float) : Json :=
  match Json.ofFloat x with
  | .ok j => j
  | .error _ => text (Number.Layout.json.write x)

def approximate (x : Float) : Json := text (Number.approximate x)

def instant (t : Time.Instant) : Json := text t.render

def position (p : Position) : Json := .object [("lat", number p.lat), ("lng", number p.lng)]

def measurements (r : Reading) : List (String × Json) :=
  [("id", text r.id), ("distance", number r.distance), ("lat", number r.lat),
    ("lat_scale", number r.latScale), ("long", number r.long), ("long_scale", number r.longScale)]

def reading (r : Reading) : Json :=
  .object (measurements r ++ [("gps_msg", text r.gpsMessage), ("source", text r.source),
    ("received_at", instant r.receivedAt)])

def marker (m : Marker) : Json :=
  .object [("device_id", text m.deviceId), ("position", position m.position),
    ("distance", number m.distance), ("percent", number m.percent), ("color", text m.color),
    ("icon_color", text m.icon.fillColor), ("readings", .ofInt m.readings),
    ("updated_at", instant m.updatedAt)]

def update (u : MarkerUpdate) : Json :=
  .object [("marker", marker u.marker), ("reading", reading u.reading), ("replaced", .bool u.replaced),
    ("timestamp", instant u.timestamp)]

def nearby (n : NearbyMarker) : Json :=
  .object [("device_id", text n.marker.deviceId), ("distance_meters", approximate n.distance)]

def stats (s : FleetStats) : Json :=
  .object [("devices", .ofNat s.devices), ("mean_percent", approximate s.mean),
    ("stddev_percent", approximate s.deviation), ("min_percent", number s.least),
    ("max_percent", number s.greatest), ("alert_threshold", number s.alertThreshold),
    ("alert_devices", .array (s.alertDevices.map text))]

def archivedDevice (d : ArchivedDevice) : Json :=
  .object [("device_id", text d.deviceId), ("position", position d.position), ("percent", number d.percent),
    ("color", text d.color), ("readings_count", .ofInt d.readingsCount),
    ("first_seen_at", instant d.firstSeenAt), ("updated_at", instant d.updatedAt)]

/-- A text that is left out when it is empty. -/
def optional (key value : String) : List (String × Json) := if value = "" then [] else [(key, text value)]

def archivedReading (a : ArchivedReading) : Json :=
  let r := a.reading
  .object [("id", .ofInt a.id),
    ("reading", .object (measurements r ++ optional "gps_msg" r.gpsMessage ++ optional "source" r.source ++
      [("received_at", instant r.receivedAt)])),
    ("percent", number a.percent), ("color", text a.color), ("position", position a.position)]

def context (c : LogContext) : Json :=
  .object [("action", text c.action), ("request_id", text c.requestId), ("device_id", text c.deviceId),
    ("subject", text c.subject)]

end BinFleet.View
