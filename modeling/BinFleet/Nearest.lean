import BinFleet.Marker
import BinFleet.Number.Trig

namespace BinFleet

namespace Position

def earthRadius : Float := 6371000.0

def radians (degrees : Float) : Float := degrees * Number.Trig.pi / 180.0

/-- The great-circle distance in metres. -/
def distance (p q : Position) : Float :=
  let dLat := radians (q.lat - p.lat)
  let dLng := radians (q.lng - p.lng)
  let sLat := Number.Trig.sine (dLat / 2.0)
  let sLng := Number.Trig.sine (dLng / 2.0)
  let a := sLat * sLat +
    Number.Trig.cosine (radians p.lat) * Number.Trig.cosine (radians q.lat) * sLng * sLng
  earthRadius * 2.0 * Number.Trig.angle a.sqrt (1.0 - a).sqrt

end Position

/-- A marker with its distance from a reference point. -/
structure NearbyMarker where
  marker : Marker
  distance : Float
  deriving Inhabited

namespace NearbyMarker

/-- A total order of doubles: not-a-number first, the two zeros alike. -/
def compareDistance (x y : Float) : Ordering :=
  if x != x then if y != y then .eq else .lt
  else if y != y then .gt
  else if x < y then .lt
  else if y < x then .gt
  else .eq

/-- By distance, then by device id. -/
def precedes (a b : NearbyMarker) : Bool :=
  match compareDistance a.distance b.distance with
  | .lt => true
  | .gt => false
  | .eq => a.marker.deviceId ≤ b.marker.deviceId

def toJson (n : NearbyMarker) : Except Json.EncodeError Json := do
  let marker ← n.marker.toJson
  let distance ← Json.ofFloat n.distance
  return .object [("marker", marker), ("distance_meters", distance)]

end NearbyMarker

/-- The markers within a radius (any distance when it is not positive), nearest first and at
most `limit` of them (all when it is not positive), for a given way to measure. -/
def nearestBy (distance : Marker → Float) (markers : List Marker) (radius : Float) (limit : Int) :
    List NearbyMarker :=
  let measured := markers.map fun m => NearbyMarker.mk m (distance m)
  let within := measured.filter fun n => !(radius > 0.0 && n.distance > radius)
  let ordered := within.mergeSort NearbyMarker.precedes
  if 0 < limit then ordered.take limit.toNat else ordered

def nearest (markers : List Marker) (centre : Position) (radius : Float) (limit : Int) :
    List NearbyMarker :=
  nearestBy (fun m => centre.distance m.position) markers radius limit

end BinFleet
