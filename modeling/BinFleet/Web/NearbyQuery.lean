import BinFleet.Check
import BinFleet.Number.Integer
import BinFleet.Number.Layout
import BinFleet.Url

namespace BinFleet.Web

structure NearbyQuery where
  lat : Float
  lng : Float
  radius : Float
  limit : Int
  deriving Inhabited

namespace NearbyQuery

def greatestLimit : Int := 1000

/-- A number of the query; one out of range is an infinity, and no number at all is zero. -/
def number (c : Checks) (q : Url.Query) (key : String) (required : Bool) : Checks × Float :=
  let raw := q.get key
  if raw = "" then (c.check (!required) key "must be provided", 0.0)
  else
    let x := (Number.readSaturating raw).toOption.getD 0.0
    let readable := (Number.read raw).toOption.isSome
    (c.check (readable && Number.isFinite x) key "must be a number", x)

def limitOf (c : Checks) (q : Url.Query) : Checks × Int :=
  let raw := q.get "limit"
  if raw = "" then (c, 0)
  else
    let readable := (Number.Integer.readSigned 64 raw).toOption.isSome
    (c.check readable "limit" "must be an integer", Number.Integer.readClamped 64 raw)

/-- The values of the query, with a message for each one that cannot be read. -/
def parse (c : Checks) (q : Url.Query) : Checks × NearbyQuery :=
  let (c, lat) := number c q "lat" true
  let (c, lng) := number c q "lng" true
  let (c, radius) := number c q "radius" false
  let (c, limit) := limitOf c q
  (c, ⟨lat, lng, radius, limit⟩)

def validate (n : NearbyQuery) (c : Checks) : Checks :=
  let c := c.check (n.lat >= -90.0 && n.lat <= 90.0) "lat" "must be between -90 and 90"
  let c := c.check (n.lng >= -180.0 && n.lng <= 180.0) "lng" "must be between -180 and 180"
  let c := c.check (n.radius >= 0.0) "radius" "must not be negative"
  c.check (0 ≤ n.limit ∧ n.limit ≤ greatestLimit) "limit" "must be between 0 and 1000"

end NearbyQuery

end BinFleet.Web
