import BinFleet.Marker

namespace BinFleet

structure FleetStats where
  devices : Nat
  mean : Float
  deviation : Float
  least : Float
  greatest : Float
  alertThreshold : Float
  alertDevices : List String
  deriving Inhabited

namespace FleetStats

/-- The least number by an order, not-a-number skipped unless there is nothing else. -/
def extreme (better : Float → Float → Bool) (xs : List Float) : Float :=
  xs.foldl (fun best x => if x == x && (best != best || better x best) then x else best) (0.0 / 0.0)

def sum (xs : List Float) : Float := xs.foldl (· + ·) 0.0

def average (xs : List Float) : Float := sum xs / Float.ofNat xs.length

/-- The sample standard deviation, corrected for the rounding of the mean. -/
def sampleDeviation (xs : List Float) : Float :=
  let m := average xs
  let n := Float.ofNat xs.length
  let ds := xs.map (· - m)
  let squares := sum (ds.map fun d => d * d)
  let rest := sum ds
  ((squares - rest * rest / n) / (n - 1.0)).sqrt

/-- Bins at or below the threshold are listed as alerts: a short distance means a full bin. -/
def ofMarkers (markers : List Marker) (alertPercent : Float) : FleetStats :=
  let percents := markers.map (·.percent)
  let alerts := (markers.filter fun m => m.percent <= alertPercent).map (·.deviceId)
  let least := extreme (· < ·) percents
  let greatest := extreme (· > ·) percents
  match percents with
  | [] => ⟨0, 0.0, 0.0, 0.0, 0.0, alertPercent, []⟩
  | [p] => ⟨1, p, 0.0, least, greatest, alertPercent, alerts⟩
  | _ => ⟨markers.length, average percents, sampleDeviation percents, least, greatest, alertPercent, alerts⟩

def toJson (s : FleetStats) : Except Json.EncodeError Json := do
  let mean ← Json.ofFloat s.mean
  let deviation ← Json.ofFloat s.deviation
  let least ← Json.ofFloat s.least
  let greatest ← Json.ofFloat s.greatest
  let threshold ← Json.ofFloat s.alertThreshold
  return .object [("devices", .ofNat s.devices), ("mean_percent", mean),
    ("stddev_percent", deviation), ("min_percent", least), ("max_percent", greatest),
    ("alert_threshold", threshold), ("alert_devices", .array (s.alertDevices.map .ofText))]

end FleetStats

end BinFleet
