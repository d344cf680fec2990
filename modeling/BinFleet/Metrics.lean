import BinFleet.Text.Blank

namespace BinFleet

/-- The values that are counted. -/
inductive Series where
  | httpRequests (service method path : String) (status : Int)
  | httpInFlight (service : String)
  | readings (source : String) (ok : Bool)
  | activeMarkers
  | brokerConnected
  | liveConnections (service : String)
  | databaseQueries (service operation : String) (ok : Bool)
  | published (service exchange : String) (ok : Bool)
  | dropped (service exchange : String)
  | consumed (service queue : String) (ok : Bool)
  deriving DecidableEq, Repr

namespace Series

def statusLabel (ok : Bool) : String := if ok then "success" else "error"

def name : Series → String
  | httpRequests .. => "http_requests_total"
  | httpInFlight .. => "http_requests_in_flight"
  | readings .. => "bin_readings_total"
  | activeMarkers => "bin_markers_active"
  | brokerConnected => "mqtt_connected"
  | liveConnections .. => "websocket_connections_total"
  | databaseQueries .. => "database_queries_total"
  | published .. => "rabbitmq_messages_published_total"
  | dropped .. => "rabbitmq_messages_dropped_total"
  | consumed .. => "rabbitmq_messages_consumed_total"

/-- In the order of their names. -/
def labels : Series → List (String × String)
  | httpRequests service method path status =>
    [("method", method), ("path", path), ("service", service), ("status", toString status)]
  | httpInFlight service => [("service", service)]
  | readings source ok => [("source", source), ("status", statusLabel ok)]
  | activeMarkers => []
  | brokerConnected => []
  | liveConnections service => [("service", service)]
  | databaseQueries service operation ok =>
    [("operation", operation), ("service", service), ("status", statusLabel ok)]
  | published service exchange ok =>
    [("exchange", exchange), ("service", service), ("status", statusLabel ok)]
  | dropped service exchange => [("exchange", exchange), ("service", service)]
  | consumed service queue ok =>
    [("queue", queue), ("service", service), ("status", statusLabel ok)]

end Series

/-- The values that were touched, and every observed fill percentage. -/
structure Metrics where
  values : List (Series × Int) := [(.activeMarkers, 0), (.brokerConnected, 0)]
  fills : List Float := []
  deriving Inhabited

namespace Metrics

def lookup (s : Series) : List (Series × Int) → Option Int
  | [] => none
  | (k, v) :: rest => if k = s then some v else lookup s rest

def store (s : Series) (v : Int) : List (Series × Int) → List (Series × Int)
  | [] => [(s, v)]
  | (k, w) :: rest => if k = s then (k, v) :: rest else (k, w) :: store s v rest

/-- The value of a series, zero before it is touched. -/
def get (m : Metrics) (s : Series) : Int := (lookup s m.values).getD 0

def set (m : Metrics) (s : Series) (v : Int) : Metrics := { m with values := store s v m.values }

def add (m : Metrics) (s : Series) (d : Int) : Metrics := m.set s (m.get s + d)

def inc (m : Metrics) (s : Series) : Metrics := m.add s 1

def observeFill (m : Metrics) (percent : Float) : Metrics := { m with fills := percent :: m.fills }

def line : Series × Int → String
  | (s, v) =>
    let labels := Text.joinWith "," (s.labels.map fun (k, l) => k ++ "=" ++ l)
    s.name ++ "\x7b" ++ labels ++ "\x7d " ++ toString v

/-- One line for each series, sorted. -/
def lines (m : Metrics) : List String := (m.values.map line).mergeSort fun a b => a ≤ b

/-- How many fills are at most 0, 10, …, 100, and how many there are at all. -/
def fillCounts (m : Metrics) : List Nat :=
  (List.range 11).map (fun i => m.fills.countP fun x => x <= Float.ofNat (10 * i)) ++
    [m.fills.length]

end Metrics

end BinFleet
