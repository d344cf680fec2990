import BinFleet.FleetStats
import BinFleet.Journal
import BinFleet.Nearest
import BinFleet.Tracker
import BinFleet.Fault

namespace BinFleet.Fleet

structure Settings where
  /-- The range of the sensors; longer distances count as this one. -/
  maxDistance : Float
  alertPercent : Float
  /-- The latitude's scale also divides the minutes of the longitude. -/
  sharedScale : Bool

/-- The state of the service: the map, what stands around the service, and what it leaves behind. -/
structure State (σ : Type) where
  tracker : Tracker
  world : σ
  journal : Journal

namespace State

variable {σ : Type}

def log (s : State σ) (e : LogEntry) : State σ := { s with journal := s.journal.log e }

def measure (s : State σ) (f : Metrics → Metrics) : State σ := { s with journal := s.journal.measure f }

end State

/-- Someone who is told about changes of the map, and may fail to take note. -/
structure Listener (σ : Type) where
  updated (context : LogContext) (u : MarkerUpdate) : σ × Journal → (σ × Journal) × Option Fault
  removed (context : LogContext) (deviceId : String) : σ × Journal → (σ × Journal) × Option Fault

/-- What the service is built from: settings, clock, listeners in order of registration, and a
resolver of addresses if there is one. -/
structure Service (σ : Type) where
  settings : Settings
  readClock : σ → Time.Instant × σ
  listeners : List (Listener σ)
  resolver : Option (LogContext → (lng lat : Float) → σ → σ × Except Fault String)

/-- The marker that a reading gives. -/
def Settings.marker (c : Settings) (r : Reading) : Marker :=
  let percent := Fill.percentage r.distance c.maxDistance
  let icon := Icon.ofPercent percent
  { position := r.position c.sharedScale
    distance := r.distance
    percent := percent
    color := icon.fillColor
    icon := icon
    updatedAt := r.receivedAt }

namespace Service

variable {σ : Type}

/-- Tells one listener; its failure is only noted. -/
def tell (context : LogContext) (complaint : String)
    (call : σ × Journal → (σ × Journal) × Option Fault) (s : State σ) : State σ :=
  let ((world, journal), failure) := call (s.world, s.journal)
  let s := { s with world, journal }
  match failure with
  | none => s
  | some f => s.log (.warn (f.contextOr context) complaint [("error", .text f.message)])

def notifyUpdate (v : Service σ) (context : LogContext) (u : MarkerUpdate) (s : State σ) : State σ :=
  v.listeners.foldl (fun s l => tell context "marker listener failed" (l.updated context u) s) s

def notifyRemoval (v : Service σ) (context : LogContext) (deviceId : String) (s : State σ) : State σ :=
  v.listeners.foldl (fun s l => tell context "removal listener failed" (l.removed context deviceId) s) s

/-- A reading without a time of arrival gets that of the clock. -/
def arrive (v : Service σ) (r : Reading) (s : State σ) : Reading × State σ :=
  if r.receivedAt.isZero then
    let (now, world) := v.readClock s.world
    ({ r with receivedAt := now.toUtc }, { s with world })
  else (r, s)

/-- Puts an acceptable reading on the map. -/
def applyReading (v : Service σ) (r : Reading) (s : State σ) : MarkerUpdate × State σ :=
  let applied := s.tracker.apply r (v.settings.marker r)
  (⟨applied.marker, r, applied.replaced, r.receivedAt⟩, { s with tracker := applied.tracker })

/-- What is counted and logged about an applied reading. -/
def record (context : LogContext) (u : MarkerUpdate) (s : State σ) : State σ :=
  let s := s.measure fun m =>
    ((m.inc (.readings u.reading.source true)).observeFill u.marker.percent).set .activeMarkers s.tracker.size
  s.log (.debug context "marker updated"
    [("percent", .float u.marker.percent), ("color", .text u.marker.color),
      ("lat", .float u.marker.position.lat), ("lng", .float u.marker.position.lng), ("replaced", .bool u.replaced)])

/-- Checks a reading and installs its marker. -/
def ingest (v : Service σ) (context : LogContext) (r : Reading) (s : State σ) :
    State σ × Except Fault MarkerUpdate :=
  let context := context.withDeviceId r.id
  let r := if r.source = "" then { r with source := Reading.operatorSource } else r
  let checks := r.checks {}
  if checks.isValid then
    let (r, s) := v.arrive r s
    let (u, s) := v.applyReading r s
    (v.notifyUpdate context u (record context u s), .ok u)
  else
    (s.measure fun m => m.inc (.readings r.source false),
      .error (.tagged context ((Fault.rejected checks.errors).during "Service.Ingest")))

/-- The reading in a message. -/
def decode? (payload : List UInt8) : Option Reading := do
  let j ← Json.read? (Text.Utf8.decode payload)
  (Reading.ofJson {} j).toOption

/-- Applies one message from the broker; a bad one fails alone. The fault does not repeat what the reader
found wrong with it. -/
def handleMessage (v : Service σ) (context : LogContext) (payload : List UInt8) (s : State σ) :
    State σ × Except Fault MarkerUpdate :=
  let context := context.withAction "handle_reading"
  match decode? payload with
  | none =>
    (s.measure fun m => m.inc (.readings Reading.telemetrySource false),
      .error (.tagged context ((Fault.known .invalidPayload).during "Service.HandleMessage")))
  | some r => v.ingest context { r with source := Reading.telemetrySource } s

def unknownDevice (context : LogContext) (operation : String) : Fault :=
  .tagged context ((Fault.known .deviceNotFound).during operation)

/-- The marker of a device, with its address if that can be found. -/
def device (v : Service σ) (context : LogContext) (id : String) (s : State σ) :
    State σ × Except Fault (Marker × String) :=
  let context := context.withDeviceId id
  match s.tracker.marker? id with
  | none => (s, .error (unknownDevice context "Service.Device"))
  | some marker =>
    match v.resolver with
    | none => (s, .ok (marker, ""))
    | some resolve =>
      match resolve context marker.position.lng marker.position.lat s.world with
      | (world, .ok address) => ({ s with world }, .ok (marker, address))
      | (world, .error f) =>
        ({ s with world }.log (.warn (f.contextOr context) "address lookup failed" [("error", .text f.message)]),
          .ok (marker, ""))

/-- The readings of a device in arrival order. -/
def history (context : LogContext) (id : String) (s : State σ) : Except Fault (List Reading) :=
  match s.tracker.history? id with
  | none => .error (unknownDevice (context.withDeviceId id) "Service.History")
  | some readings => .ok readings

/-- Removes the marker and the history of a device. -/
def forget (v : Service σ) (context : LogContext) (id : String) (s : State σ) : State σ × Option Fault :=
  let context := context.withDeviceId id
  match s.tracker.forget id with
  | (tracker, false) => ({ s with tracker }, some (unknownDevice context "Service.Forget"))
  | (tracker, true) =>
    let s := { s with tracker }.measure fun m => m.set .activeMarkers tracker.size
    ((v.notifyRemoval context id s).log (.info context "device forgotten"), none)

def nearby (centre : Position) (radius : Float) (limit : Int) (s : State σ) : List NearbyMarker :=
  nearest s.tracker.markers centre radius limit

def stats (v : Service σ) (s : State σ) : FleetStats :=
  FleetStats.ofMarkers s.tracker.markers v.settings.alertPercent

/-- Handles a message of a topic and notes what became of it. -/
def receive (v : Service σ) (context : LogContext) (topic : String) (payload : List UInt8) (s : State σ) :
    State σ :=
  match v.handleMessage context payload s with
  | (s, .error f) =>
    s.log (.warn (f.contextOr context) "reading rejected"
      [("topic", .text topic), ("payload_size", .int payload.length), ("error", .text f.message)])
  | (s, .ok u) =>
    s.log (.debug (context.withDeviceId u.marker.deviceId) "reading applied"
      [("topic", .text topic), ("percent", .float u.marker.percent)])

end Service

end BinFleet.Fleet
