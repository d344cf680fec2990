import BinFleet.History
import BinFleet.Live.Stream
import BinFleet.Web.JsonReply
import BinFleet.Web.NearbyQuery
import BinFleet.Web.ReadingForm
import BinFleet.Web.Upgrade

namespace BinFleet.Web

instance fleetJournaled {σ : Type} : Journaled (Fleet.State σ) where
  journal s := s.journal
  record f s := { s with journal := f s.journal }

namespace MapApi

variable {σ : Type}

def markersDocument (items : Except Json.EncodeError (List Json)) (count : Nat) :
    Except Json.EncodeError (List (String × Json)) := do
  return [("count", .ofNat count), ("markers", .array (← items))]

def listMarkers : Handler (Fleet.State σ) := fun v s =>
  let markers := s.tracker.markers
  answer (v.log.withAction "list_markers") 200
    (markersDocument (markers.mapM Marker.toJson) markers.length) s

def listNearby : Handler (Fleet.State σ) := fun v s =>
  let (checks, query) := NearbyQuery.parse {} (Url.Query.parse v.request.target.query)
  let checks := query.validate checks
  if checks.isValid then
    let markers := Fleet.Service.nearby ⟨query.lat, query.lng⟩ query.radius query.limit s
    answer (v.log.withAction "list_nearby_markers") 200
      (markersDocument (markers.mapM NearbyMarker.toJson) markers.length) s
  else (s, ⟨checksReply checks, .returned ()⟩)

def stats (service : Fleet.Service σ) : Handler (Fleet.State σ) := fun v s =>
  answer (v.log.withAction "get_stats") 200
    (do return [("stats", ← (service.stats s).toJson)]) s

/-- A device; an address that is not known is left out. -/
def deviceDocument (m : Marker) (address : String) : Except Json.EncodeError (List (String × Json)) := do
  return [("device", .object (("marker", ← m.toJson) :: Reading.optionalText "address" address))]

/-- Serves what belongs to one device. Octets that are no text are the id of no device. -/
def ofDevice (action complaint operation : String)
    (serve : LogContext → String → Fleet.State σ → Fleet.State σ × Reply) (id : List UInt8) :
    Handler (Fleet.State σ) := fun v s =>
  let context := (v.log.withAction action).withDeviceId (Text.Utf8.toString id)
  match Text.Utf8.valid? id with
  | some id => serve context id s
  | none => answerFault context complaint (Fleet.Service.unknownDevice context operation) s

def device (service : Fleet.Service σ) : List UInt8 → Handler (Fleet.State σ) :=
  let complaint := "failed to get device"
  ofDevice "get_device" complaint "Service.Device" fun context id s =>
    match service.device context id s with
    | (s, .error f) => answerFault context complaint f s
    | (s, .ok (m, address)) => answer context 200 (deviceDocument m address) s

def history : List UInt8 → Handler (Fleet.State σ) :=
  let complaint := "failed to get history"
  ofDevice "get_history" complaint "Service.History" fun context id s =>
    match Fleet.Service.history context id s with
    | .error f => answerFault context complaint f s
    | .ok readings =>
      answer context 200
        (do return [("device_id", .ofText id), ("readings", .array (← readings.mapM Reading.toJson))]) s

/-- The writes of a table; one that breaks off has a fault behind what was sent already. -/
def tableWrites (id : String) (readings : List Reading) : List Write × Option String :=
  let head : List Write := [.header "Content-Type" "text/csv; charset=utf-8",
    .header "Content-Disposition" ("attachment; filename=\"" ++ History.fileName id ++ "\"")]
  match History.csv readings with
  | (text, none) => (head ++ [.body text], none)
  | (text, some e) =>
    let sent := History.sent text
    (head ++ (if sent = "" then [] else [.body sent]) ++ errorReply 500 (History.encodeMessage e),
      some (History.encodeMessage e))

/-- The history as a table to be saved under a name of its own. -/
def historyTable : List UInt8 → Handler (Fleet.State σ) :=
  let complaint := "failed to get history"
  ofDevice "get_history_csv" complaint "Service.History" fun context id s =>
    match Fleet.Service.history context id s with
    | .error f => answerFault context complaint f s
    | .ok readings =>
      match tableWrites id readings with
      | (writes, none) => (s, ⟨writes, .returned ()⟩)
      | (writes, some why) =>
        (note (.error context "failed to encode csv" (some why)) s, ⟨writes, .returned ()⟩)

/-- What an accepted reading made of the map. -/
def resultDocument (u : MarkerUpdate) : Except Json.EncodeError (List (String × Json)) := do
  return [("result", .object [("marker", ← u.marker.toJson), ("replaced", .bool u.replaced)])]

/-- Puts a reading on the map, as if a bin had sent it. -/
def ingestForm (service : Fleet.Service σ) (context : LogContext) (form : ReadingForm)
    (s : Fleet.State σ) : Fleet.State σ × Reply :=
  match service.ingest context form.reading s with
  | (s, .error f) =>
    match f.rejectedFields? with
    | some fields => (s, ⟨checksReply ⟨fields⟩, .returned ()⟩)
    | none =>
      (note (.error (f.contextOr context) "failed to ingest reading" (some f.message)) s,
        ⟨errorReply (statusOf f) f.message, .returned ()⟩)
  | (s, .ok u) =>
    let (s, r) := answer context 201 (resultDocument u) s
    if (resultDocument u).toOption.isSome then
      (note (.info (context.withDeviceId u.marker.deviceId) "reading injected by operator") s, r)
    else (s, r)

def postReading (service : Fleet.Service σ) : Handler (Fleet.State σ) := fun v s =>
  let context := v.log.withAction "post_reading"
  match ReadingForm.read v.request.body with
  | .error e =>
    (note (.warn context "failed to read request JSON data" [("error", .text e.message)]) s,
      ⟨errorReply 400 e.message, .returned ()⟩)
  | .ok form =>
    if form.checks.isValid then ingestForm service context form s
    else (s, ⟨checksReply form.checks, .returned ()⟩)

def deleteDevice (service : Fleet.Service σ) : List UInt8 → Handler (Fleet.State σ) :=
  let complaint := "failed to forget device"
  ofDevice "delete_device" complaint "Service.Forget" fun context id s =>
    match service.forget context id s with
    | (s, some f) => answerFault context complaint f s
    | (s, none) => answer context 200 (.ok [("device_id", .ofText id), ("status", .ofText "removed")]) s

/-- Turns a request into a client of the stream. `takeOver` gives the connection's id, or tells why
the connection cannot be had. -/
def liveMarkers (stream : Live.Stream σ) (takeOver : σ → Except String Uuid) :
    Handler (Fleet.State σ) := fun v s =>
  let context := v.log.withAction "ws_markers_connect"
  let refuse (r : Upgrade.Refusal) : Fleet.State σ × Reply :=
    (note (.warn context "websocket upgrade failed" [("error", .text r.message)]) s,
      ⟨r.writes, .returned ()⟩)
  match Upgrade.refusal? v.request with
  | some r => refuse r
  | none =>
    match takeOver s.world with
    | .error why => refuse ⟨500, why⟩
    | .ok id => (stream.join context id s, {})

end MapApi

end BinFleet.Web
