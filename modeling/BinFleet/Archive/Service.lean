import BinFleet.Archive.Database
import BinFleet.Queue.Consumer

namespace BinFleet.Archive

def defaultLimit : Int := 100

def greatestLimit : Int := 1000

/-- The work of one transaction: the device's state, then the reading. -/
def storing {σ : Type} (db : Database σ) (context : LogContext) (update : MarkerUpdate) :
    Work (State σ) Int := fun carried s =>
  match s.upsertDevice db carried context update.marker with
  | (s, .error f) => (s, .returned (.error f))
  | (s, .ok ()) =>
    let (s, id) := s.insertReading db carried context update
    (s, .returned id)

/-- An update without a time of its own takes that of its event. -/
def dated (update : MarkerUpdate) : MarkerUpdate :=
  if update.marker.updatedAt.isZero then
    { update with marker := { update.marker with updatedAt := update.timestamp } }
  else update

/-- Stores the reading and the latest state of its device together. -/
def store {σ : Type} (db : Database σ) (context : LogContext) (update : MarkerUpdate) (s : State σ) :
    State σ × Option Fault :=
  let context := (context.withDeviceId update.marker.deviceId).withAction "archive_reading"
  if Text.trim update.marker.deviceId = "" then
    (s, some (.tagged context (.wrapped "Service.Store: " (.known .invalidPayload) ": empty device id")))
  else
    let update := dated update
    match within (State.transactions db) false (storing db context update) .nothing s with
    | (s, .crashed text) => (s, some (.other text))
    | (s, .returned (.error f)) => (s, some (.tagged context (f.during "Service.Store")))
    | (s, .returned (.ok id)) =>
      ({ s with journal := s.journal.log (.debug context "reading archived"
          [("reading_id", .int id), ("percent", .float update.marker.percent)]) }, none)

/-- All devices; the statement runs outside of transactions. -/
def devices {σ : Type} (db : Database σ) (context : LogContext) (s : State σ) :
    State σ × Except Fault (List ArchivedDevice) :=
  let (s, result) := s.listDevices db .nothing context
  (s, result.mapError fun f => .tagged context (f.during "Service.Devices"))

/-- The latest readings of a device, oldest first. A limit that makes no sense is replaced. -/
def readings {σ : Type} (db : Database σ) (context : LogContext) (deviceId : String) (limit : Int)
    (s : State σ) : State σ × Except Fault (List ArchivedReading) :=
  let context := context.withDeviceId deviceId
  let limit := if limit ≤ 0 ∨ greatestLimit < limit then defaultLimit else limit
  let failed (f : Fault) : Fault := .tagged context (f.during "Service.Readings")
  match s.deviceExists db .nothing context deviceId with
  | (s, .error f) => (s, .error (failed f))
  | (s, .ok false) => (s, .error (failed (.known .deviceNotFound)))
  | (s, .ok true) =>
    let (s, result) := s.listReadings db .nothing context deviceId limit
    (s, result.mapError failed)

/-- Stores what a delivery brings. -/
def storeHandler {σ : Type} (db : Database σ) : Queue.UpdateHandler σ := fun context update j d =>
  let (s, failure) := store db context update ⟨d, j⟩
  (s.database, s.journal, failure)

end BinFleet.Archive
