import BinFleet.Archive.Record
import BinFleet.Archive.Statement
import BinFleet.Archive.Transaction
import BinFleet.Journal

namespace BinFleet.Archive

/-- Rows as they come, each readable or not, and why they ended early. -/
structure Rows (α : Type) where
  rows : List (Except Fault α)
  failure : Option Fault

/-- All rows, unless one of them or their end failed. -/
def Rows.read {α : Type} (r : Rows α) : Except Fault (List α) := do
  let rows ← r.rows.mapM id
  match r.failure with
  | some f => .error f
  | none => .ok rows

/-- A database over a state: transactions and the statements of the archive, each on its route. -/
structure Database (σ : Type) extends Transactions σ where
  execute (route : Route) (s : Statement) : σ → σ × Option Fault
  insert (route : Route) (s : Statement) : σ → σ × Except Fault Int
  find (route : Route) (s : Statement) : σ → σ × Except Fault Bool
  devices (route : Route) (s : Statement) : σ → σ × Except Fault (Rows ArchivedDevice)
  readings (route : Route) (s : Statement) : σ → σ × Except Fault (Rows ArchivedReading)
  closeRows : σ → σ

/-- A database and what its use leaves behind. -/
structure State (σ : Type) where
  database : σ
  journal : Journal

def serviceName : String := "archive-service"

/-- A failure of the database during an operation. -/
def databaseFault (context : LogContext) (operation : String) (why : Fault) : Fault :=
  .tagged (context.withAction "database_transaction_failed")
    (.paired (operation ++ ": ") (.known .databaseFailed) ": " why "")

/-- Counts a statement by how it ended, and marks its failure. -/
def observed {σ α : Type} (name operation : String) (context : LogContext) (journal : Journal)
    (result : σ × Except Fault α) : State σ × Except Fault α :=
  let ok := match result.2 with
    | .ok _ => true
    | .error _ => false
  (⟨result.1, journal.count (.databaseQueries serviceName name ok)⟩,
    result.2.mapError (databaseFault context operation))

namespace State

def upsertDevice {σ : Type} (db : Database σ) (carried : Carried) (context : LogContext) (marker : Marker)
    (s : State σ) : State σ × Except Fault Unit :=
  let (d, failure) := db.execute carried.route (.upsertDevice marker) s.database
  observed "upsert_device" "ArchiveRepo.UpsertDevice" context s.journal
    (d, match failure with
      | none => .ok ()
      | some f => .error f)

def insertReading {σ : Type} (db : Database σ) (carried : Carried) (context : LogContext)
    (update : MarkerUpdate) (s : State σ) : State σ × Except Fault Int :=
  observed "insert_reading" "ArchiveRepo.InsertReading" context s.journal
    (db.insert carried.route (.insertReading update) s.database)

/-- The rows of a listing; they are closed once they were asked for. -/
def listed {σ α : Type} (db : Database σ) : σ × Except Fault (Rows α) → σ × Except Fault (List α)
  | (d, .error f) => (d, .error f)
  | (d, .ok rows) => (db.closeRows d, rows.read)

def listDevices {σ : Type} (db : Database σ) (carried : Carried) (context : LogContext) (s : State σ) :
    State σ × Except Fault (List ArchivedDevice) :=
  observed "list_devices" "ArchiveRepo.ListDevices" context s.journal
    (listed db (db.devices carried.route .listDevices s.database))

def listReadings {σ : Type} (db : Database σ) (carried : Carried) (context : LogContext)
    (deviceId : String) (limit : Int) (s : State σ) : State σ × Except Fault (List ArchivedReading) :=
  observed "list_readings" "ArchiveRepo.ListReadings" context s.journal
    (listed db (db.readings carried.route (.listReadings deviceId limit) s.database))

def deviceExists {σ : Type} (db : Database σ) (carried : Carried) (context : LogContext)
    (deviceId : String) (s : State σ) : State σ × Except Fault Bool :=
  observed "device_exists" "ArchiveRepo.DeviceExists" context s.journal
    (db.find carried.route (.findDevice deviceId) s.database)

/-- The transactions of a database, on the whole state. -/
def transactions {σ : Type} (db : Database σ) : Transactions (State σ) where
  start readOnly s := let (d, f) := db.start readOnly s.database; ({ s with database := d }, f)
  commit s := let (d, f) := db.commit s.database; ({ s with database := d }, f)
  rollback s := let (d, f) := db.rollback s.database; ({ s with database := d }, f)

end State

end BinFleet.Archive
