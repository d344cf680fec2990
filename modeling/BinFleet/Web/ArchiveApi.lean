import BinFleet.Archive.Service
import BinFleet.Number.Integer
import BinFleet.Url
import BinFleet.Web.JsonReply

namespace BinFleet.Web

instance archiveJournaled {σ : Type} : Journaled (Archive.State σ) where
  journal s := s.journal
  record f s := { s with journal := f s.journal }

namespace ArchiveApi

variable {σ : Type}

def listDevices (db : Archive.Database σ) : Handler (Archive.State σ) := fun v s =>
  let context := v.log.withAction "list_archived_devices"
  match Archive.devices db context s with
  | (s, .error f) =>
    (note (.error (f.contextOr context) "failed to list devices" (some f.message)) s,
      ⟨errorReply (statusOf f) "failed to list devices", .returned ()⟩)
  | (s, .ok devices) =>
    answer context 200 (do return [("devices", .array (← devices.mapM ArchivedDevice.toJson))]) s

/-- How many readings a query asks for. -/
def limitOf (query : Url.Query) : Checks × Int :=
  let raw := query.get "limit"
  if raw = "" then ({}, Archive.defaultLimit)
  else
    match Number.Integer.readSigned 64 raw with
    | .ok n =>
      (({} : Checks).check (1 ≤ n ∧ n ≤ Archive.greatestLimit) "limit" "must be between 1 and 1000", n)
    | .error _ => (({} : Checks).add "limit" "must be an integer", 0)

def listReadings (db : Archive.Database σ) (id : List UInt8) : Handler (Archive.State σ) := fun v s =>
  let id := Text.Utf8.toString id
  let context := (v.log.withAction "list_archived_readings").withDeviceId id
  let (checks, limit) := limitOf (Url.Query.parse v.request.target.query)
  if checks.isValid then
    match Archive.readings db context id limit s with
    | (s, .error f) => answerFault context "failed to list readings" f s
    | (s, .ok readings) =>
      answer context 200
        (do return [("device_id", .ofText id),
          ("readings", .array (← readings.mapM ArchivedReading.toJson))]) s
  else (s, ⟨checksReply checks, .returned ()⟩)

end ArchiveApi

end BinFleet.Web
