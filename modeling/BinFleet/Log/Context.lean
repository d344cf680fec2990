namespace BinFleet

structure LogContext where
  action : String := ""
  requestId : String := ""
  deviceId : String := ""
  subject : String := ""
  deriving DecidableEq, Repr, Inhabited

namespace LogContext

def withAction (c : LogContext) (action : String) : LogContext := { c with action }

def withRequestId (c : LogContext) (requestId : String) : LogContext := { c with requestId }

def withDeviceId (c : LogContext) (deviceId : String) : LogContext := { c with deviceId }

def withSubject (c : LogContext) (subject : String) : LogContext := { c with subject }

def orElse (new old : String) : String := if new = "" then old else new

/-- The fields of `new`, where they are set, over those of `old`. -/
def merge (old new : LogContext) : LogContext :=
  ⟨orElse new.action old.action, orElse new.requestId old.requestId,
    orElse new.deviceId old.deviceId, orElse new.subject old.subject⟩

end LogContext

end BinFleet
