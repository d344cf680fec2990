import BinFleet.Log.Context

namespace BinFleet

/-- The causes that decisions depend on. -/
inductive Cause where
  | invalidPayload
  | deviceNotFound
  | noReadings
  | notFound
  | invalidToken
  | expiredToken
  | addressLookupDisabled
  | publishFailed
  | eventDropped
  | databaseFailed
  | modeNotProvided
  | invalidQos
  | invalidDistance
  | emptySecret
  | notAStructure
  | noFilePath
  | invalidUuid
  | invalidTransaction
  | connectionClosed
  | backlogFull
  | emptyConnection
  | connectionNotFound
  | emptyDsn
  | clientStopped
  | notConnected
  | timedOut
  | invalidMode
  | serviceNotInitialized
  | channelClosed
  deriving DecidableEq, Repr

namespace Cause

def message : Cause → String
  | invalidPayload => "invalid telemetry payload"
  | deviceNotFound => "device not found"
  | noReadings => "no readings for device"
  | notFound => "requested item not found"
  | invalidToken => "invalid token"
  | expiredToken => "expired token"
  | addressLookupDisabled => "address lookup disabled"
  | publishFailed => "failed to publish marker event"
  | eventDropped => "marker event dropped, outbox full"
  | databaseFailed => "database operation failed"
  | modeNotProvided => "mode flag not provided"
  | invalidQos => "mqtt qos must be 0, 1 or 2"
  | invalidDistance => "map max distance must be positive"
  | emptySecret => "auth jwt secret must be set for the operator api"
  | notAStructure => "config must be a non-nil pointer to a struct"
  | noFilePath => "no file path provided"
  | invalidUuid => "invalid uuid format"
  | invalidTransaction => "invalid transaction type in context"
  | connectionClosed => "connection closed"
  | backlogFull => "connection backlog full"
  | emptyConnection => "connection is empty"
  | connectionNotFound => "connection not found"
  | emptyDsn => "dsn is empty: can't reconnect"
  | clientStopped => "rabbitmq client is closed"
  | notConnected => "mqtt client is not connected"
  | timedOut => "mqtt operation timed out"
  | invalidMode => "invalid mode"
  | serviceNotInitialized => "service not initialized"
  | channelClosed => "Exception (504) Reason: \"channel/connection is not open\""

end Cause

/-- What went wrong, as a tree: its leaves are causes, and each layer adds words or the log context of the
place where the fault passed. -/
inductive Fault where
  | known (cause : Cause)
  | other (text : String)
  /-- A reading whose fields are not acceptable, with a message for each. -/
  | rejected (fields : List (String × String))
  /-- The fault passed a place with this log context. -/
  | tagged (context : LogContext) (inner : Fault)
  | wrapped (before : String) (inner : Fault) (after : String)
  | paired (before : String) (first : Fault) (between : String) (second : Fault) (after : String)
  deriving DecidableEq, Repr, Inhabited

namespace Fault

def message : Fault → String
  | known cause => cause.message
  | other text => text
  | rejected fields =>
    let parts := (fields.mergeSort fun a b => a.1 ≤ b.1).map fun (k, m) => k ++ ": " ++ m
    Cause.invalidPayload.message ++ ": " ++ "; ".intercalate parts
  | tagged _ inner => inner.message
  | wrapped before inner after => before ++ inner.message ++ after
  | paired before first between second after =>
    before ++ first.message ++ between ++ second.message ++ after

/-- The causes at the leaves, from left to right. -/
def causes : Fault → List Cause
  | known cause => [cause]
  | other _ => []
  | rejected _ => [.invalidPayload]
  | tagged _ inner => inner.causes
  | wrapped _ inner _ => inner.causes
  | paired _ first _ second _ => first.causes ++ second.causes

def has (f : Fault) (c : Cause) : Bool := f.causes.contains c

/-- The log context of the outermost tag, looking to the left first. -/
def context? : Fault → Option LogContext
  | known _ => none
  | other _ => none
  | rejected _ => none
  | tagged context _ => some context
  | wrapped _ inner _ => inner.context?
  | paired _ first _ second _ => first.context? <|> second.context?

/-- The log context to report a fault in. -/
def contextOr (f : Fault) (given : LogContext) : LogContext := f.context?.getD given

/-- The fields of a rejected reading at the leftmost such leaf. -/
def rejectedFields? : Fault → Option (List (String × String))
  | known _ => none
  | other _ => none
  | rejected fields => some fields
  | tagged _ inner => inner.rejectedFields?
  | wrapped _ inner _ => inner.rejectedFields?
  | paired _ first _ second _ => first.rejectedFields? <|> second.rejectedFields?

/-- Named after the operation that failed. -/
def during (operation : String) (inner : Fault) : Fault := wrapped (operation ++ ": ") inner ""

end Fault

end BinFleet
