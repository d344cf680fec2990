import BinFleet.Fault
import BinFleet.Marker

namespace BinFleet.Queue

def exchange : String := "bin_topic"

def archiveQueue : String := "bin_marker_archive"

/-- The key that a device's events are routed by. -/
def routingKey (deviceId : String) : String := "bin.marker." ++ Text.trim deviceId

structure Message where
  contentType : String
  /-- Two: kept by the queue across restarts. -/
  deliveryMode : Nat
  correlationId : String
  messageId : String
  timestamp : Time.Instant
  body : String
  deriving DecidableEq, Repr

/-- The event of an update. -/
def Message.ofUpdate (context : LogContext) (now : Time.Instant) (update : MarkerUpdate) :
    Except Fault Message :=
  match update.toJson with
  | .error e => .error (.wrapped "failed to marshal marker update: " (.other e.message) "")
  | .ok j =>
    .ok
      { contentType := "application/json"
        deliveryMode := 2
        correlationId := context.requestId
        messageId := update.marker.deviceId
        timestamp := now
        body := j.compact }

end BinFleet.Queue
