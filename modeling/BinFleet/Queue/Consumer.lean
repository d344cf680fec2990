import BinFleet.Journal
import BinFleet.Queue.Message

namespace BinFleet.Queue

structure Delivery where
  body : List UInt8
  correlationId : String
  /-- Why the acknowledgement fails, if it does. -/
  ackFailure : Option String := none

inductive Settlement where
  | acknowledged
  | rejected (requeue : Bool)
  deriving DecidableEq, Repr

/-- A database may come back, so what failed on it is tried again. -/
def isRecoverable (f : Fault) : Bool := f.has .databaseFailed

/-- Deals with one update in a log context, over some state. -/
abbrev UpdateHandler (σ : Type) := LogContext → MarkerUpdate → Journal → σ → σ × Journal × Option Fault

def operation : String × LogValue := ("op", .text "MarkerConsumer.handleDelivery")

/-- The note about a body that is no update; the journal does not say more about it. -/
def unreadable : String := "unreadable marker update"

/-- Acknowledges a delivery whose update was handled, gives it back when the failure may pass, and rejects
it otherwise. -/
def handleDelivery {σ : Type} (service : String) (handle : UpdateHandler σ) (context : LogContext)
    (d : Delivery) (j : Journal) (s : σ) : σ × Journal × Settlement :=
  let context := context.withRequestId d.correlationId
  match MarkerUpdate.ofBytes? d.body with
  | none =>
    let j := j.count (.consumed service archiveQueue false)
    (s, j.log (.error context "failed to decode marker update" (some unreadable) [operation]), .rejected false)
  | some update =>
    let context := context.withDeviceId update.marker.deviceId
    let (s, j, failure) := handle context update j s
    let j := j.count (.consumed service archiveQueue failure.isNone)
    match failure with
    | some f =>
      let requeue := isRecoverable f
      (s, j.log (.error (f.contextOr context) "failed to handle marker update" (some f.message)
        [operation, ("requeue", .bool requeue)]), .rejected requeue)
    | none =>
      match d.ackFailure with
      | none => (s, j, .acknowledged)
      | some why => (s, j.log (.warn context "ack failed" [("error", .text why), operation]), .acknowledged)

/-- How a channel of deliveries ends for its consumer. -/
inductive Hangup where
  /-- The queue closed the channel. -/
  | closed
  /-- The consumer was told to stop. -/
  | stopped
  deriving DecidableEq, Repr

/-- The deliveries of a channel in order; each is settled before the next one is looked at. At the end
it is told whether the consumer is done. -/
def drain {σ : Type} (service : String) (handle : UpdateHandler σ) (settle : Delivery → Settlement → σ → σ)
    (context : LogContext) (hangup : Hangup) : List Delivery → Journal → σ → σ × Journal × Bool
  | [], j, s => (s, j, hangup == .stopped)
  | d :: rest, j, s =>
    let (s, j, settlement) := handleDelivery service handle context d j s
    drain service handle settle context hangup rest j (settle d settlement s)

end BinFleet.Queue
