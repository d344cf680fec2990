import BinFleet.Journal
import BinFleet.Queue.Client
import BinFleet.Queue.Message
import BinFleet.Queue.Retry

namespace BinFleet.Queue

/-- What one attempt to publish comes to. -/
inductive Attempt where
  | noChannel (why : Fault)
  | refused (why : Fault)
  | accepted
  deriving DecidableEq, Repr

namespace Attempt

def failure? : Attempt → Option Fault
  | noChannel why => some why
  | refused why => some why
  | accepted => none

/-- The message left for the queue. -/
def offered : Attempt → Bool
  | noChannel _ => false
  | _ => true

end Attempt

/-- What happens around the publication of one event: why there is no connection, what each
attempt comes to, and why the producer gives up after an attempt. -/
structure Conditions where
  connection : Option Fault
  attempt : Nat → Attempt
  givenUp : Nat → Option Fault

/-- A message on its way, with its routing key. -/
structure Parcel where
  key : String
  message : Message
  deriving DecidableEq, Repr

structure Publication where
  /-- What the attempts came to, oldest first. -/
  attempts : List Attempt
  /-- What was offered to the queue, attempt by attempt. -/
  offered : List Parcel
  failure : Option Fault
  journal : Journal

def publishAttempts : Int := 3

/-- Why an event could not be published. -/
def publishFault (context : LogContext) (why : Fault) : Fault :=
  .tagged context (.wrapped "MarkerProducer.OnMarkerUpdate: " (.known .publishFailed) (": " ++ why.message))

/-- Publication of the event of an update by a service. -/
def publish (service : String) (conditions : Conditions) (context : LogContext) (now : Time.Instant)
    (update : MarkerUpdate) (journal : Journal) : Publication :=
  let done (attempts : List Attempt) (offered : List Parcel) (failure : Option Fault) (journal : Journal) : Publication :=
    ⟨attempts, offered, failure, journal.count (.published service exchange failure.isNone)⟩
  match Message.ofUpdate context now update with
  | .error why => done [] [] (some (publishFault context why)) journal
  | .ok message =>
    match conditions.connection with
    | some why => done [] [] (some (publishFault context why)) journal
    | none =>
      let key := routingKey update.marker.deviceId
      let outcome := retry publishAttempts (fun i => (conditions.attempt i).failure?) conditions.givenUp
      let attempts := (List.range outcome.made).map conditions.attempt
      let offered := (attempts.filter Attempt.offered).map fun _ => ⟨key, message⟩
      match outcome.failure with
      | some why => done attempts offered (some (publishFault context why)) journal
      | none =>
        done attempts offered none (journal.log (.debug context "marker event published" [("routing_key", .text key)]))

/-- Why the exchange could not be declared on a client without a channel. -/
def topologyFault? (c : Client) (context : LogContext) : Option Fault :=
  c.noChannel?.map fun why => .tagged context (why.during "MarkerProducer.DeclareTopology")

end BinFleet.Queue
