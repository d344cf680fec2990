import BinFleet.Fault
import BinFleet.Journal
import BinFleet.Time.Span

namespace BinFleet.Telemetry

/-- A topic and who its messages go to. -/
structure Subscription (η : Type) where
  topic : String
  qos : Nat
  handler : η

/-- What the client asks of the broker. -/
inductive BrokerCall (η : Type) where
  | publish (topic : String) (qos : Nat) (retained : Bool) (payload : List UInt8)
  | subscribe (s : Subscription η)
  | disconnect (quiesce : Time.Span)

/-- How an operation of the broker stands: ended, well or not, or still running. -/
inductive Progress where
  | ended (failure : Option Fault)
  | running
  deriving DecidableEq, Repr

/-- What waiting gives when `stopped` tells why the waiting itself ends. -/
def Progress.await (stopped : Option Fault) : Progress → Option Fault
  | ended failure => failure
  | running => stopped

/-- What waiting for some time gives. -/
def Progress.awaitFor (limit : Time.Span) : Progress → Option Fault
  | ended failure => failure
  | running => some (.wrapped "" (.known .timedOut) (" after " ++ limit.render))

/-- The client remembers what was subscribed to and subscribes again whenever it is connected anew. -/
structure Client (η : Type) where
  /-- One for each topic. -/
  subscriptions : List (Subscription η) := []
  isOpen : Bool := false

/-- What an operation leaves: the client, what it asked of the broker, and its failure. -/
structure Asked (η : Type) where
  client : Client η
  calls : List (BrokerCall η)
  journal : Journal
  failure : Option Fault

namespace Client

/-- The latest subscription of a topic counts. -/
def remember {η : Type} (s : Subscription η) (all : List (Subscription η)) : List (Subscription η) :=
  all.filter (fun t => t.topic != s.topic) ++ [s]

/-- Subscribes to a topic, and remembers it whether or not that succeeds. -/
def subscribe {η : Type} (c : Client η) (context : LogContext) (s : Subscription η) (failure : Option Fault)
    (j : Journal) : Asked η :=
  let c := { c with subscriptions := remember s c.subscriptions }
  match failure with
  | some f => ⟨c, [.subscribe s], j, some (.wrapped ("failed to subscribe to " ++ s.topic ++ ": ") f "")⟩
  | none =>
    ⟨c, [.subscribe s],
      j.log (.info context "subscribed to mqtt topic" [("topic", .text s.topic), ("qos", .int s.qos)]), none⟩

def publish {η : Type} (c : Client η) (topic : String) (qos : Nat) (retained : Bool) (payload : List UInt8)
    (failure : Option Fault) (j : Journal) : Asked η :=
  if c.isOpen then
    ⟨c, [.publish topic qos retained payload], j,
      failure.map fun f => .wrapped ("failed to publish to " ++ topic ++ ": ") f ""⟩
  else ⟨c, [], j, some (.known .notConnected)⟩

def setConnected (connected : Bool) (j : Journal) : Journal :=
  j.measure fun m => m.set .brokerConnected (if connected then 1 else 0)

/-- A new connection asks again for every topic. -/
def connected {η : Type} (c : Client η) (j : Journal) : Asked η :=
  let context : LogContext := { action := "mqtt_connected" }
  ⟨c, c.subscriptions.map .subscribe, (setConnected true j).log (.info context "connected to mqtt broker"), none⟩

def lost {η : Type} (c : Client η) (why : Fault) (j : Journal) : Asked η :=
  let context : LogContext := { action := "mqtt_connection_lost" }
  ⟨c, [], (setConnected false j).log (.error context "mqtt connection lost, reconnecting" (some why.message)), none⟩

def close {η : Type} (c : Client η) (quiesce : Time.Span) (j : Journal) : Asked η :=
  ⟨{ c with isOpen := false }, [.disconnect quiesce], setConnected false j, none⟩

end Client

/-- The log context that messages are handled in. -/
def messageContext : LogContext := { action := "mqtt_message" }

end BinFleet.Telemetry
