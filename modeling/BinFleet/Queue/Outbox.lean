import BinFleet.Journal
import BinFleet.Queue.Message

namespace BinFleet.Queue

structure OutboxItem where
  context : LogContext
  update : MarkerUpdate

/-- Events that wait for the one worker, in the order in which it takes them. -/
structure Outbox where
  service : String
  capacity : Nat
  /-- Events that wait, oldest first. -/
  waiting : List OutboxItem := []
  /-- The event that the worker has taken and not yet handed on. -/
  taken : Option OutboxItem := none
  /-- Events that the publisher got, oldest first. -/
  handed : List OutboxItem := []

namespace Outbox

def defaultCapacity : Nat := 1024

/-- An outbox for `size` events, or for the default number if that is not positive. -/
def ofSize (service : String) (size : Int) : Outbox :=
  ⟨service, if size ≤ 0 then defaultCapacity else size.toNat, [], none, []⟩

def size (o : Outbox) : Nat := o.waiting.length

/-- An event is accepted as long as there is room. -/
def offer (o : Outbox) (context : LogContext) (update : MarkerUpdate) (j : Journal) :
    Outbox × Journal × Option Fault :=
  if o.waiting.length < o.capacity then
    ({ o with waiting := o.waiting ++ [⟨context, update⟩] }, j, none)
  else
    (o, j.count (.dropped o.service exchange),
      some (.tagged context ((Fault.known .eventDropped).during "MarkerOutbox.OnMarkerUpdate")))

/-- The worker takes the oldest event when it has none. -/
def take (o : Outbox) : Outbox :=
  match o.taken, o.waiting with
  | none, item :: rest => { o with waiting := rest, taken := some item }
  | _, _ => o

/-- The worker hands its event to the publisher. -/
def hand (o : Outbox) : Outbox :=
  match o.taken with
  | some item => { o with taken := none, handed := o.handed ++ [item] }
  | none => o

/-- What is noted when the publisher is done with an event. -/
def report (item : OutboxItem) (failure : Option Fault) (j : Journal) : Journal :=
  match failure with
  | none => j
  | some f =>
    j.log (.warn (f.contextOr item.context) "failed to publish marker event" [("error", .text f.message)])

/-- The worker deals with one waiting event. -/
def work (publish : OutboxItem → Option Fault) (o : Outbox) (j : Journal) : Outbox × Journal :=
  match o.take.taken with
  | some item => (o.take.hand, report item (publish item) j)
  | none => (o, j)

/-- The worker deals with all waiting events. -/
def drain (publish : OutboxItem → Option Fault) (o : Outbox) (j : Journal) : Outbox × Journal :=
  (List.range o.waiting.length).foldl (fun (o, j) _ => work publish o j) (o, j)

/-- The worker ends, whatever still waits. -/
def stop (o : Outbox) (j : Journal) : Journal :=
  if o.waiting.isEmpty then j
  else j.log (.warn {} "marker outbox stopped with pending events" [("pending", .int o.waiting.length)])

end Outbox

end BinFleet.Queue
