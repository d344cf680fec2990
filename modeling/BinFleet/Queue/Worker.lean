import BinFleet.Queue.Outbox
import BinFleet.Queue.Retry

namespace BinFleet.Queue

/-- How a publisher deals with events. One that stalls keeps its first event until it is stopped. -/
structure Publisher where
  stalls : Bool
  failure : OutboxItem → Option Fault

structure Worker where
  outbox : Outbox
  journal : Journal := {}
  running : Bool := false

namespace Worker

/-- The worker goes on as far as the publisher lets it. -/
def proceed (p : Publisher) (w : Worker) : Worker :=
  if !w.running then w
  else if p.stalls then { w with outbox := w.outbox.take }
  else
    let (outbox, journal) := w.outbox.drain p.failure w.journal
    { w with outbox, journal }

def offer (p : Publisher) (context : LogContext) (update : MarkerUpdate) (w : Worker) :
    Worker × Option Fault :=
  let (outbox, journal, failure) := w.outbox.offer context update w.journal
  (proceed p { w with outbox, journal }, failure)

def start (p : Publisher) (w : Worker) : Worker := proceed p { w with running := true }

/-- Stops the worker. An event that the publisher still has fails. -/
def close (w : Worker) : Worker :=
  if !w.running then w
  else
    match w.outbox.taken with
    | none => { w with journal := w.outbox.stop w.journal, running := false }
    | some item =>
      let outbox := w.outbox.hand
      { outbox, journal := outbox.stop (Outbox.report item (some cancelled) w.journal), running := false }

/-- The events that the publisher got, oldest first. -/
def published (w : Worker) : List OutboxItem := w.outbox.handed ++ w.outbox.taken.toList

end Worker

end BinFleet.Queue
