import BinFleet.Journal
import BinFleet.Live.Connection

namespace BinFleet.Live

/-- At most one connection is registered for each id, and whatever leaves the hub is closed. -/
structure Hub (α : Type) where
  service : String
  /-- Every connection there ever was, by number. -/
  connections : List (Connection α) := []
  /-- The numbers of the registered ones, in the order in which they came. -/
  members : List Nat := []

namespace Hub

variable {α : Type}

def size (h : Hub α) : Nat := h.members.length

/-- A new connection and its number. -/
def connect (h : Hub α) (c : Connection α) : Hub α × Nat :=
  ({ h with connections := h.connections ++ [c] }, h.connections.length)

def modify (h : Hub α) (n : Nat) (f : Connection α → Connection α) : Hub α :=
  { h with connections := h.connections.modify n f }

/-- The registered connection with an id. -/
def member? (h : Hub α) (id : Uuid) : Option Nat :=
  h.members.find? fun n => (h.connections[n]?).any fun c => c.id == id

def gauge (h : Hub α) (j : Journal) : Journal := j.measure fun m => m.set (.liveConnections h.service) h.size

def idText (h : Hub α) (n : Nat) : String := ((h.connections[n]?).map fun c => c.id.render).getD ""

/-- Registers a connection in place of one with the same id, which is closed. -/
def add (h : Hub α) (number : Option Nat) (j : Journal) : Hub α × Journal × Option Fault :=
  match number.bind fun n => (h.connections[n]?).map fun c => (n, c) with
  | none => (h, j, some (.known .emptyConnection))
  | some (n, c) =>
    let (h, j) :=
      match h.member? c.id with
      | none => (h, j)
      | some old =>
        ({ h.modify old Connection.close with members := h.members.filter (· != old) },
          j.log (.warn { action := "add_ws_connection" } "replacing existing connection"
            [("conn_id", .text (h.idText old))]))
    let h := { h with members := h.members ++ [n] }
    (h, h.gauge j, none)

/-- Closes and drops a member. -/
def drop (h : Hub α) (n : Nat) (j : Journal) : Hub α × Journal :=
  let h := { h.modify n Connection.close with members := h.members.filter (· != n) }
  (h, h.gauge j)

def delete (h : Hub α) (id : Uuid) (j : Journal) : Hub α × Journal × Option Fault :=
  match h.member? id with
  | none => (h, j, some (.known .connectionNotFound))
  | some n =>
    let (h, j) := h.drop n j
    (h, j, none)

/-- An operation of one connection that may fail. -/
def apply (h : Hub α) (n : Nat) (f : Connection α → Connection α × Option Fault) : Hub α × Option Fault :=
  match h.connections[n]? with
  | none => (h, none)
  | some c =>
    let (c, failure) := f c
    (h.modify n fun _ => c, failure)

def sendTo [Sendable α] (h : Hub α) (id : Uuid) (m : α) : Hub α × Option Fault :=
  match h.member? id with
  | none => (h, some (.known .connectionNotFound))
  | some n => h.apply n (·.send m)

/-- Offers a message to one member; a member that fails is dropped. -/
def offer [Sendable α] (m : α) (state : Hub α × Journal × Nat) (n : Nat) : Hub α × Journal × Nat :=
  let (h, j, sent) := state
  match h.apply n (·.send m) with
  | (h, none) => (h, j, sent + 1)
  | (h, some f) =>
    let j := j.log (.debug { action := "ws_broadcast" } "dropping dead connection"
      [("conn_id", .text (h.idText n)), ("error", .text f.message)])
    let (h, j) := h.drop n j
    (h, j, sent)

/-- Sends a message to all members and tells how many got it. -/
def broadcast [Sendable α] (h : Hub α) (m : α) (j : Journal) : Hub α × Journal × Nat :=
  h.members.foldl (offer m) (h, j, 0)

/-- A connection without a socket was closed, which no program survives. -/
def crashed (h : Hub α) : Bool := h.connections.any fun c => c.closed && !c.attached

/-- Closes all members. -/
def close (h : Hub α) (j : Journal) : Hub α × Journal :=
  let (h, j) := h.members.foldl (fun (h, j) n => h.drop n j) (h, j)
  (h, j.log (.info { action := "hub_close" } "all websocket connections closed"))

end Hub

end BinFleet.Live
