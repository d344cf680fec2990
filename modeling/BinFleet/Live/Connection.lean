import BinFleet.Fault
import BinFleet.Uuid

namespace BinFleet.Live

/-- Messages of a kind have a text, or a reason why not. -/
class Sendable (α : Type) where
  encode : α → Except String String

/-- What goes over a connection. -/
inductive Sent where
  | text (s : String)
  | closing
  deriving DecidableEq, Repr

/-- While a connection is held, messages queue up behind the first one; after that they are written at once. -/
structure Connection (α : Type) where
  id : Uuid
  /-- There is a socket underneath. -/
  attached : Bool := true
  /-- Why writing on the socket fails, once it does. -/
  broken : Option String := none
  held : Bool := false
  /-- Messages that wait while the connection is held, oldest first. -/
  backlog : List α := []
  closed : Bool := false
  /-- All that was written, oldest first. -/
  written : List Sent := []

namespace Connection

variable {α : Type}

def greatestBacklog : Nat := 256

/-- Why a connection cannot be used. -/
def unusable? (c : Connection α) : Option Fault :=
  if !c.attached then some (.other "connection is nil")
  else if c.closed then some (.known .connectionClosed)
  else none

def sendFault (why : Fault) : Fault := .wrapped "send failed: " why ""

def hold (c : Connection α) : Connection α := { c with held := true }

/-- Writes a message. One that has no text is written as an empty frame and fails. -/
def write [Sendable α] (c : Connection α) (m : α) : Connection α × Option Fault :=
  match c.broken with
  | some why => (c, some (sendFault (.other why)))
  | none =>
    match Sendable.encode m with
    | .ok text => ({ c with written := c.written ++ [.text text] }, none)
    | .error why => ({ c with written := c.written ++ [.text ""] }, some (sendFault (.other why)))

/-- Writes messages up to the first that fails. -/
def writeAll [Sendable α] (c : Connection α) : List α → Connection α × Option Fault
  | [] => (c, none)
  | m :: rest =>
    match c.write m with
    | (c, none) => c.writeAll rest
    | (c, some f) => (c, some f)

def send [Sendable α] (c : Connection α) (m : α) : Connection α × Option Fault :=
  match c.unusable? with
  | some why => (c, some (sendFault why))
  | none =>
    if c.held then
      if c.backlog.length < greatestBacklog then ({ c with backlog := c.backlog ++ [m] }, none)
      else (c, some (sendFault (.known .backlogFull)))
    else c.write m

/-- Writes a message, then all that queued up behind it, and holds no longer. -/
def sendFirst [Sendable α] (c : Connection α) (m : α) : Connection α × Option Fault :=
  match c.unusable? with
  | some why => (c, some (sendFault why))
  | none => { c with held := false, backlog := [] }.writeAll (m :: c.backlog)

/-- Tells whether the peer can still be reached. -/
def health? (c : Connection α) : Option Fault :=
  match c.unusable? with
  | some why => some why
  | none => c.broken.map fun why => .wrapped "ping failed: " (.other why) ""

/-- Says good-bye once; a connection stays closed. -/
def close (c : Connection α) : Connection α :=
  if c.closed then c
  else { c with closed := true, written := if c.broken.isSome then c.written else c.written ++ [.closing] }

end Connection

end BinFleet.Live
