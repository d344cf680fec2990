import BinFleet.Fault

namespace BinFleet.Queue

structure Client where
  address : String := ""
  /-- There is a connection with an open channel. -/
  connected : Bool := false
  stopped : Bool := false
  deriving DecidableEq, Repr

namespace Client

def ping? (c : Client) : Option Fault :=
  if c.connected then none else some (.other "rabbitmq connection is closed")

/-- Why there is no channel to publish on. -/
def noChannel? (c : Client) : Option Fault :=
  if c.stopped then some (.known .clientStopped)
  else if c.connected then none
  else some (.known .channelClosed)

/-- Why a new connection cannot even be tried. -/
def cannotConnect? (c : Client) : Option Fault :=
  if c.stopped then some (.known .clientStopped)
  else if c.address = "" then some (.known .emptyDsn)
  else none

/-- A connection is made when there is none; `dial` is what that comes to. -/
def ensure (c : Client) (dial : Option Fault) : Client × Option Fault :=
  if c.connected then (c, none)
  else
    match c.cannotConnect? with
    | some f => (c, some f)
    | none =>
      match dial with
      | some f => (c, some f)
      | none => ({ c with connected := true }, none)

/-- A closed client never connects again. -/
def close (c : Client) : Client := { c with connected := false, stopped := true }

end Client

end BinFleet.Queue
