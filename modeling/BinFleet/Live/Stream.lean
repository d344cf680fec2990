import BinFleet.Fleet.Service
import BinFleet.Live.Frame
import BinFleet.Live.Hub

namespace BinFleet.Live

instance : Sendable Frame where
  encode := Frame.encode

/-- Where the hub stands in the world around the service, and what time it is there. -/
structure Stream (σ : Type) where
  hub : σ → Hub Frame
  setHub : Hub Frame → σ → σ
  now : σ → Time.Instant

namespace Stream

variable {σ : Type}

def broadcast (t : Stream σ) (f : Frame) (state : σ × Journal) : (σ × Journal) × Option Fault :=
  let (hub, journal, _) := (t.hub state.1).broadcast f state.2
  ((t.setHub hub state.1, journal), none)

/-- Every change of the map goes to all clients. -/
def listener (t : Stream σ) : Fleet.Listener σ where
  updated _ u state := t.broadcast (.changed u.marker u.timestamp) state
  removed _ deviceId state := t.broadcast (.removed deviceId (t.now state.1)) state

/-- A new client: registered while held, then given the snapshot. -/
def join (t : Stream σ) (context : LogContext) (id : Uuid) (s : Fleet.State σ) : Fleet.State σ :=
  let (hub, number) := (t.hub s.world).connect (Connection.hold { id })
  let (hub, journal, _) := hub.add (some number) s.journal
  let (hub, failure) := hub.apply number (·.sendFirst (.snapshot s.tracker.markers (t.now s.world)))
  let conn : String × LogValue := ("conn_id", .text id.render)
  match failure with
  | some f =>
    let journal := journal.log (.warn context "failed to send snapshot" [conn, ("error", .text f.message)])
    let (hub, journal, _) := hub.delete id journal
    { s with world := t.setHub hub s.world, journal }
  | none =>
    { s with
      world := t.setHub hub s.world
      journal := journal.log (.debug context "map client connected" [conn]) }

def close (t : Stream σ) (s : Fleet.State σ) : Fleet.State σ :=
  let (hub, journal) := (t.hub s.world).close s.journal
  { s with world := t.setHub hub s.world, journal }

end Stream

end BinFleet.Live
