import BinFleet.Proofs.Archive.Tables
import Mathlib.Data.List.Pairwise
import Mathlib.Data.List.Perm.Basic

namespace BinFleet

/-- The state of a device. -/
structure Look where
  position : Position
  percent : Float
  color : String
  updatedAt : Time.Instant

def ArchivedDevice.look (d : ArchivedDevice) : Look := ⟨d.position, d.percent, d.color, d.updatedAt⟩

def Marker.look (m : Marker) : Look := ⟨m.position, m.percent, m.color, m.updatedAt⟩

end BinFleet

namespace BinFleet.Archive

/-- The state that an update brings, with the time that it is stored under. -/
def broughtBy (u : MarkerUpdate) : Look := (dated u).marker.look

def timeOf (u : MarkerUpdate) : Int := (broughtBy u).updatedAt.totalNanos

/-- The updates of a device that are stored in a run, in the order of storing. -/
def storedOf {σ : Type} (db : Database σ) (id : String) : State σ → List (LogContext × MarkerUpdate) → List MarkerUpdate
  | _, [] => []
  | s, (context, u) :: rest =>
    if (store db context u s).2 = none ∧ u.marker.deviceId = id then
      u :: storedOf db id (store db context u s).1 rest
    else storedOf db id (store db context u s).1 rest

section

variable {σ : Type} {db : Database σ} {durable : σ → Tables} {opened : σ → Option Tables}

theorem storeAll_cons (s : State σ) (context : LogContext) (u : MarkerUpdate) (rest : List (LogContext × MarkerUpdate)) :
    storeAll db s ((context, u) :: rest) = storeAll db (store db context u s).1 rest := by
  simp only [storeAll, List.foldl_cons]

theorem Tables.look_stored (t : Tables) (number : Int) (u : MarkerUpdate) :
    ((t.stored number u).device? u.marker.deviceId).map (·.look) = some u.marker.look := by
  rw [device?_stored_self]
  cases t.device? u.marker.deviceId <;> rfl

/-- One call changes what the row of a device shows exactly if it stores an update of this device. -/
theorem store_look (h : Relational db durable opened) (id : String) (context : LogContext) (u : MarkerUpdate)
    (s : State σ) :
    ((durable (store db context u s).1.database).device? id).map (·.look) =
      if (store db context u s).2 = none ∧ u.marker.deviceId = id then some (broughtBy u)
      else ((durable s.database).device? id).map (·.look) := by
  obtain ⟨hok, hfailed⟩ := store_tables h context u s
  by_cases hn : (store db context u s).2 = none
  · obtain ⟨number, he⟩ := hok hn
    rw [he]
    by_cases hid : u.marker.deviceId = id
    · rw [if_pos ⟨hn, hid⟩, ← hid, ← dated_deviceId]
      exact Tables.look_stored _ number (dated u)
    · have hne : id ≠ (dated u).marker.deviceId := by
        rw [dated_deviceId]
        exact Ne.symm hid
      rw [if_neg (fun hboth => hid hboth.2), Tables.device?_stored_of_ne _ number (dated u) hne]
  · rw [if_neg (fun hboth => hn hboth.1), hfailed hn]

/-- After a run the row shows the last update that was stored, or what it showed before. -/
theorem storeAll_look (h : Relational db durable opened) (id : String) (calls : List (LogContext × MarkerUpdate))
    (s : State σ) :
    ((durable (storeAll db s calls).database).device? id).map (·.look) =
      ((storedOf db id s calls).getLast?.map broughtBy).or (((durable s.database).device? id).map (·.look)) := by
  induction calls generalizing s with
  | nil => rfl
  | cons call rest ih =>
    obtain ⟨context, u⟩ := call
    rw [storeAll_cons, ih, store_look h, storedOf]
    split_ifs
    · rw [List.getLast?_cons]
      cases (storedOf db id (store db context u s).1 rest).getLast? <;> rfl
    · rfl

/-- Updates of one device that are all stored leave the state of the one that was stored last. So the row
shows the latest one exactly when that was stored last, and two orders of storing agree
exactly when they end with the same update. -/
theorem row_shows_last_stored (h : Relational db durable opened) (id : String) (s : State σ)
    (calls : List (LogContext × MarkerUpdate)) (hsome : storedOf db id s calls ≠ [])
    (hdistinct : ((storedOf db id s calls).map timeOf).Nodup) :
    let stored := storedOf db id s calls
    let shown := ((durable (storeAll db s calls).database).device? id).map (·.look)
    shown = stored.getLast?.map broughtBy ∧
    (∀ u ∈ stored, shown = some (broughtBy u) ↔ stored.getLast? = some u) ∧
    (stored.Pairwise (fun u v => timeOf u < timeOf v) →
      ∃ look, shown = some look ∧ ∀ u ∈ stored, timeOf u ≤ look.updatedAt.totalNanos) ∧
    (∀ s' calls', (storedOf db id s' calls').Perm stored →
      (((durable (storeAll db s' calls').database).device? id).map (·.look) = shown ↔
        (storedOf db id s' calls').getLast? = stored.getLast?)) := by
  intro stored shown
  -- Times tell the updates apart, so what is shown names the update it came from.
  have hinjective {u v : MarkerUpdate} (hu : u ∈ stored) (hv : v ∈ stored) (he : broughtBy u = broughtBy v) : u = v :=
    List.inj_on_of_nodup_map hdistinct hu hv (congrArg (·.updatedAt.totalNanos) he)
  have hlast : stored.getLast? = some (stored.getLast hsome) := List.getLast?_eq_some_getLast hsome
  have hmem := List.getLast_mem hsome
  have hshown : shown = some (broughtBy (stored.getLast hsome)) := by
    have hrun := storeAll_look h id calls s
    rwa [hlast] at hrun
  refine ⟨by rw [hshown, hlast]; rfl, fun u hu => ?_, fun hordered => ?_, fun s' calls' hperm => ?_⟩
  · rw [hshown, hlast, Option.some_inj, Option.some_inj]
    exact ⟨hinjective hmem hu, congrArg broughtBy⟩
  · refine ⟨_, hshown, fun u hu => ?_⟩
    have hordered' : stored.Pairwise (fun u v => timeOf u ≤ timeOf v) := hordered.imp Int.le_of_lt
    exact hordered'.rel_getLast_of_rel_getLast_getLast hu (Int.le_refl _)
  · have hsome' : storedOf db id s' calls' ≠ [] := fun hnil => hsome (List.nil_perm.mp (hnil ▸ hperm))
    have hlast' := List.getLast?_eq_some_getLast hsome'
    have hmem' := hperm.mem_iff.mp (List.getLast_mem hsome')
    rw [storeAll_look h, hlast', hshown, hlast]
    simp only [Option.map_some, Option.some_or, Option.some_inj]
    exact ⟨hinjective hmem' hmem, congrArg broughtBy⟩

end

def earlierUpdate : MarkerUpdate := { marker := { deviceId := "a", color := "#00ff00", updatedAt := ⟨1, 0, 0⟩ } }

def laterUpdate : MarkerUpdate := { marker := { deviceId := "a", color := "#ff0000", updatedAt := ⟨2, 0, 0⟩ } }

/-- The first statement that comes fails. -/
def stumblingEngine : State Engine := ⟨{ troubles := [some .upsert] }, {}⟩

/-- The earlier update is given back to the queue and comes again after the later one. -/
def redelivered : List (LogContext × MarkerUpdate) := [({}, earlierUpdate), ({}, laterUpdate), ({}, earlierUpdate)]

theorem row_shows_last_stored_redelivered :
    (Relational Engine.database Engine.durable Engine.opened ∧
      storedOf Engine.database "a" stumblingEngine redelivered ≠ [] ∧
      ((storedOf Engine.database "a" stumblingEngine redelivered).map timeOf).Nodup) ∧
    ((storeAll Engine.database stumblingEngine redelivered).database.durable.device? "a").map (·.look) =
      some (broughtBy earlierUpdate) := by
  have hstored : storedOf Engine.database "a" stumblingEngine redelivered = [laterUpdate, earlierUpdate] := rfl
  have hsome : storedOf Engine.database "a" stumblingEngine redelivered ≠ [] := by simp [hstored]
  have hdistinct : ((storedOf Engine.database "a" stumblingEngine redelivered).map timeOf).Nodup := by
    rw [hstored]
    decide
  have h := row_shows_last_stored Engine.database_relational "a" stumblingEngine redelivered hsome hdistinct
  exact ⟨⟨Engine.database_relational, hsome, hdistinct⟩, h.1⟩

/-- The same two updates are stored in both runs, and the rows differ: the second run leaves the earlier
one, which was to be tried again. -/
theorem stale_row_after_redelivery :
    timeOf earlierUpdate < timeOf laterUpdate ∧
    ((storeAll Engine.database ⟨{}, {}⟩ [({}, earlierUpdate), ({}, laterUpdate)]).database.durable.device? "a").map
      (fun d => (d.color, d.updatedAt)) = some ("#ff0000", ⟨2, 0, 0⟩) ∧
    Queue.settlementOf (store Engine.database {} earlierUpdate stumblingEngine).2 = .rejected true ∧
    ((storeAll Engine.database stumblingEngine redelivered).database.durable.device? "a").map
      (fun d => (d.color, d.updatedAt)) = some ("#00ff00", ⟨1, 0, 0⟩) := by
  decide

end BinFleet.Archive
