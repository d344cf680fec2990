import BinFleet.Proofs.Archive.Settlement
import Mathlib.Data.List.Nodup

namespace BinFleet.Archive

/-- The rows of devices and of readings. -/
structure Tables where
  devices : List ArchivedDevice := []
  readings : List ArchivedReading := []

namespace Tables

def device? (t : Tables) (id : String) : Option ArchivedDevice := t.devices.find? (·.deviceId = id)

/-- How many readings of a device there are. -/
def count (t : Tables) (id : String) : Nat := t.readings.countP (·.reading.id = id)

/-- The row of a device that was not there. -/
def newDevice (m : Marker) : ArchivedDevice :=
  ⟨m.deviceId, m.position, m.percent, m.color, 1, m.updatedAt, m.updatedAt⟩

/-- The row of a device that was there: all but its id and the time it was first seen is replaced,
and one more reading is counted. -/
def refreshed (m : Marker) (d : ArchivedDevice) : ArchivedDevice :=
  { d with
    position := m.position, percent := m.percent, color := m.color
    readingsCount := d.readingsCount + 1, updatedAt := m.updatedAt }

def place (m : Marker) : List ArchivedDevice → List ArchivedDevice
  | [] => [newDevice m]
  | d :: rest => if d.deviceId = m.deviceId then refreshed m d :: rest else d :: place m rest

/-- The row of a reading, under the device that its marker names. -/
def row (number : Int) (u : MarkerUpdate) : ArchivedReading :=
  ⟨number, { u.reading with id := u.marker.deviceId }, u.marker.percent, u.marker.color, u.marker.position⟩

/-- The effect of the statement for a marker. -/
def upsert (m : Marker) (t : Tables) : Tables := { t with devices := place m t.devices }

/-- The effect of the statement for a reading, which gets this number. -/
def append (number : Int) (u : MarkerUpdate) (t : Tables) : Tables :=
  { t with readings := t.readings ++ [row number u] }

/-- Devices have one row each and count their readings, and there are no readings without a device. -/
structure Consistent (t : Tables) : Prop where
  unique : (t.devices.map (·.deviceId)).Nodup
  counted : ∀ d ∈ t.devices, d.readingsCount = t.count d.deviceId
  owned : ∀ r ∈ t.readings, (t.device? r.reading.id).isSome

theorem empty_consistent : Consistent {} := ⟨List.nodup_nil, by simp, by simp⟩

section

variable (m : Marker)

theorem find?_place_self (l : List ArchivedDevice) :
    (place m l).find? (·.deviceId = m.deviceId) =
      some (((l.find? (·.deviceId = m.deviceId)).map (refreshed m)).getD (newDevice m)) := by
  induction l with
  | nil => simp [place, newDevice]
  | cons d rest ih =>
    by_cases h : d.deviceId = m.deviceId
    · simp [place, h, refreshed]
    · simpa [place, h] using ih

theorem find?_place_of_ne {id : String} (h : id ≠ m.deviceId) (l : List ArchivedDevice) :
    (place m l).find? (·.deviceId = id) = l.find? (·.deviceId = id) := by
  induction l with
  | nil => simp [place, newDevice, h.symm]
  | cons d rest ih =>
    by_cases hd : d.deviceId = m.deviceId
    · simp [place, hd, refreshed, h.symm]
    · simp only [place, if_neg hd, List.find?_cons, ih]

/-- Only the device of the marker gets a row, and only if it had none. -/
theorem ids_place (l : List ArchivedDevice) :
    (place m l).map (·.deviceId) =
      if m.deviceId ∈ l.map (·.deviceId) then l.map (·.deviceId) else l.map (·.deviceId) ++ [m.deviceId] := by
  induction l with
  | nil => simp [place, newDevice]
  | cons d rest ih =>
    by_cases h : d.deviceId = m.deviceId
    · simp [place, h, refreshed]
    · simp only [place, if_neg h, List.map_cons, ih, List.mem_cons, Ne.symm h, false_or]
      split_ifs <;> rfl

theorem mem_place {d : ArchivedDevice} {l : List ArchivedDevice} (hu : (l.map (·.deviceId)).Nodup)
    (h : d ∈ place m l) :
    (d ∈ l ∧ d.deviceId ≠ m.deviceId) ∨
      d = ((l.find? (·.deviceId = m.deviceId)).map (refreshed m)).getD (newDevice m) := by
  induction l with
  | nil =>
    right
    simpa [place] using h
  | cons e rest ih =>
    obtain ⟨hnot, hrest⟩ := List.nodup_cons.mp hu
    by_cases he : e.deviceId = m.deviceId
    · rw [place, if_pos he] at h
      rcases List.mem_cons.mp h with rfl | h
      · right
        simp [he]
      · left
        refine ⟨List.mem_cons_of_mem _ h, fun hd => hnot ?_⟩
        exact List.mem_map.mpr ⟨d, h, hd.trans he.symm⟩
    · rw [place, if_neg he] at h
      rcases List.mem_cons.mp h with rfl | h
      · exact .inl ⟨List.mem_cons_self, he⟩
      · rcases ih hrest h with ⟨hd, hne⟩ | hd
        · exact .inl ⟨List.mem_cons_of_mem _ hd, hne⟩
        · right
          simpa [he] using hd

end

section

variable (t : Tables) (number : Int) (u : MarkerUpdate)

/-- The tables after an update was stored: one reading more, and the row of its device. -/
def stored : Tables := (t.upsert u.marker).append number u

theorem device?_stored_self : (t.stored number u).device? u.marker.deviceId =
    some (((t.device? u.marker.deviceId).map (refreshed u.marker)).getD (newDevice u.marker)) :=
  find?_place_self _ _

theorem device?_stored_of_ne {id : String} (h : id ≠ u.marker.deviceId) :
    (t.stored number u).device? id = t.device? id :=
  find?_place_of_ne _ h _

theorem count_stored (id : String) :
    (t.stored number u).count id = t.count id + if id = u.marker.deviceId then 1 else 0 := by
  by_cases h : id = u.marker.deviceId
  · simp [count, stored, append, upsert, row, h]
  · simp [count, stored, append, upsert, row, h, Ne.symm h]

end

section

variable {t : Tables} (h : t.Consistent)

include h

/-- A device without a row has no readings. -/
theorem Consistent.count_eq_zero {id : String} (hid : t.device? id = none) : t.count id = 0 := by
  refine List.countP_eq_zero.mpr fun r hr hrid => ?_
  have howned := h.owned r hr
  rw [of_decide_eq_true hrid, hid] at howned
  exact Bool.false_ne_true howned

theorem Consistent.count_device {id : String} {d : ArchivedDevice} (hd : t.device? id = some d) :
    d.deviceId = id ∧ d.readingsCount = t.count id := by
  have hid : d.deviceId = id := by simpa using List.find?_some hd
  exact ⟨hid, hid ▸ h.counted d (List.mem_of_find?_eq_some hd)⟩

/-- The counter of the updated device is one more than before, or one. -/
theorem Consistent.count_updated (u : MarkerUpdate) :
    (((t.device? u.marker.deviceId).map (refreshed u.marker)).getD (newDevice u.marker)).readingsCount =
      t.count u.marker.deviceId + 1 := by
  cases hd : t.device? u.marker.deviceId with
  | none => simp [newDevice, h.count_eq_zero hd]
  | some d => simp [refreshed, (h.count_device hd).2]

theorem Consistent.stored (number : Int) (u : MarkerUpdate) : (t.stored number u).Consistent := by
  refine ⟨?_, fun d hd => ?_, fun r hr => ?_⟩
  · change ((place u.marker t.devices).map (·.deviceId)).Nodup
    rw [ids_place]
    split_ifs with hm
    · exact h.unique
    · exact List.nodup_append.mpr ⟨h.unique, List.nodup_singleton _, by
        rintro a ha b hb rfl
        exact hm (List.mem_singleton.mp hb ▸ ha)⟩
  · rw [count_stored]
    rcases mem_place u.marker h.unique hd with ⟨hold, hne⟩ | hnew
    · simp [hne, h.counted d hold]
    · have hself : some d = (t.stored number u).device? u.marker.deviceId := by
        rw [device?_stored_self, hnew]
        rfl
      have hid : d.deviceId = u.marker.deviceId := by simpa using List.find?_some hself.symm
      have hcount : d.readingsCount = t.count u.marker.deviceId + 1 := by
        rw [hnew]
        exact h.count_updated u
      simp [hid, hcount]
  · by_cases hid : r.reading.id = u.marker.deviceId
    · simp [hid, device?_stored_self]
    · rw [device?_stored_of_ne t number u hid]
      rcases List.mem_append.mp hr with hr | hr
      · exact h.owned r hr
      · cases List.mem_singleton.mp hr
        exact absurd rfl hid

/-- The statement for a marker alone counts a reading that is not there. -/
theorem Consistent.not_upsert (u : MarkerUpdate) : ¬ (t.upsert u.marker).Consistent := by
  intro hupsert
  have hself : (t.upsert u.marker).device? u.marker.deviceId =
      some (((t.device? u.marker.deviceId).map (refreshed u.marker)).getD (newDevice u.marker)) :=
    find?_place_self _ _
  have hcounted := (hupsert.count_device hself).2
  have hreadings : (t.upsert u.marker).count u.marker.deviceId = t.count u.marker.deviceId := rfl
  rw [h.count_updated u, hreadings] at hcounted
  omega

end

end Tables

/-- What is relied on of a database, of which `durable` gives the tables that last and `opened` those
that an open transaction sees: a statement that runs in the open transaction has its effect there if it
succeeds and never on the tables that last, a commit that succeeds makes the tables of the transaction
last, and one that fails or a rollback leaves the tables that last as they are. Nothing is said of
statements on the pool. -/
structure Relational {σ : Type} (db : Database σ) (durable : σ → Tables) (opened : σ → Option Tables) :
    Prop where
  start (d : σ) : durable (db.start false d).1 = durable d
  started {d : σ} (h : (db.start false d).2 = none) : opened (db.start false d).1 = some (durable d)
  execute (m : Marker) {d : σ} {t : Tables} (ht : opened d = some t) :
    durable (db.execute .transaction (.upsertDevice m) d).1 = durable d
  executed {m : Marker} {d : σ} {t : Tables} (ht : opened d = some t)
    (h : (db.execute .transaction (.upsertDevice m) d).2 = none) :
    opened (db.execute .transaction (.upsertDevice m) d).1 = some (t.upsert m)
  insert (u : MarkerUpdate) {d : σ} {t : Tables} (ht : opened d = some t) :
    durable (db.insert .transaction (.insertReading u) d).1 = durable d
  inserted {u : MarkerUpdate} {d : σ} {t : Tables} {number : Int} (ht : opened d = some t)
    (h : (db.insert .transaction (.insertReading u) d).2 = .ok number) :
    opened (db.insert .transaction (.insertReading u) d).1 = some (t.append number u)
  committed {d : σ} {t : Tables} (ht : opened d = some t) (h : (db.commit d).2 = none) :
    durable (db.commit d).1 = t
  uncommitted {d : σ} (h : (db.commit d).2 ≠ none) : durable (db.commit d).1 = durable d
  rollback (d : σ) : durable (db.rollback d).1 = durable d

section

variable {σ : Type} {db : Database σ} {durable : σ → Tables} {opened : σ → Option Tables}

/-- An attempt stores its update as a whole, or leaves the tables as they were. -/
theorem attempt_tables (h : Relational db durable opened) (u : MarkerUpdate) (d : σ) :
    ((attempt db u d).2 = none → ∃ number, durable (attempt db u d).1 = (durable d).stored number u) ∧
    ((attempt db u d).2 ≠ none → durable (attempt db u d).1 = durable d) := by
  have hstart := h.start d
  have hstarted := h.started (d := d)
  rcases he₁ : db.start false d with ⟨d₁, _ | why⟩ <;> rw [he₁] at hstart hstarted
  · have hexecute := h.execute u.marker (hstarted rfl)
    have hexecuted := h.executed (m := u.marker) (hstarted rfl)
    rcases he₂ : db.execute .transaction (.upsertDevice u.marker) d₁ with ⟨d₂, _ | why⟩ <;>
      rw [he₂] at hexecute hexecuted
    · have hinsert := h.insert u (hexecuted rfl)
      rcases he₃ : db.insert .transaction (.insertReading u) d₂ with ⟨d₃, why | number⟩ <;> rw [he₃] at hinsert
      · simp [attempt, he₁, he₂, he₃, h.rollback, hinsert, hexecute, hstart]
      · have hinserted := h.inserted (u := u) (hexecuted rfl) (by rw [he₃])
        rw [he₃] at hinserted
        have hcommitted := h.committed hinserted
        have huncommitted := h.uncommitted (d := d₃)
        rcases he₄ : db.commit d₃ with ⟨d₄, _ | why⟩ <;> rw [he₄] at hcommitted huncommitted
        · have hlast : durable d₄ = (durable d).stored number u := hcommitted rfl
          simpa [attempt, he₁, he₂, he₃, he₄] using ⟨number, hlast⟩
        · have hlast : durable d₄ = durable d₃ := huncommitted (by simp)
          simp [attempt, he₁, he₂, he₃, he₄, hlast, hinsert, hexecute, hstart]
    · simp [attempt, he₁, he₂, h.rollback, hexecute, hstart]
  · simp [attempt, he₁, hstart]

/-- An update that was stored is in the tables, and one that was not left no trace there. -/
theorem store_tables (h : Relational db durable opened) (context : LogContext) (u : MarkerUpdate) (s : State σ) :
    ((store db context u s).2 = none → ∃ number,
      durable (store db context u s).1.database = (durable s.database).stored number (dated u)) ∧
    ((store db context u s).2 ≠ none → durable (store db context u s).1.database = durable s.database) := by
  by_cases hid : Text.trim u.marker.deviceId = ""
  · simp [store, hid]
  · obtain ⟨hdb, hr⟩ := store_attempt db context u s hid
    obtain ⟨hok, hfailed⟩ := attempt_tables h (dated u) s.database
    rw [hdb]
    generalize hfirst : (attempt db (dated u) s.database).2 = first at hr hok hfailed
    generalize (store db context u s).2 = told at hr ⊢
    cases hr with
    | stored => exact ⟨fun _ => hok rfl, fun hne => absurd rfl hne⟩
    | failed _ =>
      refine ⟨fun hnone => ?_, fun _ => hfailed (by simp)⟩
      cases hnone

@[simp] theorem dated_deviceId (u : MarkerUpdate) : (dated u).marker.deviceId = u.marker.deviceId := by
  unfold dated
  split_ifs <;> rfl

/-- The time of a marker is no part of the row of its reading. -/
@[simp] theorem row_dated (number : Int) (u : MarkerUpdate) : Tables.row number (dated u) = Tables.row number u := by
  unfold dated
  split_ifs <;> rfl

end

/-- What storing an update did to the tables, given the failure that was told. -/
structure AllOrNothing (before after : Tables) (u : MarkerUpdate) (failure : Option Fault) : Prop where
  failed (h : failure ≠ none) : after = before
  reading (h : failure = none) : ∃ number, after.readings = before.readings ++ [Tables.row number u]
  counter (h : failure = none) : ∃ d, after.device? u.marker.deviceId = some d ∧
    d.readingsCount = ((before.device? u.marker.deviceId).map (·.readingsCount)).getD 0 + 1
  others (h : failure = none) (id : String) (hid : id ≠ u.marker.deviceId) : after.device? id = before.device? id
  firstSeen (id : String) (d : ArchivedDevice) (h : before.device? id = some d) :
    ∃ d', after.device? id = some d' ∧ d'.firstSeenAt = d.firstSeenAt

section

variable {σ : Type} {db : Database σ} {durable : σ → Tables} {opened : σ → Option Tables}

theorem store_allOrNothing (h : Relational db durable opened) (context : LogContext) (u : MarkerUpdate)
    (s : State σ) :
    AllOrNothing (durable s.database) (durable (store db context u s).1.database) u (store db context u s).2 := by
  obtain ⟨hok, hfailed⟩ := store_tables h context u s
  generalize durable s.database = before at hok hfailed ⊢
  generalize durable (store db context u s).1.database = after at hok hfailed ⊢
  have hself (number : Int) := before.device?_stored_self number (dated u)
  have hothers (number : Int) (id : String) (hid : id ≠ (dated u).marker.deviceId) :=
    before.device?_stored_of_ne number (dated u) hid
  simp only [dated_deviceId] at hself hothers
  refine ⟨hfailed, fun hn => ?_, fun hn => ?_, fun hn id hid => ?_, fun id d hd => ?_⟩
  · obtain ⟨number, rfl⟩ := hok hn
    exact ⟨number, by simp [Tables.stored, Tables.append, Tables.upsert]⟩
  · obtain ⟨number, rfl⟩ := hok hn
    refine ⟨_, hself number, ?_⟩
    cases before.device? u.marker.deviceId <;> simp [Tables.newDevice, Tables.refreshed]
  · obtain ⟨number, rfl⟩ := hok hn
    exact hothers number id hid
  · by_cases hn : (store db context u s).2 = none
    · obtain ⟨number, rfl⟩ := hok hn
      by_cases hid : id = u.marker.deviceId
      · subst hid
        exact ⟨_, hself number, by simp [hd, Tables.refreshed]⟩
      · exact ⟨d, by rw [hothers number id hid, hd], rfl⟩
    · exact ⟨d, by rw [hfailed hn, hd], rfl⟩

theorem store_consistent (h : Relational db durable opened) (context : LogContext) (u : MarkerUpdate)
    (s : State σ) (hc : (durable s.database).Consistent) :
    (durable (store db context u s).1.database).Consistent := by
  obtain ⟨hok, hfailed⟩ := store_tables h context u s
  by_cases hn : (store db context u s).2 = none
  · obtain ⟨number, he⟩ := hok hn
    rw [he]
    exact hc.stored number (dated u)
  · rw [hfailed hn]
    exact hc

end

/-- One update after the other, each in its log context. -/
def storeAll {σ : Type} (db : Database σ) (s : State σ) (updates : List (LogContext × MarkerUpdate)) : State σ :=
  updates.foldl (fun s (context, u) => (store db context u s).1) s

section

variable {σ : Type} {db : Database σ} {durable : σ → Tables} {opened : σ → Option Tables}

theorem storeAll_consistent (h : Relational db durable opened) (updates : List (LogContext × MarkerUpdate))
    (s : State σ) (hc : (durable s.database).Consistent) :
    (durable (storeAll db s updates).database).Consistent := by
  induction updates generalizing s with
  | nil => exact hc
  | cons call rest ih => exact ih _ (store_consistent h call.1 call.2 s hc)

theorem storeAll_firstSeen (h : Relational db durable opened) (updates : List (LogContext × MarkerUpdate))
    (s : State σ) {id : String} {d : ArchivedDevice} (hd : (durable s.database).device? id = some d) :
    ∃ d', (durable (storeAll db s updates).database).device? id = some d' ∧ d'.firstSeenAt = d.firstSeenAt := by
  induction updates generalizing s d with
  | nil => exact ⟨d, hd, rfl⟩
  | cons call rest ih =>
    obtain ⟨d₁, hd₁, hf₁⟩ := (store_allOrNothing h call.1 call.2 s).firstSeen id d hd
    obtain ⟨d₂, hd₂, hf₂⟩ := ih _ hd₁
    exact ⟨d₂, hd₂, hf₂.trans hf₁⟩

/-- After every call of a run the counters agree with the readings and no reading lacks its device;
each call stored its update as a whole or changed nothing, and devices keep the time they were first seen. -/
theorem archive_consistent_over_runs (h : Relational db durable opened) (s : State σ)
    (hc : (durable s.database).Consistent) (updates : List (LogContext × MarkerUpdate)) :
    (∀ i, (durable (storeAll db s (updates.take i)).database).Consistent) ∧
    (∀ i context u, updates[i]? = some (context, u) →
      AllOrNothing (durable (storeAll db s (updates.take i)).database)
        (durable (storeAll db s (updates.take (i + 1))).database) u
        (store db context u (storeAll db s (updates.take i))).2) ∧
    ∀ i j id d, i ≤ j → (durable (storeAll db s (updates.take i)).database).device? id = some d →
      ∃ d', (durable (storeAll db s (updates.take j)).database).device? id = some d' ∧
        d'.firstSeenAt = d.firstSeenAt := by
  refine ⟨fun i => storeAll_consistent h _ s hc, fun i context u hi => ?_, fun i j id d hij hd => ?_⟩
  · have hstep : storeAll db s (updates.take (i + 1)) = (store db context u (storeAll db s (updates.take i))).1 := by
      simp [storeAll, List.take_add_one, hi]
    rw [hstep]
    exact store_allOrNothing h context u _
  · have hsplit : updates.take j = updates.take i ++ (updates.take j).drop i := by
      have hcut := List.take_append_drop i (updates.take j)
      rwa [List.take_take, Nat.min_eq_left hij, eq_comm] at hcut
    rw [hsplit, storeAll, List.foldl_append]
    exact storeAll_firstSeen h _ _ hd

end

/-- A database in memory, in which coming transactions fail as planned. -/
structure Engine where
  durable : Tables := {}
  opened : Option Tables := none
  next : Int := 1
  /-- Where each coming transaction fails, if it does. -/
  troubles : List (Option Stage) := []

namespace Engine

def failure? (e : Engine) (stage : Stage) : Option Fault :=
  if e.troubles.head? = some (some stage) then some (.other "broken pipe") else none

/-- The end of a transaction, with the tables that last after it. -/
def ended (e : Engine) (durable : Tables) : Engine :=
  { e with durable, opened := none, troubles := e.troubles.tail }

def start (e : Engine) : Engine × Option Fault :=
  match e.failure? .start with
  | some f => (e.ended e.durable, some f)
  | none => ({ e with opened := some e.durable }, none)

/-- The tables that a statement finds on its route. -/
def found (e : Engine) : Route → Option Tables
  | .transaction => e.opened
  | .pool => some e.durable

/-- The tables that a statement leaves on its route; on the pool they last at once. -/
def left (e : Engine) (t : Tables) : Route → Engine
  | .transaction => { e with opened := some t }
  | .pool => { e with durable := t }

def run (route : Route) (s : Statement) (e : Engine) : Engine × Option Fault :=
  match s, e.found route with
  | .upsertDevice m, some t =>
    match e.failure? .upsert with
    | some f => (e, some f)
    | none => (e.left (t.upsert m) route, none)
  | .insertReading u, some t =>
    match e.failure? .insert with
    | some f => (e, some f)
    | none => ({ e.left (t.append e.next u) route with next := e.next + 1 }, none)
  | _, _ => (e, some (.other "no transaction"))

def commit (e : Engine) : Engine × Option Fault :=
  match e.opened, e.failure? .commit with
  | some t, none => (e.ended t, none)
  | _, _ => (e.ended e.durable, some (.other "broken pipe"))

def listReadings (t : Tables) : Statement → List ArchivedReading
  | .listReadings id limit => ((t.readings.filter (·.reading.id = id)).reverse.take limit.toNat).reverse
  | _ => []

def database : Database Engine where
  start _ := start
  commit := commit
  rollback e := (e.ended e.durable, some (.other "broken pipe"))
  execute := run
  insert route s e :=
    match run route s e with
    | (e', none) => (e', .ok e.next)
    | (e', some f) => (e', .error f)
  find route s e :=
    match s, e.found route with
    | .findDevice id, some t => (e, .ok (t.device? id).isSome)
    | _, _ => (e, .error (.other "no query"))
  devices route _ e := (e, .ok ⟨((e.found route).getD {}).devices.map .ok, none⟩)
  readings route s e := (e, .ok ⟨(listReadings ((e.found route).getD {}) s).map .ok, none⟩)
  closeRows e := e

/-- What runs in a transaction does not last by itself. -/
theorem run_durable (s : Statement) (e : Engine) : (run .transaction s e).1.durable = e.durable := by
  unfold run
  split
  · cases e.failure? .upsert <;> rfl
  · cases e.failure? .insert <;> rfl
  · rfl

theorem database_relational : Relational database Engine.durable Engine.opened where
  start e := by
    change (start e).1.durable = e.durable
    unfold start
    cases e.failure? .start <;> rfl
  started {e} h := by
    change (start e).2 = none at h
    change (start e).1.opened = some e.durable
    unfold start at h ⊢
    cases hf : e.failure? .start <;> simp_all
  execute m e _ _ := run_durable _ e
  executed {m e t} ht h := by
    change (run .transaction (.upsertDevice m) e).2 = none at h
    change (run .transaction (.upsertDevice m) e).1.opened = some (t.upsert m)
    cases hf : e.failure? .upsert <;> simp_all [run, found, left]
  insert u e _ _ := by
    have hd := run_durable (.insertReading u) e
    rcases hr : run .transaction (.insertReading u) e with ⟨e', _ | f⟩ <;> simpa [database, hr] using hd
  inserted {u e t number} ht h := by
    cases hf : e.failure? .insert <;> simp_all [database, run, found, left]
  committed {e t} ht h := by
    change (commit e).2 = none at h
    change (commit e).1.durable = t
    cases hf : e.failure? .commit <;> simp_all [commit, ended]
  uncommitted {e} h := by
    change (commit e).2 ≠ none at h
    change (commit e).1.durable = e.durable
    unfold commit at h ⊢
    cases ho : e.opened <;> cases hf : e.failure? .commit <;> simp_all [ended]
  rollback e := rfl

/-- On the pool the two statements of an update are not one: when the second fails, the first one lasts. -/
theorem storing_pool_not_consistent (context : LogContext) (u : MarkerUpdate) (e : Engine) (j : Journal)
    (hc : e.durable.Consistent) {f : Fault} (hf : e.failure? .insert = some f) :
    ¬ (storing database context u .nothing ⟨e, j⟩).1.database.durable.Consistent := by
  have hupsert : e.failure? .upsert = none := by
    unfold failure? at hf ⊢
    split_ifs at hf with hinsert
    simp [hinsert]
  have hfirst : run .pool (.upsertDevice u.marker) e = (e.left (e.durable.upsert u.marker) .pool, none) := by
    simp only [run, found, hupsert]
  have hsecond : run .pool (.insertReading u) (e.left (e.durable.upsert u.marker) .pool) =
      (e.left (e.durable.upsert u.marker) .pool, some f) := by
    have hf' : (e.left (e.durable.upsert u.marker) .pool).failure? .insert = some f := hf
    simp only [run, found, hf']
  simp only [storing, State.upsertDevice, State.insertReading, Carried.route, database, hfirst, hsecond,
    observed_ok, observed_error]
  exact hc.not_upsert u

end Engine

/-- Four updates of which the second fails in its second statement and the third at its end. -/
def troubledUpdates : List (LogContext × MarkerUpdate) :=
  ["a", "a", "b", "a"].map fun id => ({}, { marker := { deviceId := id }, reading := { id } })

def troubledEngine : State Engine :=
  ⟨{ troubles := [none, some .insert, some .commit, none] }, {}⟩

theorem archive_consistent_over_troubled_run :
    (Relational Engine.database Engine.durable Engine.opened ∧ troubledEngine.database.durable.Consistent) ∧
    ((storeAll Engine.database troubledEngine troubledUpdates).database.durable.Consistent ∧
      (storeAll Engine.database troubledEngine (troubledUpdates.take 2)).database.durable =
        (storeAll Engine.database troubledEngine (troubledUpdates.take 1)).database.durable) ∧
    (storeAll Engine.database troubledEngine troubledUpdates).database.durable.devices.map
      (fun d => (d.deviceId, d.readingsCount)) = [("a", 2)] := by
  have h := archive_consistent_over_runs Engine.database_relational troubledEngine
    Tables.empty_consistent troubledUpdates
  refine ⟨⟨Engine.database_relational, Tables.empty_consistent⟩, ⟨h.1 4, ?_⟩, rfl⟩
  exact (h.2.1 1 _ _ rfl).failed (by decide)

end BinFleet.Archive
