import BinFleet.Archive.Rehearsal
import BinFleet.Archive.Service
import BinFleet.Proofs.Fault

namespace BinFleet.Queue

/-- How a delivery is settled when its update was handled with this failure: it is given back exactly
for a failure of the database. -/
def settlementOf : Option Fault → Settlement
  | none => .acknowledged
  | some f => .rejected (f.has .databaseFailed)

/-- A readable delivery is settled by what its handler returns, and changes no more than that. -/
theorem handleDelivery_readable {σ : Type} (service : String) (handle : UpdateHandler σ)
    (context : LogContext) (d : Delivery) (j : Journal) (s : σ) (update : MarkerUpdate)
    (hbody : MarkerUpdate.ofBytes? d.body = some update) :
    let handled :=
      handle ((context.withRequestId d.correlationId).withDeviceId update.marker.deviceId) update j s
    (handleDelivery service handle context d j s).1 = handled.1 ∧
    (handleDelivery service handle context d j s).2.2 = settlementOf handled.2.2 := by
  simp only [handleDelivery, hbody]
  rcases handle ((context.withRequestId d.correlationId).withDeviceId update.marker.deviceId) update j s
    with ⟨s', j', _ | f⟩
  · cases d.ackFailure <;> exact ⟨rfl, rfl⟩
  · exact ⟨rfl, rfl⟩

end BinFleet.Queue

namespace BinFleet.Archive

/-- The places where the database can fail while an update is stored. -/
inductive Stage where
  | start
  | upsert
  | insert
  | commit
  deriving DecidableEq, Repr

/-- A failure of a statement is marked as one of the database, that of a transaction is not. -/
def Stage.marks : Stage → Bool
  | start => false
  | upsert => true
  | insert => true
  | commit => false

section

variable {σ : Type} (db : Database σ)

/-- What the database goes through for one update, and where it failed first. -/
def attempt (update : MarkerUpdate) (d : σ) : σ × Option (Stage × Fault) :=
  match db.start false d with
  | (d, some why) => (d, some (.start, why))
  | (d, none) =>
    match db.execute .transaction (.upsertDevice update.marker) d with
    | (d, some why) => ((db.rollback d).1, some (.upsert, why))
    | (d, none) =>
      match db.insert .transaction (.insertReading update) d with
      | (d, .error why) => ((db.rollback d).1, some (.insert, why))
      | (d, .ok _) =>
        match db.commit d with
        | (d, none) => (d, none)
        | (d, some why) => (d, some (.commit, why))

@[simp] theorem databaseFault_has (context : LogContext) (operation : String) (why : Fault) (c : Cause) :
    (databaseFault context operation why).has c = (decide (c = .databaseFailed) || why.has c) := by
  by_cases hc : c = .databaseFailed <;> simp [databaseFault, hc]

/-- Work that fails is rolled back; whether or not that works, its causes come out. -/
theorem settle_failure {α : Type} (t : Transactions σ) (s : σ) (failure : Fault) :
    ∃ f, settle (α := α) t (s, .returned (.error failure)) = ((t.rollback s).1, .returned (.error f)) ∧
      ∀ c, f.has c = failure.has c := by
  rcases hr : t.rollback s with ⟨s', _ | why⟩
  · exact ⟨failure, by simp [settle, hr], fun _ => rfl⟩
  · exact ⟨rollbackFault why failure, by simp [settle, hr], fun _ => rfl⟩

/-- The failure that is told after the first failure of the database: none for none, and otherwise one
with the same causes, to which the place may add that of the database. -/
inductive Reports : Option (Stage × Fault) → Option Fault → Prop where
  | stored : Reports none none
  | failed {stage : Stage} {why f : Fault}
      (h : ∀ c, f.has c = (stage.marks && decide (c = .databaseFailed) || why.has c)) :
      Reports (some (stage, why)) (some f)

/-- The failure in a result. -/
def failure? {α : Type} : Except Fault α → Option Fault
  | .ok _ => none
  | .error f => some f

/-- A statement that fails is rolled back and reported as a failure of the database. -/
theorem settle_statement (context : LogContext) (operation : String) (why : Fault) (stage : Stage)
    (hs : stage.marks = true) (s : State σ) :
    ∃ s' result, settle (State.transactions db)
        (s, .returned (.error (databaseFault context operation why) : Except Fault Int)) =
        (s', .returned result) ∧
      s'.database = (db.rollback s.database).1 ∧ Reports (some (stage, why)) (failure? result) := by
  obtain ⟨f, he, hf⟩ := settle_failure (α := Int) (State.transactions db) s
    (databaseFault context operation why)
  exact ⟨_, _, he, rfl, .failed fun c => by simp [hf, hs]⟩

section

variable {α : Type} (name operation : String) (context : LogContext) (j : Journal) (d : σ)

theorem observed_ok (a : α) : observed name operation context j (d, .ok a) =
    (⟨d, j.count (.databaseQueries serviceName name true)⟩, .ok a) := rfl

theorem observed_error (why : Fault) : observed name operation context j (d, (.error why : Except Fault α)) =
    (⟨d, j.count (.databaseQueries serviceName name false)⟩, .error (databaseFault context operation why)) := rfl

end

/-- One transaction for an update leaves the database as the attempt does and reports its first failure. -/
theorem within_storing (context : LogContext) (update : MarkerUpdate) (s : State σ) :
    ∃ s' result, within (State.transactions db) false (storing db context update) .nothing s =
        (s', .returned result) ∧
      s'.database = (attempt db update s.database).1 ∧
      Reports (attempt db update s.database).2 (failure? result) := by
  rcases hstart : db.start false s.database with ⟨d₁, _ | why⟩
  · rcases hexec : db.execute .transaction (.upsertDevice update.marker) d₁ with ⟨d₂, _ | why⟩
    · rcases hins : db.insert .transaction (.insertReading update) d₂ with ⟨d₃, why | id⟩
      · simp only [within, storing, attempt, State.transactions, State.upsertDevice, State.insertReading,
          Carried.route, observed_ok, observed_error, hstart, hexec, hins]
        exact settle_statement db _ _ why .insert rfl _
      · rcases hcommit : db.commit d₃ with ⟨d₄, _ | why⟩ <;>
          simp only [within, storing, attempt, settle, State.transactions, State.upsertDevice,
            State.insertReading, Carried.route, observed_ok, hstart, hexec, hins, hcommit]
        · exact ⟨_, _, rfl, rfl, .stored⟩
        · exact ⟨_, _, rfl, rfl, .failed fun _ => rfl⟩
    · simp only [within, storing, attempt, State.transactions, State.upsertDevice, Carried.route,
        observed_error, hstart, hexec]
      exact settle_statement db _ _ why .upsert rfl _
  · simp only [within, attempt, State.transactions, hstart]
    exact ⟨_, _, rfl, rfl, .failed fun _ => rfl⟩

/-- Storing an update that names its device. -/
theorem store_attempt (context : LogContext) (update : MarkerUpdate) (s : State σ)
    (hid : Text.trim update.marker.deviceId ≠ "") :
    (store db context update s).1.database = (attempt db (dated update) s.database).1 ∧
    Reports (attempt db (dated update) s.database).2 (store db context update s).2 := by
  obtain ⟨s', result, he, hd, hr⟩ := within_storing db
    ((context.withDeviceId update.marker.deviceId).withAction "archive_reading") (dated update) s
  simp only [store, if_neg hid, he]
  cases result with
  | ok id => exact ⟨hd, hr⟩
  | error f =>
    generalize (attempt db (dated update) s.database).2 = first at hr ⊢
    cases hr with
    | failed h => exact ⟨hd, .failed h⟩

/-- A failure that is told for another cause than the mark of the database was told by the database. -/
theorem Reports.blames {first : Option (Stage × Fault)} {f : Fault} (h : Reports first (some f)) {c : Cause}
    (hc : c ≠ .databaseFailed) (hf : f.has c = true) :
    ∃ stage why, first = some (stage, why) ∧ why.has c = true := by
  cases h with
  | @failed stage why f h => exact ⟨stage, why, rfl, by simpa [h, hc] using hf⟩

/-- Only a commit ends an attempt without a failure. -/
theorem attempt_committed {update : MarkerUpdate} {d : σ} (h : (attempt db update d).2 = none) :
    ∃ d', db.commit d' = ((attempt db update d).1, none) := by
  rcases hstart : db.start false d with ⟨d₁, _ | why⟩
  · rcases hexec : db.execute .transaction (.upsertDevice update.marker) d₁ with ⟨d₂, _ | why⟩
    · rcases hins : db.insert .transaction (.insertReading update) d₂ with ⟨d₃, why | id⟩
      · simp [attempt, hstart, hexec, hins] at h
      · rcases hcommit : db.commit d₃ with ⟨d₄, _ | why⟩
        · exact ⟨d₃, by simp [attempt, hstart, hexec, hins, hcommit]⟩
        · simp [attempt, hstart, hexec, hins, hcommit] at h
    · simp [attempt, hstart, hexec] at h
  · simp [attempt, hstart] at h

/-- The first failure decides the settlement. -/
theorem Reports.settlement {first : Option (Stage × Fault)} {told : Option Fault} (h : Reports first told) :
    (Queue.settlementOf told = .acknowledged ↔ first = none) ∧
    (Queue.settlementOf told = .rejected true ↔ ∃ stage why, first = some (stage, why) ∧
      (stage = .upsert ∨ stage = .insert ∨ why.has .databaseFailed = true)) ∧
    (Queue.settlementOf told = .rejected false ↔ ∃ stage why, first = some (stage, why) ∧
      (stage = .start ∨ stage = .commit) ∧ why.has .databaseFailed = false) := by
  cases h with
  | stored => simp [Queue.settlementOf]
  | @failed stage why f h =>
    cases stage <;> simp [Queue.settlementOf, h, Stage.marks, and_assoc]

theorem storeHandler_apply (context : LogContext) (update : MarkerUpdate) (j : Journal) (d : σ) :
    storeHandler db context update j d =
      ((store db context update ⟨d, j⟩).1.database, (store db context update ⟨d, j⟩).1.journal,
        (store db context update ⟨d, j⟩).2) := by
  unfold storeHandler
  rcases store db context update ⟨d, j⟩ with ⟨s, f⟩
  rfl

/-- A delivery that names its device is acknowledged after a commit and given back when a statement
failed first. When the transaction could not be started or committed, it is given back only if
that failure was marked by the database itself, and is lost otherwise. -/
theorem delivery_settlement (service : String) (context : LogContext) (d : Queue.Delivery) (j : Journal)
    (s : σ) (update : MarkerUpdate) (hbody : MarkerUpdate.ofBytes? d.body = some update)
    (hid : Text.trim update.marker.deviceId ≠ "") :
    let first := (attempt db (dated update) s).2
    let settled := Queue.handleDelivery service (storeHandler db) context d j s
    (settled.2.2 = .acknowledged ↔ first = none) ∧
    (settled.2.2 = .acknowledged → ∃ s', db.commit s' = (settled.1, none)) ∧
    (settled.2.2 = .rejected true ↔ ∃ stage why, first = some (stage, why) ∧
      (stage = .upsert ∨ stage = .insert ∨ why.has .databaseFailed = true)) ∧
    (settled.2.2 = .rejected false ↔ ∃ stage why, first = some (stage, why) ∧
      (stage = .start ∨ stage = .commit) ∧ why.has .databaseFailed = false) := by
  intro first settled
  obtain ⟨hstate, hsettled⟩ := Queue.handleDelivery_readable service (storeHandler db) context d j s update hbody
  obtain ⟨hdb, hr⟩ := store_attempt db
    ((context.withRequestId d.correlationId).withDeviceId update.marker.deviceId) update ⟨s, j⟩ hid
  rw [storeHandler_apply] at hstate hsettled
  obtain ⟨hack, hback, hlost⟩ := hr.settlement
  rw [← hsettled] at hack hback hlost
  refine ⟨hack, fun h => ?_, hback, hlost⟩
  rw [show settled.1 = (attempt db (dated update) s).1 from hstate.trans hdb]
  exact attempt_committed db (hack.mp h)

end

/-- The text `{"marker":{"device_id":"a"}}`. -/
def namedBody : List UInt8 :=
  [123, 34, 109, 97, 114, 107, 101, 114, 34, 58, 123, 34, 100, 101, 118, 105, 99, 101, 95, 105, 100, 34, 58,
    34, 97, 34, 125, 125]

/-- The reading cannot be inserted and the rollback fails too: the delivery is given back. -/
theorem delivery_settlement_insert_fails :
    (MarkerUpdate.ofBytes? namedBody = some { marker := { deviceId := "a" } } ∧ Text.trim "a" ≠ "") ∧
    (Queue.handleDelivery serviceName (storeHandler Rehearsal.database) {} { body := namedBody, correlationId := "" } {}
      { script := { insert := some (.other "broken pipe"), rollback := some (.other "broken pipe") } }).2.2 =
      .rejected true := by
  have hbody : MarkerUpdate.ofBytes? namedBody = some { marker := { deviceId := "a" } } := rfl
  have hid : Text.trim "a" ≠ "" := by decide
  have h := delivery_settlement Rehearsal.database serviceName {} { body := namedBody, correlationId := "" } {}
    { script := { insert := some (.other "broken pipe"), rollback := some (.other "broken pipe") } } _ hbody hid
  exact ⟨⟨hbody, hid⟩, h.2.2.1.mpr ⟨.insert, .other "broken pipe", rfl, .inr (.inl rfl)⟩⟩

/-- Without a connection no transaction starts, and the delivery is lost although it could be read. -/
theorem delivery_lost_without_connection :
    (MarkerUpdate.ofBytes? namedBody = some { marker := { deviceId := "a" } } ∧ Text.trim "a" ≠ "") ∧
    (Queue.handleDelivery serviceName (storeHandler Rehearsal.database) {} { body := namedBody, correlationId := "" } {}
      { script := { start := some (.other "connection refused") } }).2.2 = .rejected false :=
  ⟨⟨rfl, by decide⟩, by decide⟩

end BinFleet.Archive
