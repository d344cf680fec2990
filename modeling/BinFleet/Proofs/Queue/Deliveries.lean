import BinFleet.Proofs.Archive.Tables
import BinFleet.Proofs.Metrics

namespace BinFleet.Queue

/-- What a consumer does that others see. -/
inductive Deed where
  /-- The handler was called, and returned this failure. -/
  | handled (context : LogContext) (update : MarkerUpdate) (failure : Option Fault)
  | settled (delivery : Delivery) (settlement : Settlement)

namespace Deed

/-- The delivery that was settled. -/
def delivery? : Deed → Option Delivery
  | handled _ _ _ => none
  | settled d _ => some d

def settlement? : Deed → Option Settlement
  | handled _ _ _ => none
  | settled _ settlement => some settlement

/-- A delivery was settled, by an acknowledgement or by something else. -/
def settles (ok : Bool) : Deed → Bool
  | handled _ _ _ => false
  | settled _ settlement => (settlement == .acknowledged) == ok

end Deed

/-- What is done about one delivery: a body that is no update is rejected for good. An update is handled
once, under the request id of the delivery; it is acknowledged if that succeeded, and otherwise rejected,
to come again exactly if the failure is one of the database. -/
inductive Dealt (context : LogContext) (d : Delivery) : List Deed → Settlement → Prop where
  | unreadable (h : MarkerUpdate.ofBytes? d.body = none) : Dealt context d [] (.rejected false)
  | succeeded {update : MarkerUpdate} (h : MarkerUpdate.ofBytes? d.body = some update) :
    Dealt context d
      [.handled ((context.withRequestId d.correlationId).withDeviceId update.marker.deviceId) update none]
      .acknowledged
  | failed {update : MarkerUpdate} (h : MarkerUpdate.ofBytes? d.body = some update) (f : Fault) :
    Dealt context d
      [.handled ((context.withRequestId d.correlationId).withDeviceId update.marker.deviceId) update (some f)]
      (.rejected (f.has .databaseFailed))

/-- The piece that a delivery adds to the notes. -/
def Piece (context : LogContext) (d : Delivery) (piece : List Deed) : Prop :=
  ∃ calls settlement, Dealt context d calls settlement ∧ piece = calls ++ [.settled d settlement]

section

variable {context : LogContext} {d : Delivery} {calls : List Deed} {settlement : Settlement}

theorem Dealt.deliveries (h : Dealt context d calls settlement) : calls.filterMap Deed.delivery? = [] := by
  cases h <;> rfl

theorem Dealt.countP (h : Dealt context d calls settlement) (ok : Bool) : calls.countP (Deed.settles ok) = 0 := by
  cases h <;> rfl

/-- The notes name the deliveries in order, each once. -/
theorem deliveries_of_pieces {deliveries : List Delivery} {pieces : List (List Deed)}
    (h : List.Forall₂ (Piece context) deliveries pieces) :
    pieces.flatten.filterMap Deed.delivery? = deliveries := by
  induction h with
  | nil => rfl
  | cons hpiece _ ih =>
    obtain ⟨calls, settlement, hdealt, rfl⟩ := hpiece
    rw [List.flatten_cons, List.filterMap_append, List.filterMap_append, hdealt.deliveries, ih]
    rfl

end

section

variable {σ : Type} (service : String) (handle : UpdateHandler σ) (settle : Delivery → Settlement → σ → σ)
  (context : LogContext) (hangup : Hangup)

/-- The handler, with its calls written down. -/
def watchedHandler : UpdateHandler (σ × List Deed) := fun context update j s =>
  let (s', j, failure) := handle context update j s.1
  ((s', s.2 ++ [.handled context update failure]), j, failure)

/-- The settlements, written down. -/
def watchedSettle (d : Delivery) (settlement : Settlement) (s : σ × List Deed) : σ × List Deed :=
  (settle d settlement s.1, s.2 ++ [.settled d settlement])

/-- Apart from its notes, a consumer that is watched does what it does alone. -/
theorem handleDelivery_watched (d : Delivery) (j : Journal) (s : σ) (notes : List Deed) :
    let alone := handleDelivery service handle context d j s
    ∃ calls, Dealt context d calls alone.2.2 ∧
      handleDelivery service (watchedHandler handle) context d j (s, notes) = ((alone.1, notes ++ calls), alone.2) := by
  intro alone
  cases hbody : MarkerUpdate.ofBytes? d.body with
  | none =>
    simp only [alone, handleDelivery, hbody]
    exact ⟨[], .unreadable hbody, by rw [List.append_nil]⟩
  | some update =>
    have hsettled := (handleDelivery_readable service handle context d j s update hbody).2
    rcases hhandled : handle ((context.withRequestId d.correlationId).withDeviceId update.marker.deviceId) update j s
      with ⟨s', j', failure⟩
    rw [hhandled] at hsettled
    refine ⟨[.handled ((context.withRequestId d.correlationId).withDeviceId update.marker.deviceId) update failure],
      ?_, ?_⟩
    · change Dealt context d _ (handleDelivery service handle context d j s).2.2
      rw [hsettled]
      cases failure with
      | none => exact .succeeded hbody
      | some f => exact .failed hbody f
    · -- A failed acknowledgement is logged, which is all that it changes.
      cases failure with
      | none =>
        cases hack : d.ackFailure <;> simp only [alone, handleDelivery, watchedHandler, hbody, hhandled, hack]
      | some f => simp only [alone, handleDelivery, watchedHandler, hbody, hhandled]

/-- The handler leaves the counters of deliveries alone. -/
def KeepsCount : Prop := ∀ ok context update j s,
  (handle context update j s).2.1.metrics.get (.consumed service archiveQueue ok) =
    j.metrics.get (.consumed service archiveQueue ok)

theorem get_inc_consumed (m : Metrics) (counted ok : Bool) :
    (m.inc (.consumed service archiveQueue counted)).get (.consumed service archiveQueue ok) =
      m.get (.consumed service archiveQueue ok) + if counted = ok then 1 else 0 := by
  by_cases hok : counted = ok
  · rw [hok, if_pos rfl, Metrics.get_inc_self]
  · have hne : Series.consumed service archiveQueue ok ≠ .consumed service archiveQueue counted := by
      intro heq
      injection heq with _ _ heq
      exact hok heq.symm
    rw [if_neg hok, Int.add_zero, Metrics.get_inc_of_ne _ hne]

/-- A delivery is counted once, as a success exactly when it is acknowledged. -/
theorem handleDelivery_counts (h : KeepsCount service handle) (d : Delivery) (j : Journal) (s : σ) (ok : Bool) :
    let alone := handleDelivery service handle context d j s
    alone.2.1.metrics.get (.consumed service archiveQueue ok) =
      j.metrics.get (.consumed service archiveQueue ok) +
        if (alone.2.2 == .acknowledged) = ok then 1 else 0 := by
  intro alone
  cases hbody : MarkerUpdate.ofBytes? d.body with
  | none =>
    simp only [alone, handleDelivery, hbody]
    exact get_inc_consumed service j.metrics false ok
  | some update =>
    have hkept := h ok ((context.withRequestId d.correlationId).withDeviceId update.marker.deviceId) update j s
    rcases hhandled : handle ((context.withRequestId d.correlationId).withDeviceId update.marker.deviceId) update j s
      with ⟨s', j', _ | f⟩ <;> rw [hhandled] at hkept <;> rw [← hkept]
    · cases hack : d.ackFailure <;> simp only [alone, handleDelivery, hbody, hhandled, hack] <;>
        exact get_inc_consumed service j'.metrics true ok
    · simp only [alone, handleDelivery, hbody, hhandled]
      exact get_inc_consumed service j'.metrics false ok

theorem drain_cons (d : Delivery) (rest : List Delivery) (j : Journal) (s : σ) :
    let dealt := handleDelivery service handle context d j s
    drain service handle settle context hangup (d :: rest) j s =
      drain service handle settle context hangup rest dealt.2.1 (settle d dealt.2.2 dealt.1) := rfl

theorem drain_append (before after : List Delivery) (j : Journal) (s : σ) :
    let halfway := drain service handle settle context hangup before j s
    drain service handle settle context hangup (before ++ after) j s =
      drain service handle settle context hangup after halfway.2.1 halfway.1 := by
  induction before generalizing j s with
  | nil => rfl
  | cons d rest ih => exact ih _ _

theorem drain_done (deliveries : List Delivery) (j : Journal) (s : σ) :
    (drain service handle settle context hangup deliveries j s).2.2 = (hangup == .stopped) := by
  induction deliveries generalizing j s with
  | nil => rfl
  | cons d rest ih => exact ih _ _

/-- A whole channel adds one piece for each delivery. -/
theorem drain_watched (deliveries : List Delivery) (j : Journal) (s : σ) (notes : List Deed) :
    let alone := drain service handle settle context hangup deliveries j s
    ∃ pieces, List.Forall₂ (Piece context) deliveries pieces ∧
      drain service (watchedHandler handle) (watchedSettle settle) context hangup deliveries j (s, notes) =
        ((alone.1, notes ++ pieces.flatten), alone.2) ∧
      (KeepsCount service handle → ∀ ok, alone.2.1.metrics.get (.consumed service archiveQueue ok) =
        j.metrics.get (.consumed service archiveQueue ok) + pieces.flatten.countP (Deed.settles ok)) := by
  induction deliveries generalizing j s notes with
  | nil => exact ⟨[], .nil, by rw [List.flatten_nil, List.append_nil]; rfl, fun _ _ => (Int.add_zero _).symm⟩
  | cons d rest ih =>
    obtain ⟨calls, hdealt, hstep⟩ := handleDelivery_watched service handle context d j s notes
    have hcounts := fun h => handleDelivery_counts service handle context h d j s
    -- The rest of the channel sees the first delivery only through what it left.
    simp only [drain_cons, hstep]
    generalize handleDelivery service handle context d j s = dealt at hdealt hcounts ⊢
    obtain ⟨pieces, hpieces, hrest, hcountsRest⟩ := ih dealt.2.1 (settle d dealt.2.2 dealt.1)
      (notes ++ calls ++ [.settled d dealt.2.2])
    refine ⟨(calls ++ [.settled d dealt.2.2]) :: pieces, .cons ⟨calls, dealt.2.2, hdealt, rfl⟩ hpieces, ?_, ?_⟩
    · rw [List.flatten_cons, ← List.append_assoc, ← List.append_assoc]
      exact hrest
    · intro h ok
      rw [hcountsRest h ok, hcounts h ok, List.flatten_cons, List.countP_append, List.countP_append, hdealt.countP]
      simp only [List.countP_singleton, Deed.settles, beq_iff_eq]
      split_ifs <;> omega

end

end BinFleet.Queue

namespace BinFleet.Archive

section

variable {σ : Type} (db : Database σ)

theorem observed_consumed {α : Type} (name operation : String) (context : LogContext) (j : Journal)
    (result : σ × Except Fault α) (service queue : String) (ok : Bool) :
    (observed name operation context j result).1.journal.metrics.get (.consumed service queue ok) =
      j.metrics.get (.consumed service queue ok) :=
  Metrics.get_inc_of_ne _ (by intro h; cases h)

theorem settle_journal {α : Type} (r : State σ × Ending (Except Fault α)) :
    (settle (State.transactions db) r).1.journal = r.1.journal := by
  rcases r with ⟨s, (failure | v) | text⟩
  · rcases hr : db.rollback s.database with ⟨d, _ | why⟩ <;> simp only [settle, State.transactions, hr]
  · rcases hc : db.commit s.database with ⟨d, _ | why⟩ <;> simp only [settle, State.transactions, hc]
  · rfl

section

variable (context : LogContext) (update : MarkerUpdate) (s : State σ) (service queue : String) (ok : Bool)

/-- Storing counts statements, never deliveries. -/
theorem storing_consumed (carried : Carried) :
    (storing db context update carried s).1.journal.metrics.get (.consumed service queue ok) =
      s.journal.metrics.get (.consumed service queue ok) := by
  have hupsert : (s.upsertDevice db carried context update.marker).1.journal.metrics.get (.consumed service queue ok) =
      s.journal.metrics.get (.consumed service queue ok) := observed_consumed ..
  rcases he : s.upsertDevice db carried context update.marker with ⟨s', f | ⟨⟩⟩ <;> rw [he] at hupsert <;>
    simp only [storing, he]
  · exact hupsert
  · exact (observed_consumed ..).trans hupsert

theorem within_storing_consumed :
    (within (State.transactions db) false (storing db context update) .nothing s).1.journal.metrics.get
        (.consumed service queue ok) = s.journal.metrics.get (.consumed service queue ok) := by
  have hjournal : ((State.transactions db).start false s).1.journal = s.journal := rfl
  rcases hstart : (State.transactions db).start false s with ⟨s', _ | why⟩ <;>
    rw [hstart] at hjournal <;> dsimp only at hjournal
  · simp only [within, hstart, settle_journal, storing_consumed, hjournal]
  · simp only [within, hstart, hjournal]

end

theorem storeHandler_keepsCount (service : String) : Queue.KeepsCount service (storeHandler db) := by
  intro ok context update j d
  rw [storeHandler_apply]
  unfold store
  split_ifs
  · rfl
  · have hwithin := within_storing_consumed db
      ((context.withDeviceId update.marker.deviceId).withAction "archive_reading") (dated update) ⟨d, j⟩
      service Queue.archiveQueue ok
    rcases he : within (State.transactions db) false
      (storing db ((context.withDeviceId update.marker.deviceId).withAction "archive_reading") (dated update))
      .nothing ⟨d, j⟩ with ⟨s, (f | id) | text⟩ <;> rw [he] at hwithin <;> simp only [he] <;> exact hwithin

end

/-- A body that is no update, a reading that cannot be inserted, and one that is stored. -/
def mixedDeliveries : List Queue.Delivery :=
  [⟨[], "r1", none⟩, ⟨namedBody, "r2", none⟩, ⟨namedBody, "r3", some "channel closed"⟩]

end BinFleet.Archive
