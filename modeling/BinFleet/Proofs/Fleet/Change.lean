import BinFleet.Fleet.Service
import BinFleet.Proofs.Metrics
import BinFleet.Proofs.Tracker

namespace BinFleet.Fleet

/-- A call that may change the map. -/
inductive Order where
  | ingest (context : LogContext) (reading : Reading)
  | forget (context : LogContext) (deviceId : String)

/-- The log context that an order is carried out in. -/
def Order.context : Order → LogContext
  | ingest context r => context.withDeviceId r.id
  | forget context id => context.withDeviceId id

/-- What listeners are told about a change. -/
inductive Notice where
  | updated (u : MarkerUpdate)
  | removed (deviceId : String)

namespace Notice

def deviceId : Notice → String
  | updated u => u.marker.deviceId
  | removed id => id

/-- The marker that the device has according to the notice. -/
def marker? : Notice → Option Marker
  | updated u => some u.marker
  | removed _ => none

end Notice

namespace Service

variable {σ : Type} (v : Service σ)

/-- All that a call does before the first listener is told. -/
def change : Order → State σ → State σ × Except Fault Notice
  | .ingest context r, s =>
    let context := context.withDeviceId r.id
    let r := if r.source = "" then { r with source := Reading.operatorSource } else r
    let checks := r.checks {}
    if checks.isValid then
      let (r, s) := v.arrive r s
      let (u, s) := v.applyReading r s
      (record context u s, .ok (.updated u))
    else
      (s.measure fun m => m.inc (.readings r.source false),
        .error (.tagged context ((Fault.rejected checks.errors).during "Service.Ingest")))
  | .forget context id, s =>
    match s.tracker.forget id with
    | (tracker, false) => ({ s with tracker }, .error (unknownDevice (context.withDeviceId id) "Service.Forget"))
    | (tracker, true) =>
      ({ s with tracker }.measure fun m => m.set .activeMarkers tracker.size, .ok (.removed id))

/-- One listener takes a notice. -/
def hear (context : LogContext) (n : Notice) (l : Listener σ) (s : State σ) : State σ :=
  match n with
  | .updated u => tell context "marker listener failed" (l.updated context u) s
  | .removed id => tell context "removal listener failed" (l.removed context id) s

/-- What is left to do when all listeners were told. -/
def conclude (context : LogContext) : Notice → State σ → State σ
  | .updated _, s => s
  | .removed _, s => s.log (.info context "device forgotten")

/-- A call that nobody interrupts. -/
def perform (order : Order) (s : State σ) : State σ × Except Fault Notice :=
  match v.change order s with
  | (s, .error f) => (s, .error f)
  | (s, .ok n) =>
    (conclude order.context n (v.listeners.foldl (fun s l => hear order.context n l s) s), .ok n)

theorem perform_ingest (context : LogContext) (r : Reading) (s : State σ) :
    v.perform (.ingest context r) s =
      ((v.ingest context r s).1, (v.ingest context r s).2.map Notice.updated) := by
  simp only [perform, change, ingest]
  generalize (if r.source = "" then _ else r) = r'
  by_cases h : (r'.checks {}).isValid
  · simp only [if_pos h]
    rfl
  · simp only [if_neg h]
    rfl

theorem perform_forget (context : LogContext) (id : String) (s : State σ) :
    v.perform (.forget context id) s =
      ((v.forget context id s).1,
        match (v.forget context id s).2 with
        | none => .ok (.removed id)
        | some f => .error f) := by
  simp only [perform, change, forget]
  rcases s.tracker.forget id with ⟨tracker, _ | _⟩ <;> rfl

end Service

/-- What a call can do to the map, and how it answers then. -/
inductive Changed (c : Settings) (t : Tracker) : Tracker → Except Fault Notice → Prop where
  | refused (f : Fault) : Changed c t t (.error f)
  | updated (r : Reading) : Changed c t (t.apply r (c.marker r)).tracker
      (.ok (.updated ⟨(t.apply r (c.marker r)).marker, r, (t.apply r (c.marker r)).replaced, r.receivedAt⟩))
  | removed {id : String} (h : (t.marker? id).isSome) : Changed c t (t.forget id).1 (.ok (.removed id))

theorem Changed.valid {c : Settings} {t t' : Tracker} {a : Except Fault Notice} (h : Changed c t t' a)
    (hv : t.Valid) : t'.Valid := by
  cases h with
  | refused f => exact hv
  | updated r => exact t.apply_valid r _ hv
  | removed h => exact t.forget_valid _ hv

/-- After a change its device is on the map as the notice says. -/
theorem Changed.marker?_self {c : Settings} {t t' : Tracker} {n : Notice} (h : Changed c t t' (.ok n)) :
    t'.marker? n.deviceId = n.marker? := by
  cases h with
  | updated r => exact t.marker?_apply_self r _
  | removed h => exact t.marker?_forget_self _

theorem Changed.marker?_of_ne {c : Settings} {t t' : Tracker} {n : Notice} (h : Changed c t t' (.ok n))
    {id : String} (hid : id ≠ n.deviceId) : t'.marker? id = t.marker? id := by
  cases h with
  | updated r => exact t.marker?_apply_of_ne r _ hid
  | removed h => exact t.marker?_forget_of_ne hid

namespace Service

variable {σ : Type} (v : Service σ)

@[simp] theorem arrive_tracker (r : Reading) (s : State σ) : (v.arrive r s).2.tracker = s.tracker := by
  unfold arrive
  split_ifs <;> rfl

@[simp] theorem record_tracker (context : LogContext) (u : MarkerUpdate) (s : State σ) :
    (record context u s).tracker = s.tracker := rfl

/-- A device that is not there is refused, and nothing changes. -/
theorem change_forget_absent (context : LogContext) {id : String} {s : State σ} (h : s.tracker.marker? id = none) :
    v.change (.forget context id) s =
      (s, .error (unknownDevice (context.withDeviceId id) "Service.Forget")) := by
  have hforget : s.tracker.forget id = (s.tracker, false) :=
    Prod.ext (s.tracker.forget_of_absent h) (by rw [Tracker.forget, h]; rfl)
  simp only [change, hforget]

theorem change_forget_visible (context : LogContext) {id : String} {s : State σ} (h : (s.tracker.marker? id).isSome) :
    v.change (.forget context id) s =
      ({ s with tracker := (s.tracker.forget id).1 }.measure fun m =>
          m.set .activeMarkers (s.tracker.forget id).1.size, .ok (.removed id)) := by
  simp only [change, Tracker.forget, h]

theorem change_changed (order : Order) (s : State σ) :
    Changed v.settings s.tracker (v.change order s).1.tracker (v.change order s).2 := by
  cases order with
  | ingest context r =>
    simp only [change]
    generalize (if r.source = "" then _ else r) = r'
    split_ifs with h
    · simp only [record_tracker, applyReading, arrive_tracker]
      exact .updated (v.arrive r' s).1
    · exact .refused _
  | forget context id =>
    by_cases h : (s.tracker.marker? id).isSome
    · rw [v.change_forget_visible context h]
      exact .removed h
    · rw [v.change_forget_absent context (Option.not_isSome_iff_eq_none.mp h)]
      exact .refused _

/-- A visible device can be forgotten. -/
theorem change_forget (context : LogContext) {id : String} {s : State σ} (h : (s.tracker.marker? id).isSome) :
    (v.change (.forget context id) s).2 = .ok (.removed id) := by
  rw [v.change_forget_visible context h]

@[simp] theorem tell_tracker (context : LogContext) (complaint : String)
    (call : σ × Journal → (σ × Journal) × Option Fault) (s : State σ) :
    (tell context complaint call s).tracker = s.tracker := by
  unfold tell
  rcases call (s.world, s.journal) with ⟨⟨world, journal⟩, _ | f⟩ <;> rfl

@[simp] theorem hear_tracker (context : LogContext) (n : Notice) (l : Listener σ) (s : State σ) :
    (hear context n l s).tracker = s.tracker := by
  cases n <;> exact tell_tracker _ _ _ _

@[simp] theorem conclude_tracker (context : LogContext) (n : Notice) (s : State σ) :
    (conclude context n s).tracker = s.tracker := by
  cases n <;> rfl

/-- Telling listeners leaves the map as it is. -/
theorem hearAll_tracker (context : LogContext) (n : Notice) (ls : List (Listener σ)) (s : State σ) :
    (ls.foldl (fun s l => hear context n l s) s).tracker = s.tracker := by
  induction ls generalizing s with
  | nil => rfl
  | cons l rest ih => rw [List.foldl_cons, ih, hear_tracker]

theorem perform_changed (order : Order) (s : State σ) :
    Changed v.settings s.tracker (v.perform order s).1.tracker (v.perform order s).2 := by
  have h := v.change_changed order s
  unfold perform
  generalize v.change order s = changed at h ⊢
  obtain ⟨s', f | n⟩ := changed
  · exact h
  · simpa only [conclude_tracker, hearAll_tracker] using h

end Service

/-- The number of visible markers as it is shown to the outside. -/
def State.gauge {σ : Type} (s : State σ) : Int := s.journal.metrics.get .activeMarkers

/-- A listener that leaves the number of visible markers alone. -/
structure Listener.KeepsGauge {σ : Type} (l : Listener σ) : Prop where
  updated (context : LogContext) (u : MarkerUpdate) (p : σ × Journal) :
    (l.updated context u p).1.2.metrics.get .activeMarkers = p.2.metrics.get .activeMarkers
  removed (context : LogContext) (deviceId : String) (p : σ × Journal) :
    (l.removed context deviceId p).1.2.metrics.get .activeMarkers = p.2.metrics.get .activeMarkers

namespace Service

variable {σ : Type} (v : Service σ)

@[simp] theorem record_gauge (context : LogContext) (u : MarkerUpdate) (s : State σ) :
    (record context u s).gauge = s.tracker.size :=
  Metrics.get_set_self _ _ _

theorem change_gauge (order : Order) (s : State σ) (h : s.gauge = s.tracker.size) :
    (v.change order s).1.gauge = (v.change order s).1.tracker.size := by
  cases order with
  | ingest context r =>
    simp only [change]
    generalize (if r.source = "" then _ else r) = r'
    split_ifs with hc
    · exact record_gauge _ _ _
    · exact (Metrics.get_inc_of_ne _ (by simp)).trans h
  | forget context id =>
    by_cases hvisible : (s.tracker.marker? id).isSome
    · rw [v.change_forget_visible context hvisible]
      exact Metrics.get_set_self _ _ _
    · rw [v.change_forget_absent context (Option.not_isSome_iff_eq_none.mp hvisible)]
      exact h

theorem tell_gauge (context : LogContext) (complaint : String)
    (call : σ × Journal → (σ × Journal) × Option Fault) (s : State σ)
    (h : (call (s.world, s.journal)).1.2.metrics.get .activeMarkers = s.gauge) :
    (tell context complaint call s).gauge = s.gauge := by
  rw [← h]
  unfold tell
  rcases call (s.world, s.journal) with ⟨⟨world, journal⟩, _ | f⟩ <;> rfl

theorem hear_gauge (context : LogContext) (n : Notice) {l : Listener σ} (hl : l.KeepsGauge) (s : State σ) :
    (hear context n l s).gauge = s.gauge := by
  cases n with
  | updated u => exact tell_gauge _ _ _ _ (hl.updated context u _)
  | removed id => exact tell_gauge _ _ _ _ (hl.removed context id _)

theorem hearAll_gauge (context : LogContext) (n : Notice) {ls : List (Listener σ)}
    (hl : ∀ l ∈ ls, l.KeepsGauge) (s : State σ) :
    (ls.foldl (fun s l => hear context n l s) s).gauge = s.gauge := by
  induction ls generalizing s with
  | nil => rfl
  | cons l rest ih =>
    rw [List.foldl_cons, ih (fun l' h => hl l' (List.mem_cons_of_mem _ h))]
    exact hear_gauge context n (hl l List.mem_cons_self) s

/-- After a call the gauge shows how many markers there are, if it did before. -/
theorem perform_gauge (hl : ∀ l ∈ v.listeners, l.KeepsGauge) (order : Order) (s : State σ)
    (h : s.gauge = s.tracker.size) :
    (v.perform order s).1.gauge = (v.perform order s).1.tracker.size := by
  have hc := v.change_gauge order s h
  unfold perform
  generalize v.change order s = changed at hc ⊢
  obtain ⟨s', f | n⟩ := changed
  · exact hc
  · have hk : ∀ s : State σ, (conclude order.context n s).gauge = s.gauge := by
      intro s
      cases n <;> rfl
    simpa only [conclude_tracker, hearAll_tracker, hk, hearAll_gauge _ n hl] using hc

end Service

end BinFleet.Fleet
