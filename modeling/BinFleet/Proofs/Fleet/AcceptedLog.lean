import BinFleet.Proofs.Fleet.Change
import BinFleet.Proofs.Reading
import Mathlib.Data.List.DropRight

namespace BinFleet.Fleet

/-- A call that brings a reading or forgets a device. -/
inductive Request where
  | message (context : LogContext) (payload : List UInt8)
  | ingest (context : LogContext) (reading : Reading)
  | forget (context : LogContext) (deviceId : String)

namespace Request

/-- The reading that a request brings, under the source it is counted for. -/
def reading? : Request → Option Reading
  | message _ payload => (Service.decode? payload).map fun r => { r with source := Reading.telemetrySource }
  | ingest _ r => some (if r.source = "" then { r with source := Reading.operatorSource } else r)
  | forget _ _ => none

/-- The order that a request comes to, unless its payload is unreadable. -/
def order? : Request → Option Order
  | message context payload => (Service.decode? payload).map fun r =>
    .ingest (context.withAction "handle_reading") { r with source := Reading.telemetrySource }
  | ingest context r => some (.ingest context r)
  | forget context id => some (.forget context id)

end Request

namespace Service

variable {σ : Type} (v : Service σ)

def serve : Request → State σ → State σ × Except Fault Notice
  | .message context payload, s =>
    let (s, answer) := v.handleMessage context payload s
    (s, answer.map .updated)
  | .ingest context r, s =>
    let (s, answer) := v.ingest context r s
    (s, answer.map .updated)
  | .forget context id, s =>
    match v.forget context id s with
    | (s, none) => (s, .ok (.removed id))
    | (s, some f) => (s, .error f)

/-- One request after the other, and the answers to them. -/
def run : List Request → State σ → State σ × List (Except Fault Notice)
  | [], s => (s, [])
  | q :: rest, s =>
    let (s, answer) := v.serve q s
    let (s, answers) := run rest s
    (s, answer :: answers)

theorem serve_order {q : Request} {order : Order} (h : q.order? = some order) (s : State σ) :
    v.serve q s = v.perform order s := by
  cases q with
  | message context payload =>
    obtain ⟨r, hr, rfl⟩ := Option.map_eq_some_iff.mp h
    rw [perform_ingest]
    simp only [serve, handleMessage, hr]
  | ingest context r =>
    cases h
    rw [perform_ingest]
    rfl
  | forget context id =>
    cases h
    rw [perform_forget]
    simp only [serve]
    rcases v.forget context id s with ⟨s', _ | f⟩ <;> rfl

theorem serve_unreadable {q : Request} (h : q.order? = none) (s : State σ) :
    (v.serve q s).1.tracker = s.tracker ∧ (v.serve q s).1.gauge = s.gauge ∧ ∃ f, (v.serve q s).2 = .error f := by
  cases q with
  | message context payload =>
    have hd := Option.map_eq_none_iff.mp h
    simp only [serve, handleMessage, hd]
    exact ⟨rfl, Metrics.get_inc_of_ne _ (by simp), _, rfl⟩
  | ingest context r => cases h
  | forget context id => cases h

theorem serve_changed (q : Request) (s : State σ) :
    Changed v.settings s.tracker (v.serve q s).1.tracker (v.serve q s).2 := by
  cases h : q.order? with
  | some order =>
    rw [v.serve_order h]
    exact v.perform_changed order s
  | none =>
    obtain ⟨ht, -, f, hf⟩ := v.serve_unreadable h s
    rw [ht, hf]
    exact .refused f

theorem serve_gauge (hl : ∀ l ∈ v.listeners, l.KeepsGauge) (q : Request) (s : State σ)
    (h : s.gauge = s.tracker.size) : (v.serve q s).1.gauge = (v.serve q s).1.tracker.size := by
  cases ho : q.order? with
  | some order =>
    rw [v.serve_order ho]
    exact v.perform_gauge hl order s h
  | none =>
    obtain ⟨ht, hg, -⟩ := v.serve_unreadable ho s
    rw [ht, hg, h]

theorem run_gauge (hl : ∀ l ∈ v.listeners, l.KeepsGauge) (requests : List Request) (s : State σ)
    (h : s.gauge = s.tracker.size) :
    (v.run requests s).1.gauge = (v.run requests s).1.tracker.size := by
  induction requests generalizing s with
  | nil => exact h
  | cons q rest ih => exact ih _ (v.serve_gauge hl q s h)

theorem run_length (requests : List Request) (s : State σ) :
    (v.run requests s).2.length = requests.length := by
  induction requests generalizing s with
  | nil => rfl
  | cons q rest ih => exact congrArg Nat.succ (ih _)

/-- The answer to a request is the one it gets in the state that the requests before it left. -/
theorem run_getElem? (requests : List Request) (s : State σ) (i : Nat) :
    (v.run requests s).2[i]? = requests[i]?.map fun q => (v.serve q (v.run (requests.take i) s).1).2 := by
  induction requests generalizing s i with
  | nil => rfl
  | cons q rest ih =>
    cases i with
    | zero => rfl
    | succ i => exact ih _ i

end Service

/-- How a request has to be answered in a state. -/
inductive Answered {σ : Type} (v : Service σ) (s : State σ) : Request → Except Fault Notice → Prop where
  | accepted {q : Request} {r : Reading} {u : MarkerUpdate} (hr : q.reading? = some r)
      (hc : (r.checks {}).isValid) (hu : u.reading = (v.arrive r s).1)
      (hp : u.replaced = true ↔ (s.tracker.marker? r.id).isSome) : Answered v s q (.ok (.updated u))
  | rejected {q : Request} {r : Reading} (hr : q.reading? = some r) (hc : ¬(r.checks {}).isValid) (f : Fault) :
      Answered v s q (.error f)
  | unreadable {context : LogContext} {payload : List UInt8} (h : Service.decode? payload = none) (f : Fault) :
      Answered v s (.message context payload) (.error f)
  | forgotten {context : LogContext} {id : String} (h : (s.tracker.marker? id).isSome) :
      Answered v s (.forget context id) (.ok (.removed id))
  | unknown {context : LogContext} {id : String} (h : s.tracker.marker? id = none) (f : Fault) :
      Answered v s (.forget context id) (.error f)

namespace Service

variable {σ : Type} (v : Service σ)

@[simp] theorem arrive_id (r : Reading) (s : State σ) : (v.arrive r s).1.id = r.id := by
  unfold arrive
  split_ifs <;> rfl

theorem arrive_acceptable {r : Reading} (hr : r.Acceptable) (s : State σ) : (v.arrive r s).1.Acceptable := by
  obtain ⟨h1, h2, h3, h4, h5, h6, h7, h8⟩ := hr
  rw [arrive]
  split_ifs <;> exact ⟨h1, h2, h3, h4, h5, h6, h7, h8⟩

theorem ingest_answered {q : Request} {r : Reading}
    (hq : q.reading? = some (if r.source = "" then { r with source := Reading.operatorSource } else r))
    (context : LogContext) (s : State σ) : Answered v s q ((v.ingest context r s).2.map .updated) := by
  simp only [ingest]
  generalize (if r.source = "" then _ else r) = r' at hq ⊢
  split_ifs with hc
  · refine .accepted hq hc rfl ?_
    simp only [applyReading, Tracker.apply_replaced, arrive_tracker, arrive_id]
  · exact .rejected hq hc _

theorem serve_answered (q : Request) (s : State σ) : Answered v s q (v.serve q s).2 := by
  cases q with
  | message context payload =>
    simp only [serve, handleMessage]
    cases hd : decode? payload with
    | none => exact .unreadable hd _
    | some r =>
      refine v.ingest_answered ?_ _ s
      simp [Request.reading?, hd, Reading.telemetrySource]
  | ingest context r => exact v.ingest_answered rfl context s
  | forget context id =>
    simp only [serve, forget, Tracker.forget]
    cases hs : (s.tracker.marker? id).isSome with
    | false => exact .unknown (Option.isNone_iff_eq_none.mp (Option.isSome_eq_false_iff.mp hs)) _
    | true => exact .forgotten hs

end Service

/-- The reading of a device that an answer accepts. -/
def readingOf (id : String) : Except Fault Notice → Option Reading
  | .ok (.updated u) => if u.reading.id = id then some u.reading else none
  | _ => none

def forgets (id : String) : Except Fault Notice → Bool
  | .ok (.removed k) => k = id
  | _ => false

/-- The accepted readings of a device since it was last forgotten, in arrival order. -/
def standing (id : String) (answers : List (Except Fault Notice)) : List Reading :=
  (answers.rtakeWhile fun a => !forgets id a).filterMap (readingOf id)

theorem standing_concat (id : String) (answers : List (Except Fault Notice)) (a : Except Fault Notice) :
    standing id (answers ++ [a]) =
      if forgets id a then [] else standing id answers ++ (readingOf id a).toList := by
  unfold standing
  rw [List.rtakeWhile_concat]
  cases forgets id a with
  | true => rfl
  | false =>
    simp only [Bool.not_false, if_true, Bool.false_eq_true, if_false, List.filterMap_append,
      List.append_cancel_left_eq]
    cases h : readingOf id a <;> simp [h]

/-- The device that a history of readings makes, if there is any reading. -/
def trackOf (c : Settings) (id : String) (readings : List Reading) : Option Track :=
  readings.getLast?.map fun r => ⟨{ c.marker r with deviceId := id, readings := readings.length }, readings⟩

theorem trackOf_history (c : Settings) (id : String) (readings : List Reading) :
    ((trackOf c id readings).map (·.history)).getD [] = readings := by
  unfold trackOf
  cases h : readings.getLast? with
  | none => exact (List.getLast?_eq_none_iff.mp h).symm
  | some r => rfl

/-- The map is what the answers so far make of each device. -/
structure Reflects (c : Settings) (answers : List (Except Fault Notice)) (t : Tracker) : Prop where
  valid : t.Valid
  tracks (id : String) : t.get? id = trackOf c id (standing id answers)

namespace Reflects

variable {c : Settings} {answers : List (Except Fault Notice)} {t t' : Tracker} {a : Except Fault Notice}

theorem empty (c : Settings) : Reflects c [] .empty := ⟨Tracker.empty_valid, fun _ => rfl⟩

theorem history (h : Reflects c answers t) (id : String) : (t.history? id).getD [] = standing id answers := by
  rw [← t.map_history_get?, h.tracks, trackOf_history]

theorem step (h : Reflects c answers t) (hc : Changed c t t' a) : Reflects c (answers ++ [a]) t' := by
  refine ⟨hc.valid h.valid, fun id => ?_⟩
  cases hc with
  | refused f =>
    rw [h.tracks, standing_concat]
    simp [forgets, readingOf]
  | updated r =>
    rw [standing_concat]
    by_cases hid : id = r.id
    · subst hid
      rw [t.get?_apply_self, t.apply_marker, h.history]
      simp [forgets, readingOf, trackOf]
    · rw [t.get?_apply_of_ne r _ hid, h.tracks]
      simp [forgets, readingOf, Ne.symm hid]
  | @removed k hk =>
    rw [standing_concat]
    by_cases hid : id = k
    · subst hid
      rw [t.get?_forget_self]
      simp [forgets, trackOf]
    · rw [t.get?_forget_of_ne hid, h.tracks]
      simp [forgets, readingOf, Ne.symm hid]

theorem run {σ : Type} (v : Service σ) (requests : List Request) (s : State σ)
    (h : Reflects v.settings answers s.tracker) :
    Reflects v.settings (answers ++ (v.run requests s).2) (v.run requests s).1.tracker := by
  induction requests generalizing s answers with
  | nil => simpa [Service.run] using h
  | cons q rest ih =>
    have hs := ih _ (h.step (v.serve_changed q s))
    rw [List.append_assoc] at hs
    exact hs

end Reflects

/-- A marker shows a reading: where it was taken, and how full the bin was. -/
structure Shows (c : Settings) (r : Reading) (m : Marker) : Prop where
  position : m.position = r.position c.sharedScale
  distance : m.distance = r.distance
  percent : m.percent = Fill.percentage r.distance c.maxDistance
  icon : m.icon = Icon.ofPercent (Fill.percentage r.distance c.maxDistance)
  color : m.color = (Icon.ofPercent (Fill.percentage r.distance c.maxDistance)).fillColor
  updatedAt : m.updatedAt = r.receivedAt

/-- The map that belongs to a list of answers, as it can be seen from the outside. -/
structure Follows (c : Settings) (answers : List (Except Fault Notice)) (t : Tracker) : Prop where
  history (id : String) (readings : List Reading) :
    t.history? id = some readings ↔ readings = standing id answers ∧ readings ≠ []
  visible (id : String) : (t.marker? id).isSome ↔ standing id answers ≠ []
  shown (id : String) (m : Marker) (h : t.marker? id = some m) :
    m.deviceId = id ∧ m.readings = (standing id answers).length ∧
      ∃ r, (standing id answers).getLast? = some r ∧ Shows c r m
  listed (m : Marker) : m ∈ t.markers ↔ t.marker? m.deviceId = some m
  devices (id : String) : id ∈ t.markers.map (·.deviceId) ↔ standing id answers ≠ []
  ascending : (t.markers.map (·.deviceId)).Pairwise (· < ·)
  size : t.size = t.markers.length

namespace Reflects

variable {c : Settings} {answers : List (Except Fault Notice)} {t : Tracker}

theorem history_iff (h : Reflects c answers t) (id : String) (readings : List Reading) :
    t.history? id = some readings ↔ readings = standing id answers ∧ readings ≠ [] := by
  simp only [← t.map_history_get?, h.tracks, trackOf, Option.map_map, Option.map_eq_some_iff, Function.comp_apply]
  constructor
  · rintro ⟨r, hr, rfl⟩
    exact ⟨rfl, fun he => by simp [he] at hr⟩
  · rintro ⟨rfl, hne⟩
    exact ⟨_, List.getLast?_eq_some_getLast hne, rfl⟩

theorem marker_visible (h : Reflects c answers t) (id : String) :
    (t.marker? id).isSome ↔ standing id answers ≠ [] := by
  simp only [← t.map_marker_get?, h.tracks, trackOf, Option.isSome_map, List.getLast?_isSome]

theorem marker_shown (h : Reflects c answers t) {id : String} {m : Marker} (hm : t.marker? id = some m) :
    m.deviceId = id ∧ m.readings = (standing id answers).length ∧
      ∃ r, (standing id answers).getLast? = some r ∧ Shows c r m := by
  simp only [← t.map_marker_get?, h.tracks, trackOf, Option.map_map, Option.map_eq_some_iff] at hm
  obtain ⟨r, hr, rfl⟩ := hm
  exact ⟨rfl, rfl, r, hr, ⟨rfl, rfl, rfl, rfl, rfl, rfl⟩⟩

theorem follows (h : Reflects c answers t) : Follows c answers t where
  history := h.history_iff
  visible := h.marker_visible
  shown _ _ hm := h.marker_shown hm
  listed _ := Tracker.mem_markers h.valid
  devices id := by
    rw [← h.marker_visible, Tracker.mem_deviceIds h.valid]
  ascending := Tracker.markers_sorted h.valid
  size := t.markers_length.symm

end Reflects

/-- The state of a service that nobody has called yet. -/
def State.fresh {σ : Type} (world : σ) (journal : Journal) : State σ := ⟨.empty, world, journal⟩

/-- The map is determined by the log of answers, and every answer by what was visible before it. -/
theorem map_follows_accepted_readings {σ : Type} (v : Service σ) (world : σ) (journal : Journal)
    (requests : List Request) :
    Follows v.settings (v.run requests (.fresh world journal)).2
        (v.run requests (.fresh world journal)).1.tracker ∧
      (journal.metrics.get .activeMarkers = 0 → (∀ l ∈ v.listeners, l.KeepsGauge) →
        (v.run requests (.fresh world journal)).1.gauge =
          (v.run requests (.fresh world journal)).1.tracker.size) ∧
      (v.run requests (.fresh world journal)).2.length = requests.length ∧
      ∀ i q, requests[i]? = some q →
        ∃ answer, (v.run requests (.fresh world journal)).2[i]? = some answer ∧
          Answered v (v.run (requests.take i) (.fresh world journal)).1 q answer := by
  refine ⟨?_, fun hj hl => v.run_gauge hl requests _ hj, v.run_length requests _, fun i q hq => ?_⟩
  · exact (Reflects.run v requests (.fresh world journal) (.empty v.settings)).follows
  · exact ⟨_, by rw [v.run_getElem?, hq]; rfl, v.serve_answered q _⟩

end BinFleet.Fleet
