import BinFleet.Proofs.Coordinate
import BinFleet.Proofs.Fill
import BinFleet.Proofs.Fleet.AcceptedLog
import BinFleet.Proofs.Marker

namespace BinFleet

open Number (isFinite)

/-- A bind succeeds when both of its parts do. -/
theorem bind_ok_iff {ε α β : Type} {x : Except ε α} {f : α → Except ε β} :
    (∃ b, (x >>= f) = .ok b) ↔ ∃ a, x = .ok a ∧ ∃ b, f a = .ok b := by
  cases x with
  | error e => simp [Bind.bind, Except.bind]
  | ok a => simp [Bind.bind, Except.bind]

theorem pure_ok {ε α : Type} (a : α) : ∃ b, (pure a : Except ε α) = .ok b := ⟨a, rfl⟩

theorem mapM_ok_iff {ε α β : Type} {f : α → Except ε β} {xs : List α} :
    (∃ ys, xs.mapM f = .ok ys) ↔ ∀ x ∈ xs, ∃ y, f x = .ok y := by
  induction xs with
  | nil => exact ⟨fun _ _ h => absurd h List.not_mem_nil, fun _ => ⟨[], rfl⟩⟩
  | cons x rest ih =>
    simp only [List.mapM_cons, bind_ok_iff, pure_ok, and_true, ih, exists_and_right, List.forall_mem_cons]

/-- Instants that can be exchanged: a year of four digits, an offset below a day. -/
structure Time.Instant.Writable (t : Time.Instant) : Prop where
  year : 0 ≤ t.date.year ∧ t.date.year ≤ 9999
  offset : t.offset.natAbs < 24 * 3600

theorem Time.Instant.text_ok_iff {t : Time.Instant} : (∃ text, t.text = .ok text) ↔ t.Writable := by
  rw [text]
  split_ifs with hyear hoffset
  · simp only [exists_false, false_iff]
    exact fun h => absurd h.year (by omega)
  · simp only [exists_false, false_iff]
    exact fun h => absurd h.offset (by omega)
  · exact iff_of_true ⟨_, rfl⟩ ⟨by omega, by omega⟩

namespace Json

theorem ofFloat_ok_iff {x : Float} : (∃ j, ofFloat x = .ok j) ↔ isFinite x = true := by
  rw [ofFloat]
  split_ifs with h <;> simp [h]

theorem ofInstant_ok_iff {t : Time.Instant} : (∃ j, ofInstant t = .ok j) ↔ t.Writable := by
  rw [← Time.Instant.text_ok_iff]
  unfold ofInstant
  generalize t.text = written
  cases written <;> simp

end Json

theorem Icon.toJson_ok {i : Icon} (h : i.Finite) : ∃ j, i.toJson = .ok j :=
  let ⟨j, hj, _⟩ := Icon.survives h 0
  ⟨j, hj⟩

/-- Markers with finite numbers and a time that can be exchanged. -/
structure Marker.Writable (m : Marker) : Prop where
  lat : isFinite m.position.lat = true
  lng : isFinite m.position.lng = true
  distance : isFinite m.distance = true
  percent : isFinite m.percent = true
  time : m.updatedAt.Writable

theorem Marker.toJson_ok_iff {m : Marker} (hicon : m.icon.Finite) : (∃ j, m.toJson = .ok j) ↔ m.Writable := by
  simp only [toJson, Position.toJson, bind_ok_iff, pure_ok, and_true, exists_and_right, Json.ofFloat_ok_iff,
    Json.ofInstant_ok_iff, Icon.toJson_ok hicon, true_and]
  constructor
  · rintro ⟨⟨hlat, hlng⟩, hdistance, hpercent, htime⟩
    exact ⟨hlat, hlng, hdistance, hpercent, htime⟩
  · intro h
    exact ⟨⟨h.lat, h.lng⟩, h.distance, h.percent, h.time⟩

namespace Fleet

/-- What the marker of an accepted reading can be relied on for. -/
structure Sound (c : Settings) (r : Reading) (m : Marker) : Prop where
  distance : isFinite m.distance = true ∧ 0.0 ≤ m.distance
  percent : isFinite m.percent = isFinite (100 * Fill.clamped m.distance c.maxDistance)
  /-- A share that is a number may be one step above a hundred. -/
  bounds : isFinite m.percent = true → 0.0 ≤ m.percent ∧ m.percent ≤ 100.00000000000001
  ranged : isFinite (100 * c.maxDistance) = true → isFinite m.percent = true
  lat : isFinite m.position.lat = isFinite (r.lat / (100 * r.latScale))
  lng : c.sharedScale = false ∨ r.longScale.abs ≤ r.latScale.abs →
    isFinite m.position.lng = isFinite (r.long / (100 * r.longScale))
  /-- Minutes in a finer scale than that of the degrees may lie out of range, alone or with the degrees. -/
  lngShared : c.sharedScale = true → (isFinite m.position.lng = true ↔ ∃ degrees minutes,
    Number.Double.Denotes (Number.floor (r.long / (100 * r.longScale))) degrees ∧
    Number.Double.Denotes (Number.remainder r.long (100 * r.longScale) / (60 * r.latScale)) minutes ∧
    |degrees + minutes| < (2 ^ 53 - 1 / 2) * 2 ^ (971 : ℤ))
  written : (∃ j, m.toJson = .ok j) ↔ m.Writable

theorem abs_le_abs {x : Float} (h : isFinite x = true) : x.abs ≤ x.abs := by
  obtain ⟨a, d, hx⟩ := Number.isFinite_iff.mp h
  rw [Number.Double.le_iff_of_finite (Number.Double.ofFloat_abs hx) (Number.Double.ofFloat_abs hx)]

variable {c : Settings} {r : Reading} {m : Marker}

theorem Shows.sound (h : Shows c r m) (hrange : ¬ c.maxDistance ≤ 0.0) (hr : r.Acceptable) : Sound c r m where
  distance := by
    rw [h.distance]
    exact ⟨hr.distance, hr.nonneg⟩
  percent := by
    rw [h.percent, h.distance]
    exact Fill.isFinite_percentage hrange hr.distance hr.nonneg
  bounds := by
    rw [h.percent]
    exact Fill.percentage_bounds hrange hr.distance hr.nonneg
  ranged := by
    rw [h.percent]
    exact Fill.isFinite_percentage_of_range hrange hr.distance hr.nonneg
  lat := by
    rw [h.position]
    exact Coordinate.isFinite_decodeWith hr.lat hr.latScale hr.latScale (abs_le_abs hr.latScale.1)
  lng := by
    rw [h.position]
    intro hscale
    by_cases hshared : c.sharedScale = true
    · have hle := hscale.resolve_left (by simp [hshared])
      simp only [Reading.position, hshared, if_true]
      exact Coordinate.isFinite_decodeWith hr.long hr.longScale hr.latScale hle
    · simp only [Reading.position, if_neg hshared]
      exact Coordinate.isFinite_decodeWith hr.long hr.longScale hr.longScale (abs_le_abs hr.longScale.1)
  lngShared hshared := by
    rw [h.position]
    simp only [Reading.position, hshared, if_true]
    exact Coordinate.isFinite_add_iff
  written := by
    refine Marker.toJson_ok_iff ?_
    rw [h.icon]
    exact Icon.pin_finite _

/-- An update that an accepted reading made. -/
structure Issued (c : Settings) (u : MarkerUpdate) : Prop where
  acceptable : u.reading.Acceptable
  shows : Shows c u.reading u.marker
  timestamp : u.timestamp = u.marker.updatedAt

/-- All visible markers were issued. -/
def Stands (c : Settings) (t : Tracker) : Prop := ∀ m ∈ t.markers, ∃ u : MarkerUpdate, Issued c u ∧ u.marker = m

/-- A visible marker was there before or is new. -/
theorem Changed.mem_markers {t t' : Tracker} {a : Except Fault Notice} (h : Changed c t t' a) (hm : m ∈ t'.markers) :
    m ∈ t.markers ∨ ∃ u : MarkerUpdate, a = .ok (.updated u) ∧ u.marker = m := by
  obtain ⟨p, hp, rfl⟩ := List.mem_map.mp hm
  cases h with
  | refused f => exact .inl hm
  | updated r =>
    rcases Tracker.mem_insert hp with rfl | hp
    · exact .inr ⟨_, rfl, rfl⟩
    · exact .inl (List.mem_map_of_mem hp)
  | removed _ => exact .inl (List.mem_map_of_mem (List.mem_of_mem_filter hp))

namespace Service

variable {σ : Type} (v : Service σ)

theorem serve_issued {q : Request} {s : State σ} {u : MarkerUpdate} (h : (v.serve q s).2 = .ok (.updated u)) :
    Issued v.settings u := by
  have hanswered := v.serve_answered q s
  have hchanged := v.serve_changed q s
  rw [h] at hanswered hchanged
  have hacceptable : u.reading.Acceptable := by
    cases hanswered with
    | accepted _ hvalid hreading _ =>
      rw [hreading]
      exact v.arrive_acceptable ((Reading.checks_isValid _).mp hvalid) s
  generalize (v.serve q s).1.tracker = t at hchanged
  cases hchanged with
  | updated r => exact ⟨hacceptable, ⟨rfl, rfl, rfl, rfl, rfl, rfl⟩, rfl⟩

theorem serve_stands (q : Request) {s : State σ} (h : Stands v.settings s.tracker) :
    Stands v.settings (v.serve q s).1.tracker := by
  intro m hm
  rcases (v.serve_changed q s).mem_markers hm with hold | ⟨u, hu, rfl⟩
  · exact h m hold
  · exact ⟨u, v.serve_issued hu, rfl⟩

theorem run_stands (requests : List Request) {s : State σ} (h : Stands v.settings s.tracker) :
    Stands v.settings (v.run requests s).1.tracker := by
  induction requests generalizing s with
  | nil => exact h
  | cons q rest ih => exact ih (v.serve_stands q h)

theorem run_issued (requests : List Request) {s : State σ} {u : MarkerUpdate}
    (h : .ok (.updated u) ∈ (v.run requests s).2) : Issued v.settings u := by
  induction requests generalizing s with
  | nil => cases h
  | cons q rest ih =>
    rcases List.mem_cons.mp h with hfirst | hrest
    · exact v.serve_issued hfirst.symm
    · exact ih hrest

end Service

end Fleet

end BinFleet
