import BinFleet.Proofs.Nearest
import BinFleet.Proofs.Number.Trig
import BinFleet.Proofs.Number.Written
import BinFleet.Proofs.Reading
import BinFleet.Web.NearbyQuery

namespace BinFleet

open Number Number.Double Number.Trig

namespace Position

/-- The square of half the chord between two positions, on a globe of radius one. -/
def haversine (p q : Position) : Float :=
  let sLat := sine (radians (q.lat - p.lat) / 2.0)
  let sLng := sine (radians (q.lng - p.lng) / 2.0)
  sLat * sLat + cosine (radians p.lat) * cosine (radians q.lat) * sLng * sLng

theorem distance_eq (p q : Position) :
    p.distance q = earthRadius * 2.0 * angle (p.haversine q).sqrt (1.0 - p.haversine q).sqrt := rfl

/-- The haversine came out as one of a globe. -/
def Measured (p q : Position) : Prop := 0.0 ≤ p.haversine q ∧ p.haversine q ≤ 1.0

instance (p q : Position) : Decidable (p.Measured q) := inferInstanceAs (Decidable (_ ∧ _))

/-- One of the two roots is lost outside the unit interval. -/
theorem root_undefined {h : Float} (hbounds : ¬ (0.0 ≤ h ∧ h ≤ 1.0)) :
    ofFloat h.sqrt = .undefined ∨ ofFloat (1.0 - h).sqrt = .undefined := by
  cases hh : ofFloat h with
  | undefined => exact .inl (ofFloat_sqrt_undefined (.inl hh))
  | infinite a =>
    cases a with
    | true => exact .inl (ofFloat_sqrt_undefined (.inr (.inl hh)))
    | false =>
      have hrest : ofFloat (1.0 - h) = .infinite true := by
        obtain ⟨b, d, hone, -⟩ := within_one.denotes
        rw [ofFloat_sub, hone, hh]
        rfl
      exact .inr (ofFloat_sqrt_undefined (.inr (.inl hrest)))
  | finite a d =>
    have hq : Denotes h (signed a d.value) := ⟨a, d, hh, rfl⟩
    rw [within_zero.denotes.le_iff hq, hq.le_iff within_one.denotes, Int.cast_zero, Int.cast_one, not_and_or, not_le,
      not_le] at hbounds
    rcases hbounds with hneg | hlarge
    · left
      have hvalue := value_nonneg d
      cases a with
      | false => exact absurd hneg (not_lt.mpr hvalue)
      | true =>
        refine ofFloat_sqrt_undefined (.inr (.inr ⟨d, hh, Nat.pos_of_ne_zero fun hzero => ?_⟩))
        simp [signed, Scaled.value, hzero] at hneg
    · -- doubles are never so close that their difference vanishes
      right
      have hsub := within_one.denotes.sub_of_lt hq (by rwa [Int.cast_one])
      exact ofFloat_sqrt_undefined (.inr hsub)

variable {p q : Position}

theorem distance_within (h : p.Measured q) : Within (p.distance q) (-(12742000 * 2000000)) (12742000 * 2000000) := by
  have hhaversine : Within (p.haversine q) 0 1 := Within.of_le within_zero within_one h.1 h.2
  have hrest : Within (1.0 - p.haversine q) 0 1 := within_one.sub hhaversine (by decide) (by decide)
  have hdiameter : Within (earthRadius * 2.0) (-12742000) 12742000 := by decide +kernel
  rw [distance_eq]
  exact hdiameter.mul (angle_within hhaversine.sqrt hrest.sqrt) (by decide)

/-- A distance is a number when the haversine is proper, and only then. -/
theorem distance_undefined_iff : ofFloat (p.distance q) = .undefined ↔ ¬ p.Measured q := by
  constructor
  · intro hundefined hmeasured
    exact (distance_within hmeasured).ne_undefined hundefined
  · intro hmeasured
    rw [distance_eq, ofFloat_mul, angle_undefined (root_undefined hmeasured), mul_undefined]

theorem unbounded_of_isFinite {x : Float} (h : isFinite x = false) : Unbounded (ofFloat x) := by
  cases hx : ofFloat x with
  | finite a d => exact absurd (isFinite_iff.mpr ⟨a, d, hx⟩) (by simp [h])
  | infinite a => exact .inr ⟨a, rfl⟩
  | undefined => exact .inl rfl

theorem sine_unbounded {x : Float} (h : isFinite x = false) (y : Float) :
    ofFloat (sine (radians (x - y) / 2.0)) = .undefined := by
  have hpi : ofFloat pi = .finite false ⟨7074237752028440, -51⟩ := by decide
  have hturn : ofFloat 180.0 = .finite false ⟨6333186975989760, -45⟩ := by decide
  have htwo : ofFloat 2.0 = .finite false ⟨4503599627370496, -51⟩ := by decide
  apply sine_undefined
  rw [radians, ofFloat_div, ofFloat_div, ofFloat_mul, ofFloat_sub, hpi, hturn, htwo]
  exact ((((unbounded_of_isFinite h).add _).mul _ (by decide)).div _ _).div _ _

/-- A position that is not finite is at no distance from anything. -/
theorem not_measured_of_unbounded (h : isFinite q.lat = false ∨ isFinite q.lng = false) : ¬ p.Measured q := by
  have hundefined : ofFloat (p.haversine q) = .undefined := by
    rw [haversine, ofFloat_add]
    rcases h with hlat | hlng
    · rw [ofFloat_mul, sine_unbounded hlat, undefined_mul, undefined_add]
    · rw [ofFloat_mul (_ * _ * _), sine_unbounded hlng, mul_undefined, add_undefined]
  intro hmeasured
  exact (ne_undefined_of_le hmeasured.1).2 hundefined

end Position

section Search

variable {markers : List Marker} {centre : Position} {radius : Float} {limit : Int}

theorem mem_candidates {distance : Marker → Float} {e : NearbyMarker} (h : e ∈ candidates distance markers radius) :
    e.marker ∈ markers ∧ e.distance = distance e.marker ∧ ¬ (0.0 < radius ∧ radius < e.distance) := by
  obtain ⟨m, hm, rfl⟩ := List.mem_map.mp h
  obtain ⟨hmem, hwithin⟩ := List.mem_filter.mp hm
  exact ⟨hmem, rfl, of_decide_eq_true hwithin⟩

theorem mem_nearest {e : NearbyMarker} (h : e ∈ nearest markers centre radius limit) :
    e.marker ∈ markers ∧ e.distance = centre.distance e.marker.position ∧ ¬ (0.0 < radius ∧ radius < e.distance) := by
  rw [nearest, nearestBy_eq] at h
  exact mem_candidates (List.mem_mergeSort.mp (List.mem_of_mem_take h))

/-- Nothing is sorted in front of what has no distance but the like. -/
theorem NearbyMarker.mergeSort_first_undefined {all : List NearbyMarker} {entry : NearbyMarker} (hentry : entry ∈ all)
    (h : ofFloat entry.distance = .undefined) :
    ∃ first rest, all.mergeSort precedes = first :: rest ∧ ofFloat first.distance = .undefined := by
  have hsorted := pairwise_mergeSort all
  have hmem : entry ∈ all.mergeSort precedes := List.mem_mergeSort.mpr hentry
  cases hfirst : all.mergeSort precedes with
  | nil =>
    rw [hfirst] at hmem
    cases hmem
  | cons first rest =>
    rw [hfirst] at hmem hsorted
    have hle : first.key ≤ entry.key := by
      rcases List.mem_cons.mp hmem with rfl | hrest
      · exact le_rfl
      · exact List.rel_of_pairwise_cons hsorted hrest
    have hbot : place entry.distance = ⊥ := place_eq_bot_iff.mpr (bne_self_iff.mpr h)
    have hplace : place first.distance = ⊥ := by
      rw [key, key, hbot, Prod.Lex.toLex_le_toLex] at hle
      rcases hle with hlt | ⟨heq, -⟩
      · exact absurd hlt not_lt_bot
      · exact heq
    exact ⟨first, rest, rfl, bne_self_iff.mp (place_eq_bot_iff.mp hplace)⟩

theorem shownCount_pos (limit : Int) {n : ℕ} (h : 0 < n) : 0 < shownCount limit n := by
  unfold shownCount
  split_ifs <;> omega

/-- No radius and no limit keep out a bin without a distance, or put another one in front. -/
theorem nearest_first_undefined {m : Marker} (hm : m ∈ markers) (h : ¬ centre.Measured m.position) (radius : Float)
    (limit : Int) :
    ∃ first rest, nearest markers centre radius limit = first :: rest ∧ ofFloat first.distance = .undefined := by
  have hundefined := Position.distance_undefined_iff.mpr h
  have hentry : NearbyMarker.mk m (centre.distance m.position) ∈
      candidates (fun m => centre.distance m.position) markers radius := by
    have hbeyond : ¬ radius < centre.distance m.position := fun hlt => (ne_undefined_of_lt hlt).2 hundefined
    exact List.mem_map.mpr ⟨m, List.mem_filter.mpr ⟨hm, decide_eq_true fun hfar => hbeyond hfar.2⟩, rfl⟩
  obtain ⟨first, rest, hsorted, hfirst⟩ := NearbyMarker.mergeSort_first_undefined hentry hundefined
  obtain ⟨n, hn⟩ := Nat.exists_eq_succ_of_ne_zero (shownCount_pos limit (List.length_pos_of_mem hentry)).ne'
  rw [nearest, nearestBy_eq, hsorted, hn, List.take_succ_cons]
  exact ⟨first, _, rfl, hfirst⟩

theorem exists_beyond {m : Marker} (hm : m ∈ markers) (h : ¬ centre.Measured m.position) (radius : Float) (limit : Int) :
    ∃ e ∈ nearest markers centre radius limit, ¬ e.distance ≤ radius := by
  obtain ⟨first, rest, hfound, hundefined⟩ := nearest_first_undefined hm h radius limit
  refine ⟨first, ?_, fun hle => (ne_undefined_of_le hle).1 hundefined⟩
  rw [hfound]
  exact List.mem_cons_self

/-- What is found lies within the radius or has no distance. -/
theorem nearest_entry (hradius : 0.0 < radius) {e : NearbyMarker} (he : e ∈ nearest markers centre radius limit) :
    (centre.Measured e.marker.position → e.distance ≤ radius) ∧
      (¬ centre.Measured e.marker.position → (e.distance != e.distance) = true) := by
  obtain ⟨-, hdistance, hwithin⟩ := mem_nearest he
  constructor
  · intro hmeasured
    apply le_of_not_lt
    · rw [hdistance]
      exact (Position.distance_within hmeasured).ne_undefined
    · exact (ne_undefined_of_lt hradius).2
    · intro hlt
      exact hwithin ⟨hradius, hlt⟩
  · intro hmeasured
    rw [hdistance]
    exact bne_self_iff.mpr (Position.distance_undefined_iff.mpr hmeasured)

/-- A search with a radius finds bins of the fleet at their own distances. What is measured is within
the radius and what is not measured has no distance at all, so all that is found is within the radius
if and only if the whole fleet is measured. A bin whose position is not finite never is: whatever the
limit, then, the first bin that is found has no distance. -/
theorem radius_search_finds_within_iff (markers : List Marker) (centre : Position) (hradius : 0.0 < radius)
    (limit : Int) :
    (∀ e ∈ nearest markers centre radius limit,
      e.marker ∈ markers ∧ e.distance = centre.distance e.marker.position ∧
        (centre.Measured e.marker.position → e.distance ≤ radius) ∧
        (¬ centre.Measured e.marker.position → (e.distance != e.distance) = true)) ∧
      ((∀ e ∈ nearest markers centre radius limit, e.distance ≤ radius) ↔ ∀ m ∈ markers, centre.Measured m.position) ∧
      ∀ m ∈ markers, isFinite m.position.lat = false ∨ isFinite m.position.lng = false →
        ∃ first rest, nearest markers centre radius limit = first :: rest ∧
          (first.distance != first.distance) = true := by
  refine ⟨?_, ⟨?_, ?_⟩, ?_⟩
  · intro e he
    obtain ⟨hmem, hdistance, -⟩ := mem_nearest he
    exact ⟨hmem, hdistance, nearest_entry hradius he⟩
  · intro hall m hm
    by_contra hmeasured
    obtain ⟨e, he, hbeyond⟩ := exists_beyond hm hmeasured radius limit
    exact hbeyond (hall e he)
  · intro hall e he
    exact (nearest_entry hradius he).1 (hall _ (mem_nearest he).1)
  · intro m hm hunbounded
    obtain ⟨first, rest, hfound, hundefined⟩ :=
      nearest_first_undefined hm (Position.not_measured_of_unbounded hunbounded) radius limit
    exact ⟨first, rest, hfound, bne_self_iff.mpr hundefined⟩

end Search

namespace Lost

/-- A reading that passes its checks, with a scale that the latitude cannot be divided by. -/
def overflowing : Reading :=
  { id := "7", distance := 50.0, lat := 3130.0, latScale := 1e-308, long := 5260.0, longScale := 1.0 }

def bin (position : Position) : Marker := { deviceId := "7", position }

/-- At the gate, and nowhere. -/
def bins : List Marker := [bin ⟨31.5, 53.0⟩, bin (overflowing.position false)]

/-- The bin at the gate is found alone, and the lost one is found in its place. -/
theorem lost_bin_takes_first_place : (0.0 : Float) < 10.0 ∧
    (∀ e ∈ nearest (bins.take 1) ⟨31.5, 53.0⟩ 10.0 1, e.distance ≤ 10.0) ∧
    ∃ first rest, nearest bins ⟨31.5, 53.0⟩ 10.0 1 = first :: rest ∧ (first.distance != first.distance) = true := by
  have hradius : (0.0 : Float) < 10.0 := by decide +kernel
  obtain ⟨-, hwithin, -⟩ := radius_search_finds_within_iff (bins.take 1) ⟨31.5, 53.0⟩ hradius 1
  obtain ⟨-, -, hfirst⟩ := radius_search_finds_within_iff bins ⟨31.5, 53.0⟩ hradius 1
  refine ⟨hradius, hwithin.mpr (by decide +kernel), ?_⟩
  exact hfirst (bin (overflowing.position false)) (by simp [bins]) (.inl (by decide +kernel))

/-- The search that a text asks for, let through by all checks. -/
structure Accepted (text : String) (query : Web.NearbyQuery) : Prop where
  parsed : (Web.NearbyQuery.parse {} (Url.Query.parse text)).2 = query
  valid : (query.validate (Web.NearbyQuery.parse {} (Url.Query.parse text)).1).isValid = true

/-- Neither the checks of readings nor those of searches keep lost bins out, and two places on the globe
are lost to each other when rounding takes the haversine above one. -/
theorem radius_search_finds_lost_bins : (overflowing.checks {}).isValid = true ∧
    (∃ query, Accepted "lat=31.5&lng=53&radius=10" query ∧ 0.0 < query.radius ∧
      ∃ e ∈ nearest [bin (overflowing.position false)] ⟨query.lat, query.lng⟩ query.radius query.limit,
        ¬ e.distance ≤ query.radius) ∧
    ∃ query, Accepted "lat=-84&lng=-150&radius=10" query ∧ 0.0 < query.radius ∧
      ∃ e ∈ nearest [bin ⟨84.0, 30.0⟩] ⟨query.lat, query.lng⟩ query.radius query.limit, ¬ e.distance ≤ query.radius := by
  refine ⟨by decide +kernel, ⟨_, ⟨rfl, by decide +kernel⟩, by decide +kernel, ?_⟩,
    ⟨_, ⟨rfl, by decide +kernel⟩, by decide +kernel, ?_⟩⟩
  · exact exists_beyond List.mem_cons_self (by decide +kernel) _ _
  · exact exists_beyond List.mem_cons_self (by decide +kernel) _ _

end Lost

end BinFleet
