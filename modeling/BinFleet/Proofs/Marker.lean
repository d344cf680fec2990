import BinFleet.Marker
import BinFleet.Proofs.Json.Value

namespace BinFleet

open Json

namespace Position

theorem setField_keys (p : Position) (v : Json) :
    p.setField (unescape "lat") v = (v.toFloat p.lat).map (fun x => { p with lat := x }) ∧
      p.setField (unescape "lng") v = (v.toFloat p.lng).map (fun x => { p with lng := x }) :=
  ⟨rfl, rfl⟩

theorem survives {p : Position} (hlat : Number.isFinite p.lat = true) (hlng : Number.isFinite p.lng = true) (limit : ℕ) :
    Survives p.toJson (limit + 1) (overFields setField) p := by
  obtain ⟨lat, hlat, hlatFits, hlatRead⟩ := float_survives hlat limit
  obtain ⟨lng, hlng, hlngFits, hlngRead⟩ := float_survives hlng limit
  have hchange : Change setField [("lat", lat), ("lng", lng)]
      [fun q => { q with lat := p.lat }, fun q => { q with lng := p.lng }] :=
    .cons (fun q => (setField_keys q lat).1.trans (map_of_eq (hlatRead q.lat) _)) <|
      .cons (fun q => (setField_keys q lng).2.trans (map_of_eq (hlngRead q.lng) _)) .nil
  refine ⟨.object [("lat", lat), ("lng", lng)], ?_, ?_, hchange.overFields⟩
  · rw [toJson, hlat, hlng]
    rfl
  · exact fits_object (fitFields_cons rfl hlatFits (fitFields_cons rfl hlngFits (fitFields_nil limit)))

end Position

namespace Icon

/-- All numbers of an icon are finite. -/
structure Finite (i : Icon) : Prop where
  fillOpacity : Number.isFinite i.fillOpacity = true
  strokeWeight : Number.isFinite i.strokeWeight = true
  rotation : Number.isFinite i.rotation = true
  scale : Number.isFinite i.scale = true
  anchorX : Number.isFinite i.anchorX = true
  anchorY : Number.isFinite i.anchorY = true

theorem pin_finite (color : String) : (pin color).Finite := by
  have hnumbers : ∀ x ∈ [1.0, 0.0, 0.0, 1.4, 15.0, 30.0], Number.isFinite x = true := by decide +kernel
  constructor <;> exact hnumbers _ (by simp [pin])

theorem setAnchorField_keys (i : Icon) (v : Json) :
    i.setAnchorField (unescape "x") v = (v.toFloat i.anchorX).map (fun x => { i with anchorX := x }) ∧
      i.setAnchorField (unescape "y") v = (v.toFloat i.anchorY).map (fun x => { i with anchorY := x }) :=
  ⟨rfl, rfl⟩

theorem setField_keys (i : Icon) (v : Json) :
    i.setField (unescape "path") v = (v.toText i.path).map (fun x => { i with path := x }) ∧
      i.setField (unescape "fillColor") v = (v.toText i.fillColor).map (fun x => { i with fillColor := x }) ∧
      i.setField (unescape "fillOpacity") v = (v.toFloat i.fillOpacity).map (fun x => { i with fillOpacity := x }) ∧
      i.setField (unescape "strokeWeight") v = (v.toFloat i.strokeWeight).map (fun x => { i with strokeWeight := x }) ∧
      i.setField (unescape "rotation") v = (v.toFloat i.rotation).map (fun x => { i with rotation := x }) ∧
      i.setField (unescape "scale") v = (v.toFloat i.scale).map (fun x => { i with scale := x }) ∧
      i.setField (unescape "anchor") v = v.overFields setAnchorField i :=
  ⟨rfl, rfl, rfl, rfl, rfl, rfl, rfl⟩

theorem survives {i : Icon} (h : i.Finite) (limit : ℕ) : Survives i.toJson (limit + 2) (overFields setField) i := by
  obtain ⟨fillOpacity, hopacity, hopacityFits, hopacityRead⟩ := float_survives h.fillOpacity (limit + 1)
  obtain ⟨strokeWeight, hstroke, hstrokeFits, hstrokeRead⟩ := float_survives h.strokeWeight (limit + 1)
  obtain ⟨rotation, hrotation, hrotationFits, hrotationRead⟩ := float_survives h.rotation (limit + 1)
  obtain ⟨scale, hscale, hscaleFits, hscaleRead⟩ := float_survives h.scale (limit + 1)
  obtain ⟨x, hx, hxFits, hxRead⟩ := float_survives h.anchorX limit
  obtain ⟨y, hy, hyFits, hyRead⟩ := float_survives h.anchorY limit
  have hanchor : Change setAnchorField [("x", x), ("y", y)]
      [fun a => { a with anchorX := i.anchorX }, fun a => { a with anchorY := i.anchorY }] :=
    .cons (fun a => (setAnchorField_keys a x).1.trans (map_of_eq (hxRead a.anchorX) _)) <|
      .cons (fun a => (setAnchorField_keys a y).2.trans (map_of_eq (hyRead a.anchorY) _)) .nil
  have hchange : Change setField [("path", .ofText i.path), ("fillColor", .ofText i.fillColor),
      ("fillOpacity", fillOpacity), ("strokeWeight", strokeWeight), ("rotation", rotation), ("scale", scale),
      ("anchor", .object [("x", x), ("y", y)])]
      [fun a => { a with path := i.path }, fun a => { a with fillColor := i.fillColor },
        fun a => { a with fillOpacity := i.fillOpacity }, fun a => { a with strokeWeight := i.strokeWeight },
        fun a => { a with rotation := i.rotation }, fun a => { a with scale := i.scale },
        fun a => { a with anchorX := i.anchorX, anchorY := i.anchorY }] :=
    .cons (fun a => (setField_keys a _).1.trans (map_of_eq (toText_ofText a.path i.path) _)) <|
    .cons (fun a => (setField_keys a _).2.1.trans (map_of_eq (toText_ofText a.fillColor i.fillColor) _)) <|
    .cons (fun a => (setField_keys a fillOpacity).2.2.1.trans (map_of_eq (hopacityRead a.fillOpacity) _)) <|
    .cons (fun a => (setField_keys a strokeWeight).2.2.2.1.trans (map_of_eq (hstrokeRead a.strokeWeight) _)) <|
    .cons (fun a => (setField_keys a rotation).2.2.2.2.1.trans (map_of_eq (hrotationRead a.rotation) _)) <|
    .cons (fun a => (setField_keys a scale).2.2.2.2.2.1.trans (map_of_eq (hscaleRead a.scale) _)) <|
    .cons (fun a => (setField_keys a _).2.2.2.2.2.2.trans (hanchor.overFields a)) .nil
  refine ⟨_, ?_, ?_, hchange.overFields⟩
  · rw [toJson, hopacity, hstroke, hrotation, hscale, hx, hy]
    rfl
  · exact fits_object <| fitFields_cons rfl (fits_ofText _ _) <| fitFields_cons rfl (fits_ofText _ _) <|
      fitFields_cons rfl hopacityFits <| fitFields_cons rfl hstrokeFits <| fitFields_cons rfl hrotationFits <|
      fitFields_cons rfl hscaleFits <| fitFields_cons rfl (fits_object <| fitFields_cons rfl hxFits <|
        fitFields_cons rfl hyFits (fitFields_nil _)) (fitFields_nil _)

end Icon

namespace Marker

/-- Finite numbers, a count of 64 bits and a time that can be exchanged. -/
structure Exchangeable (m : Marker) : Prop where
  lat : Number.isFinite m.position.lat = true
  lng : Number.isFinite m.position.lng = true
  distance : Number.isFinite m.distance = true
  percent : Number.isFinite m.percent = true
  icon : m.icon.Finite
  readings : 0 ≤ m.readings ∧ m.readings < 2 ^ 63
  regular : m.updatedAt.Regular
  offset : m.updatedAt.offset.natAbs < 24 * 3600

theorem setField_keys (m : Marker) (v : Json) :
    m.setField (unescape "device_id") v = (v.toText m.deviceId).map (fun x => { m with deviceId := x }) ∧
      m.setField (unescape "position") v =
        (v.overFields Position.setField m.position).map (fun x => { m with position := x }) ∧
      m.setField (unescape "distance") v = (v.toFloat m.distance).map (fun x => { m with distance := x }) ∧
      m.setField (unescape "percent") v = (v.toFloat m.percent).map (fun x => { m with percent := x }) ∧
      m.setField (unescape "color") v = (v.toText m.color).map (fun x => { m with color := x }) ∧
      m.setField (unescape "icon") v = (v.overFields Icon.setField m.icon).map (fun x => { m with icon := x }) ∧
      m.setField (unescape "readings") v = (v.toInt m.readings).map (fun x => { m with readings := x }) ∧
      m.setField (unescape "updated_at") v = (v.toInstant m.updatedAt).map (fun x => { m with updatedAt := x }) :=
  ⟨rfl, rfl, rfl, rfl, rfl, rfl, rfl, rfl⟩

theorem survives {m : Marker} (h : m.Exchangeable) (limit : ℕ) : Survives m.toJson (limit + 3) (overFields setField) m := by
  obtain ⟨position, hposition, hpositionFits, hpositionRead⟩ := Position.survives h.lat h.lng (limit + 1)
  obtain ⟨distance, hdistance, hdistanceFits, hdistanceRead⟩ := float_survives h.distance (limit + 2)
  obtain ⟨percent, hpercent, hpercentFits, hpercentRead⟩ := float_survives h.percent (limit + 2)
  obtain ⟨icon, hicon, hiconFits, hiconRead⟩ := Icon.survives h.icon limit
  obtain ⟨updatedAt, htime, htimeFits, htimeRead⟩ := instant_survives h.regular h.offset (limit + 2)
  obtain ⟨n, hn⟩ := Int.eq_ofNat_of_zero_le h.readings.1
  have hcount : n < 2 ^ 63 := by
    have := h.readings.2
    omega
  have hreadings (old : ℤ) : toInt old (ofInt m.readings) = .ok m.readings := hn ▸ toInt_ofInt old hcount
  have hreadingsFits : Fits (ofInt m.readings) (limit + 2) := hn ▸ fits_ofInt n (limit + 2)
  have hchange : Change setField [("device_id", .ofText m.deviceId), ("position", position), ("distance", distance),
      ("percent", percent), ("color", .ofText m.color), ("icon", icon), ("readings", .ofInt m.readings),
      ("updated_at", updatedAt)]
      [fun a => { a with deviceId := m.deviceId }, fun a => { a with position := m.position },
        fun a => { a with distance := m.distance }, fun a => { a with percent := m.percent },
        fun a => { a with color := m.color }, fun a => { a with icon := m.icon },
        fun a => { a with readings := m.readings }, fun a => { a with updatedAt := m.updatedAt }] :=
    .cons (fun a => (setField_keys a _).1.trans (map_of_eq (toText_ofText a.deviceId m.deviceId) _)) <|
    .cons (fun a => (setField_keys a position).2.1.trans (map_of_eq (hpositionRead a.position) _)) <|
    .cons (fun a => (setField_keys a distance).2.2.1.trans (map_of_eq (hdistanceRead a.distance) _)) <|
    .cons (fun a => (setField_keys a percent).2.2.2.1.trans (map_of_eq (hpercentRead a.percent) _)) <|
    .cons (fun a => (setField_keys a _).2.2.2.2.1.trans (map_of_eq (toText_ofText a.color m.color) _)) <|
    .cons (fun a => (setField_keys a icon).2.2.2.2.2.1.trans (map_of_eq (hiconRead a.icon) _)) <|
    .cons (fun a => (setField_keys a _).2.2.2.2.2.2.1.trans (map_of_eq (hreadings a.readings) _)) <|
    .cons (fun a => (setField_keys a updatedAt).2.2.2.2.2.2.2.trans (map_of_eq (htimeRead a.updatedAt) _)) .nil
  refine ⟨_, ?_, ?_, hchange.overFields⟩
  · rw [toJson, hposition, hdistance, hpercent, hicon, htime]
    rfl
  · exact fits_object <| fitFields_cons rfl (fits_ofText _ _) <| fitFields_cons rfl hpositionFits <|
      fitFields_cons rfl hdistanceFits <| fitFields_cons rfl hpercentFits <| fitFields_cons rfl (fits_ofText _ _) <|
      fitFields_cons rfl hiconFits <| fitFields_cons rfl hreadingsFits <| fitFields_cons rfl htimeFits (fitFields_nil _)

end Marker

namespace Reading

/-- Finite numbers and a time that can be exchanged. -/
structure Exchangeable (r : Reading) : Prop where
  distance : Number.isFinite r.distance = true
  lat : Number.isFinite r.lat = true
  latScale : Number.isFinite r.latScale = true
  long : Number.isFinite r.long = true
  longScale : Number.isFinite r.longScale = true
  regular : r.receivedAt.Regular
  offset : r.receivedAt.offset.natAbs < 24 * 3600

theorem setField_keys (r : Reading) (v : Json) :
    r.setField (unescape "id") v = (v.toText r.id).map (fun x => { r with id := x }) ∧
      r.setField (unescape "distance") v = v.toNumber.map (fun x => { r with distance := x }) ∧
      r.setField (unescape "lat") v = v.toNumber.map (fun x => { r with lat := x }) ∧
      r.setField (unescape "lat_scale") v = v.toNumber.map (fun x => { r with latScale := x }) ∧
      r.setField (unescape "long") v = v.toNumber.map (fun x => { r with long := x }) ∧
      r.setField (unescape "long_scale") v = v.toNumber.map (fun x => { r with longScale := x }) ∧
      r.setField (unescape "gps_msg") v = (v.toText r.gpsMessage).map (fun x => { r with gpsMessage := x }) ∧
      r.setField (unescape "source") v = (v.toText r.source).map (fun x => { r with source := x }) ∧
      r.setField (unescape "received_at") v = (v.toInstant r.receivedAt).map (fun x => { r with receivedAt := x }) :=
  ⟨rfl, rfl, rfl, rfl, rfl, rfl, rfl, rfl, rfl⟩

theorem fitFields_optionalText {key : String} (hkey : escape .web key = key) (value : String) (limit : ℕ) :
    FitFields (optionalText key value) limit := by
  rw [optionalText]
  split_ifs
  · exact fitFields_nil limit
  · exact fitFields_cons hkey (fits_ofText value limit) (fitFields_nil limit)

/-- A text that is left out changes nothing, and there was none before. -/
theorem change_optionalText (key value : String) {set : Reading → Reading}
    (h : ∀ a, setField a (unescape key) (ofText value) = .ok (set a)) :
    Change setField (optionalText key value) (if value = "" then [] else [set]) := by
  rw [optionalText]
  split_ifs
  · exact .nil
  · exact .cons h .nil

theorem survives {r : Reading} (h : r.Exchangeable) (limit : ℕ) :
    Survives r.toJson (limit + 1) (fun _ : Unit => overFields setField {}) r := by
  obtain ⟨distance, hdistance, hdistanceFits, hdistanceRead⟩ := telemetry_survives h.distance limit
  obtain ⟨lat, hlat, hlatFits, hlatRead⟩ := telemetry_survives h.lat limit
  obtain ⟨latScale, hlatScale, hlatScaleFits, hlatScaleRead⟩ := telemetry_survives h.latScale limit
  obtain ⟨long, hlong, hlongFits, hlongRead⟩ := telemetry_survives h.long limit
  obtain ⟨longScale, hlongScale, hlongScaleFits, hlongScaleRead⟩ := telemetry_survives h.longScale limit
  obtain ⟨receivedAt, htime, htimeFits, htimeRead⟩ := instant_survives h.regular h.offset limit
  have hnumbers : Change setField [("id", .ofText r.id), ("distance", distance), ("lat", lat), ("lat_scale", latScale),
      ("long", long), ("long_scale", longScale)]
      [fun a => { a with id := r.id }, fun a => { a with distance := r.distance }, fun a => { a with lat := r.lat },
        fun a => { a with latScale := r.latScale }, fun a => { a with long := r.long },
        fun a => { a with longScale := r.longScale }] :=
    .cons (fun a => (setField_keys a _).1.trans (map_of_eq (toText_ofText a.id r.id) _)) <|
    .cons (fun a => (setField_keys a distance).2.1.trans (map_of_eq (hdistanceRead ()) _)) <|
    .cons (fun a => (setField_keys a lat).2.2.1.trans (map_of_eq (hlatRead ()) _)) <|
    .cons (fun a => (setField_keys a latScale).2.2.2.1.trans (map_of_eq (hlatScaleRead ()) _)) <|
    .cons (fun a => (setField_keys a long).2.2.2.2.1.trans (map_of_eq (hlongRead ()) _)) <|
    .cons (fun a => (setField_keys a longScale).2.2.2.2.2.1.trans (map_of_eq (hlongScaleRead ()) _)) .nil
  have hgps := change_optionalText "gps_msg" r.gpsMessage fun a =>
    (setField_keys a _).2.2.2.2.2.2.1.trans (map_of_eq (toText_ofText a.gpsMessage r.gpsMessage) fun x => { a with gpsMessage := x })
  have hsource := change_optionalText "source" r.source fun a =>
    (setField_keys a _).2.2.2.2.2.2.2.1.trans (map_of_eq (toText_ofText a.source r.source) fun x => { a with source := x })
  have htimes : Change setField [("received_at", receivedAt)] [fun a => { a with receivedAt := r.receivedAt }] :=
    .cons (fun a => (setField_keys a receivedAt).2.2.2.2.2.2.2.2.trans (map_of_eq (htimeRead a.receivedAt) _)) .nil
  have hchange := ((hnumbers.append hgps).append hsource).append htimes
  refine ⟨_, ?_, ?_, fun _ => (hchange.overFields {}).trans ?_⟩
  · rw [toJson, hdistance, hlat, hlatScale, hlong, hlongScale, htime]
    rfl
  · refine fits_object (fitFields_append (fitFields_append (fitFields_append ?_ (fitFields_optionalText rfl _ _))
      (fitFields_optionalText rfl _ _)) (fitFields_cons rfl htimeFits (fitFields_nil _)))
    exact fitFields_cons rfl (fits_ofText _ _) <| fitFields_cons rfl hdistanceFits <| fitFields_cons rfl hlatFits <|
      fitFields_cons rfl hlatScaleFits <| fitFields_cons rfl hlongFits <| fitFields_cons rfl hlongScaleFits (fitFields_nil _)
  · obtain ⟨id, distance', lat', latScale', long', longScale', gpsMessage, source, receivedAt'⟩ := r
    by_cases hg : gpsMessage = "" <;> by_cases hs : source = "" <;> simp [hg, hs]

end Reading

namespace MarkerUpdate

/-- Every part can be exchanged. -/
structure Exchangeable (u : MarkerUpdate) : Prop where
  marker : u.marker.Exchangeable
  reading : u.reading.Exchangeable
  regular : u.timestamp.Regular
  offset : u.timestamp.offset.natAbs < 24 * 3600

theorem setField_keys (u : MarkerUpdate) (v : Json) :
    u.setField (unescape "marker") v = (v.overFields Marker.setField u.marker).map (fun x => { u with marker := x }) ∧
      u.setField (unescape "reading") v =
        (v.overFields Reading.setField u.reading).map (fun x => { u with reading := x }) ∧
      u.setField (unescape "replaced") v = (v.toBool u.replaced).map (fun x => { u with replaced := x }) ∧
      u.setField (unescape "timestamp") v = (v.toInstant u.timestamp).map (fun x => { u with timestamp := x }) :=
  ⟨rfl, rfl, rfl, rfl⟩

theorem survives {u : MarkerUpdate} (h : u.Exchangeable) (limit : ℕ) :
    Survives u.toJson (limit + 4) (fun _ : Unit => overFields setField {}) u := by
  obtain ⟨marker, hmarker, hmarkerFits, hmarkerRead⟩ := Marker.survives h.marker limit
  obtain ⟨reading, hreading, hreadingFits, hreadingRead⟩ := Reading.survives h.reading (limit + 2)
  obtain ⟨timestamp, htime, htimeFits, htimeRead⟩ := instant_survives h.regular h.offset (limit + 3)
  refine ⟨.object [("marker", marker), ("reading", reading), ("replaced", .bool u.replaced), ("timestamp", timestamp)],
    ?_, ?_, fun _ => ?_⟩
  · rw [toJson, hmarker, hreading, htime]
    rfl
  · exact fits_object <| fitFields_cons rfl hmarkerFits <| fitFields_cons rfl hreadingFits <|
      fitFields_cons rfl (by rw [Fits]; trivial) <| fitFields_cons rfl htimeFits (fitFields_nil _)
  · -- one field after the other, over what the earlier ones gave
    have hfirst := (setField_keys {} marker).1.trans (map_of_eq (hmarkerRead _) _)
    have hsecond := (setField_keys { marker := u.marker } reading).2.1.trans (map_of_eq (hreadingRead ()) _)
    have hthird := (setField_keys { marker := u.marker, reading := u.reading } (.bool u.replaced)).2.2.1.trans
      (map_of_eq (a := u.replaced) rfl _)
    have hlast := (setField_keys { marker := u.marker, reading := u.reading, replaced := u.replaced } timestamp).2.2.2.trans
      (map_of_eq (htimeRead _) _)
    exact (overFields_cons hfirst _).trans <| (overFields_cons hsecond _).trans <|
      (overFields_cons hthird _).trans <| (overFields_cons hlast _).trans rfl

/-- The bytes of a written update hold the update. -/
theorem ofBytes?_compact {u : MarkerUpdate} (h : u.Exchangeable) :
    ∃ j, u.toJson = .ok j ∧ ofBytes? (Text.Utf8.encode j.render) = some u := by
  obtain ⟨j, hwritten, hfits, hread⟩ := survives h 9996
  refine ⟨j, hwritten, ?_⟩
  have hdocument : Json.read? j.render = some j := Reader.read?_render hfits
  have hvalue : overFields setField {} j = .ok u := hread ()
  simp only [ofBytes?, Text.Utf8.decode_encode, hdocument, Option.bind_eq_bind, Option.bind_some, hvalue]
  rfl

end MarkerUpdate

end BinFleet
