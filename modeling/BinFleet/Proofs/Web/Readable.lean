import BinFleet.Proofs.Fleet.Marking
import BinFleet.Proofs.Live.Connection
import BinFleet.Proofs.Web.Operators
import BinFleet.Settings.Config

namespace BinFleet

theorem Config.range_of_broken? {c : Config} (h : c.broken? = none) : ¬ c.map.maxDistance ≤ 0.0 := by
  unfold broken? at h
  split_ifs at h with _ hrange
  exact hrange

namespace Live.Frame

theorem encodable_iff (f : Frame) : Encodable f ↔ (∃ fields, f.content = .ok fields) ∧ f.timestamp.Writable := by
  have hjson : Encodable f ↔ ∃ j, f.toJson = .ok j := by
    change (∃ text, f.encode = .ok text) ↔ _
    rw [encode]
    cases f.toJson <;> simp
  simp only [hjson, toJson, bind_ok_iff, pure_ok, and_true, exists_and_right, Json.ofInstant_ok_iff]

theorem encodable_snapshot (markers : List Marker) (time : Time.Instant) :
    Encodable (snapshot markers time) ↔ (∀ m ∈ markers, ∃ j, m.toJson = .ok j) ∧ time.Writable := by
  rw [encodable_iff]
  refine and_congr_left fun _ => ?_
  cases markers with
  | nil => exact iff_of_true (pure_ok _) fun m hm => absurd hm List.not_mem_nil
  | cons m rest => simp only [content, bind_ok_iff, pure_ok, and_true, mapM_ok_iff]

theorem encodable_changed (m : Marker) (time : Time.Instant) :
    Encodable (changed m time) ↔ (∃ j, m.toJson = .ok j) ∧ time.Writable := by
  simp only [encodable_iff, content, bind_ok_iff, pure_ok, and_true]
  rfl

end Live.Frame

namespace Web

variable {σ : Type}

theorem answer_ok (context : LogContext) (status : Int) {document : Except Json.EncodeError (List (String × Json))}
    {fields : List (String × Json)} (h : document = .ok fields) (s : Fleet.State σ) :
    (answer context status document s).2 = ⟨jsonReply status fields, .returned ()⟩ := by
  rw [h]
  rfl

theorem answer_error (context : LogContext) (status : Int) {document : Except Json.EncodeError (List (String × Json))}
    (h : ¬ ∃ fields, document = .ok fields) (s : Fleet.State σ) :
    (answer context status document s).2 = ⟨errorReply 500 unencodable, .returned ()⟩ := by
  cases document with
  | ok fields => exact absurd ⟨fields, rfl⟩ h
  | error e => rfl

namespace MapApi

theorem listMarkers_ok (visit : Visit) {s : Fleet.State σ} {items : List Json}
    (h : s.tracker.markers.mapM Marker.toJson = .ok items) : (listMarkers visit s).2 =
      ⟨jsonReply 200 [("count", .ofNat s.tracker.markers.length), ("markers", .array items)], .returned ()⟩ := by
  refine answer_ok _ _ ?_ s
  rw [markersDocument, h]
  rfl

theorem listMarkers_error (visit : Visit) {s : Fleet.State σ} {m : Marker} (hm : m ∈ s.tracker.markers)
    (h : ¬ ∃ j, m.toJson = .ok j) : (listMarkers visit s).2 = ⟨errorReply 500 unencodable, .returned ()⟩ := by
  refine answer_error _ _ (fun hok => h ?_) s
  simp only [markersDocument, bind_ok_iff, pure_ok, and_true, mapM_ok_iff] at hok
  exact hok m hm

/-- What comes of a reading that an operator puts on the map. -/
theorem ingestForm_cases (v : Fleet.Service σ) (context : LogContext) (form : ReadingForm) (s : Fleet.State σ) :
    (ingestForm v context form s).1.tracker = s.tracker ∨
    ∃ u, (v.ingest context form.reading s).2 = .ok u ∧
      (ingestForm v context form s).1.tracker = (v.ingest context form.reading s).1.tracker ∧
      (ingestForm v context form s).2 = (answer context 201 (resultDocument u) (v.ingest context form.reading s).1).2 := by
  have hchanged := v.serve_changed (.ingest context form.reading) s
  simp only [Fleet.Service.serve] at hchanged
  rcases hi : v.ingest context form.reading s with ⟨s', f | u⟩ <;> rw [hi] at hchanged <;> simp only [ingestForm, hi]
  · have htracker : s'.tracker = s.tracker := by
      generalize ht : s'.tracker = t at hchanged
      cases hchanged
      rfl
    left
    cases f.rejectedFields? <;> exact htracker
  · right
    refine ⟨u, rfl, ?_, ?_⟩ <;> split_ifs <;> simp

theorem postReading_cases (v : Fleet.Service σ) (visit : Visit) {s : Fleet.State σ}
    (h : (postReading v visit s).1.tracker ≠ s.tracker) :
    ∃ context form, postReading v visit s = ingestForm v context form s := by
  simp only [postReading] at h ⊢
  cases hread : ReadingForm.read visit.request.body with
  | error e =>
    rw [hread] at h
    exact absurd rfl h
  | ok form =>
    rw [hread] at h
    by_cases hvalid : form.checks.isValid = true
    · exact ⟨_, form, if_pos hvalid⟩
    · simp only [if_neg hvalid] at h
      exact absurd rfl h

theorem resultDocument_ok {u : MarkerUpdate} {marker : Json} (h : u.marker.toJson = .ok marker) :
    resultDocument u = .ok [("result", .object [("marker", marker), ("replaced", .bool u.replaced)])] := by
  rw [resultDocument, h]
  rfl

theorem resultDocument_error {u : MarkerUpdate} (h : ¬ ∃ j, u.marker.toJson = .ok j) :
    ¬ ∃ fields, resultDocument u = .ok fields := by
  simpa only [resultDocument, bind_ok_iff, pure_ok, and_true] using h

end MapApi

/-- An operator's reading is dated by the clock. -/
theorem ingest_updatedAt (v : Fleet.Service σ) {context : LogContext} {r : Reading} {s : Fleet.State σ}
    {u : MarkerUpdate} (hr : r.receivedAt.isZero = true) (h : (v.ingest context r s).2 = .ok u) :
    u.marker.updatedAt = (v.readClock s.world).1.toUtc := by
  have hzero : (if r.source = "" then { r with source := Reading.operatorSource } else r).receivedAt.isZero = true := by
    split_ifs <;> exact hr
  simp only [Fleet.Service.ingest] at h
  generalize (if r.source = "" then { r with source := Reading.operatorSource } else r) = r' at h hzero
  split_ifs at h
  obtain rfl := Except.ok.inj h
  simp only [Fleet.Service.arrive, if_pos hzero]
  rfl

/-- How an operator is answered whose reading changed the map. -/
structure Posted (v : Fleet.Service σ) (s s' : Fleet.State σ) (reply : Reply) (u : MarkerUpdate) : Prop where
  sound : u.reading.Acceptable ∧ Fleet.Sound v.settings u.reading u.marker
  shown : s'.tracker.marker? u.marker.deviceId = some u.marker
  dated : u.marker.updatedAt = (v.readClock s.world).1.toUtc
  created : u.marker.Writable → ∃ marker, u.marker.toJson = .ok marker ∧
    reply = ⟨jsonReply 201 [("result", .object [("marker", marker), ("replaced", .bool u.replaced)])], .returned ()⟩
  failed : ¬ u.marker.Writable → reply = ⟨errorReply 500 unencodable, .returned ()⟩

theorem MapApi.postReading_posted {v : Fleet.Service σ} (hrange : ¬ v.settings.maxDistance ≤ 0.0) {visit : Visit}
    {s : Fleet.State σ} (h : (postReading v visit s).1.tracker ≠ s.tracker) :
    ∃ u, Posted v s (postReading v visit s).1 (postReading v visit s).2 u := by
  obtain ⟨context, form, hpost⟩ := postReading_cases v visit h
  rw [hpost] at h ⊢
  obtain ⟨u, hu, htracker, hreply⟩ := (ingestForm_cases v context form s).resolve_left h
  have hserve : (v.serve (.ingest context form.reading) s).2 = .ok (.updated u) := by
    simp only [Fleet.Service.serve, hu]
    rfl
  have hissued := v.serve_issued hserve
  have hsound := hissued.shows.sound hrange hissued.acceptable
  have hchanged := v.serve_changed (.ingest context form.reading) s
  rw [hserve] at hchanged
  refine ⟨u, ⟨hissued.acceptable, hsound⟩, htracker ▸ hchanged.marker?_self, ingest_updatedAt v rfl hu, ?_, ?_⟩
  · intro hwritable
    obtain ⟨marker, hmarker⟩ := hsound.written.mpr hwritable
    exact ⟨marker, hmarker, hreply.trans (answer_ok _ _ (resultDocument_ok hmarker) _)⟩
  · intro hnot
    exact hreply.trans (answer_error _ _ (resultDocument_error (hsound.written.not.mpr hnot)) _)

/-- What everyone gets who reads the map. -/
structure Readable (v : Fleet.Service σ) (s : Fleet.State σ) : Prop where
  sound (m : Marker) (hm : m ∈ s.tracker.markers) : ∃ r : Reading, r.Acceptable ∧ Fleet.Sound v.settings r m
  listed (h : ∀ m ∈ s.tracker.markers, m.Writable) (visit : Visit) :
    ∃ items, s.tracker.markers.mapM Marker.toJson = .ok items ∧ (MapApi.listMarkers visit s).2 =
      ⟨jsonReply 200 [("count", .ofNat s.tracker.markers.length), ("markers", .array items)], .returned ()⟩
  hidden (m : Marker) (hm : m ∈ s.tracker.markers) (h : ¬ m.Writable) (visit : Visit) :
    (MapApi.listMarkers visit s).2 = ⟨errorReply 500 unencodable, .returned ()⟩
  snapshot (time : Time.Instant) : Live.Encodable (Live.Frame.snapshot s.tracker.markers time) ↔
    (∀ m ∈ s.tracker.markers, m.Writable) ∧ time.Writable
  posted (visit : Visit) (h : (MapApi.postReading v visit s).1.tracker ≠ s.tracker) :
    ∃ u, Posted v s (MapApi.postReading v visit s).1 (MapApi.postReading v visit s).2 u

theorem readable_of_stands {v : Fleet.Service σ} (hrange : ¬ v.settings.maxDistance ≤ 0.0) {s : Fleet.State σ}
    (h : Fleet.Stands v.settings s.tracker) : Readable v s := by
  have hsound (m : Marker) (hm : m ∈ s.tracker.markers) :
      ∃ r : Reading, r.Acceptable ∧ Fleet.Sound v.settings r m := by
    obtain ⟨u, hissued, rfl⟩ := h m hm
    exact ⟨u.reading, hissued.acceptable, hissued.shows.sound hrange hissued.acceptable⟩
  have hwritten (m : Marker) (hm : m ∈ s.tracker.markers) : (∃ j, m.toJson = .ok j) ↔ m.Writable := by
    obtain ⟨r, -, hr⟩ := hsound m hm
    exact hr.written
  refine ⟨hsound, fun hall visit => ?_, fun m hm hnot visit => ?_, fun time => ?_, fun visit hchanged => ?_⟩
  · obtain ⟨items, hitems⟩ := mapM_ok_iff.mpr fun m hm => (hwritten m hm).mpr (hall m hm)
    exact ⟨items, hitems, MapApi.listMarkers_ok visit hitems⟩
  · exact MapApi.listMarkers_error visit hm ((hwritten m hm).not.mpr hnot)
  · rw [Live.Frame.encodable_snapshot]
    exact and_congr_left fun _ => forall₂_congr hwritten
  · exact MapApi.postReading_posted hrange hchanged

theorem readable_run {v : Fleet.Service σ} (hrange : ¬ v.settings.maxDistance ≤ 0.0) (world : σ) (journal : Journal)
    (requests : List Fleet.Request) : Readable v (v.run requests (.fresh world journal)).1 :=
  readable_of_stands hrange (v.run_stands requests fun _ hm => absurd hm List.not_mem_nil)

/-- The map can be read as long as every accepted reading gave a marker that can be written, and the
first one that did not hides all of them. -/
theorem map_readable_iff_markers_writable {config : Config} (hconfig : config.broken? = none) (v : Fleet.Service σ)
    (hv : v.settings.maxDistance = config.map.maxDistance) (world : σ) (journal : Journal)
    (requests : List Fleet.Request) :
    Readable v (v.run requests (.fresh world journal)).1 ∧
    ∀ u : MarkerUpdate, .ok (.updated u) ∈ (v.run requests (.fresh world journal)).2 →
      Fleet.Sound v.settings u.reading u.marker ∧
      (Live.Encodable (Live.Frame.changed u.marker u.timestamp) ↔ u.marker.Writable) := by
  have hrange : ¬ v.settings.maxDistance ≤ 0.0 := hv ▸ Config.range_of_broken? hconfig
  refine ⟨readable_run hrange world journal requests, fun u hu => ?_⟩
  have hissued := v.run_issued requests hu
  have hsound := hissued.shows.sound hrange hissued.acceptable
  refine ⟨hsound, ?_⟩
  rw [Live.Frame.encodable_changed, hissued.timestamp, hsound.written]
  exact ⟨And.left, fun hw => ⟨hw, hw.time⟩⟩

namespace Ranging

/-- A configuration for sensors of some range. -/
def config (range : Float) : Config :=
  { mode := Mode.map.name, map := { maxDistance := range }, auth := { secret := Text.Utf8.ofString "hush" } }

def service (range : Float) : Fleet.Service Unit where
  settings := ⟨range, 20.0, true⟩
  readClock w := (⟨1641816000, 0, 0⟩, w)
  listeners := []
  resolver := none

def report (distance : String) : Fleet.Request :=
  .message {} (Text.Utf8.encode (List.flatMap String.toList
    ["\x7b\"id\":\"7\",\"distance\":", distance, ",\"lat\":3130,\"lat_scale\":1,",
      "\"long\":3512,\"long_scale\":1\x7d"]))

/-- The map after one report. -/
def state (range : Float) (distance : String) : Fleet.State Unit :=
  ((service range).run [report distance] (.fresh () {})).1

/-- A bin at the end of the range, one step above a hundred, is listed for everyone. -/
theorem full_bin_is_listed :
    (config 0.69).broken? = none ∧ ∃ m item, (state 0.69 "0.69").tracker.markers = [m] ∧
      (m.percent == 100.00000000000001) = true ∧ m.toJson = .ok item ∧
      ∀ visit, (MapApi.listMarkers visit (state 0.69 "0.69")).2 =
        ⟨jsonReply 200 [("count", .ofNat 1), ("markers", .array [item])], .returned ()⟩ := by
  have hvalid : (config 0.69).broken? = none := by decide +kernel
  have hnumbers : (state 0.69 "0.69").tracker.markers.map (fun m => (Number.isFinite m.position.lat,
      Number.isFinite m.position.lng, Number.isFinite m.distance, Number.isFinite m.percent,
      m.percent == 100.00000000000001, m.updatedAt)) = [(true, true, true, true, true, ⟨1641816000, 0, 0⟩)] := by
    decide +kernel
  obtain ⟨m, hm, hnumbers⟩ := List.map_eq_singleton_iff.mp hnumbers
  simp only [Prod.mk.injEq] at hnumbers
  obtain ⟨hlat, hlng, hdistance, hpercent, hfull, htime⟩ := hnumbers
  have hwritable : m.Writable :=
    ⟨hlat, hlng, hdistance, hpercent, htime ▸ ⟨by decide +kernel, by decide⟩⟩
  have hreadable : Readable (service 0.69) (state 0.69 "0.69") :=
    (map_readable_iff_markers_writable hvalid (service 0.69) rfl () {} [report "0.69"]).1
  have hall : ∀ m' ∈ (state 0.69 "0.69").tracker.markers, m'.Writable := by
    rw [hm]
    exact List.forall_mem_singleton.mpr hwritable
  obtain ⟨r, -, hsound⟩ := hreadable.sound m (hm.symm ▸ List.mem_singleton_self m)
  obtain ⟨item, hitem⟩ := hsound.written.mpr hwritable
  refine ⟨hvalid, m, item, hm, hfull, hitem, fun visit => ?_⟩
  obtain ⟨items, hitems, hreply⟩ := hreadable.listed hall visit
  have hone : [m].mapM Marker.toJson = .ok [item] := by
    rw [List.mapM_cons, hitem]
    rfl
  rw [hm] at hitems hreply
  obtain rfl := Except.ok.inj (hitems.symm.trans hone)
  exact hreply

/-- A reading of the farthest kind is accepted under a range that is too, and nobody sees the map. -/
theorem far_reading_hides_map :
    (config 1e308).broken? = none ∧ (service 1e308).settings.maxDistance = (config 1e308).map.maxDistance ∧
      (state 1e308 "1e308").tracker.markers.map (fun m => Number.isFinite m.percent) = [false] ∧
      ∀ visit, (MapApi.listMarkers visit (state 1e308 "1e308")).2 =
        ⟨errorReply 500 unencodable, .returned ()⟩ := by
  have hvalid : (config 1e308).broken? = none := by decide +kernel
  have hnumbers : (state 1e308 "1e308").tracker.markers.map (fun m => Number.isFinite m.percent) = [false] := by
    decide +kernel
  have hsame : (service 1e308).settings.maxDistance = (config 1e308).map.maxDistance := rfl
  have hrange : ¬ (service 1e308).settings.maxDistance ≤ 0.0 := hsame ▸ Config.range_of_broken? hvalid
  refine ⟨hvalid, hsame, hnumbers, fun visit => ?_⟩
  obtain ⟨m, hm, hpercent⟩ := List.map_eq_singleton_iff.mp hnumbers
  have hnot : ¬ m.Writable := fun hwritable => by simp [hwritable.percent] at hpercent
  have hreadable : Readable (service 1e308) (state 1e308 "1e308") :=
    readable_run hrange () {} [report "1e308"]
  exact hreadable.hidden m (hm.symm ▸ List.mem_singleton_self m) hnot visit

end Ranging

end Web

end BinFleet
