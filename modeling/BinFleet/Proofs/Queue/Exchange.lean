import BinFleet.Proofs.Archive.Settlement
import BinFleet.Proofs.Fleet.AcceptedLog
import BinFleet.Proofs.Marker
import BinFleet.Proofs.Reading
import BinFleet.Queue.Message

namespace BinFleet

namespace Fleet

variable {σ : Type} (v : Service σ)

/-- The clock shows years of four digits. -/
def Service.KeepsTime : Prop := ∀ w, (v.readClock w).1.toUtc.Regular

/-- What holds of every update that a service makes. -/
structure Made (u : MarkerUpdate) : Prop where
  acceptable : u.reading.Acceptable
  regular : u.timestamp.Regular
  received : u.reading.receivedAt = u.timestamp
  updated : u.marker.updatedAt = u.timestamp
  named : u.marker.deviceId = u.reading.id
  distance : u.marker.distance = u.reading.distance
  icon : u.marker.icon.Finite
  counted : 0 ≤ u.marker.readings

namespace Service

variable {v}

theorem arrive_regular (hv : v.KeepsTime) {r : Reading} (hr : r.Timed) (s : State σ) :
    (v.arrive r s).1.receivedAt.Regular := by
  rw [arrive]
  split_ifs with hzero
  · exact hv s.world
  · exact hr.resolve_left hzero

theorem ingest_made (hv : v.KeepsTime) {context : LogContext} {r : Reading} (hr : r.Timed) {s : State σ}
    {u : MarkerUpdate} (h : (v.ingest context r s).2 = .ok u) : Made u := by
  have hsource : (if r.source = "" then { r with source := Reading.operatorSource } else r).Timed := by
    split_ifs <;> exact hr
  simp only [ingest] at h
  generalize (if r.source = "" then { r with source := Reading.operatorSource } else r) = r' at h hsource
  split_ifs at h with hvalid
  obtain rfl := Except.ok.inj h
  have hacceptable := v.arrive_acceptable ((Reading.checks_isValid r').mp hvalid) s
  have hregular := arrive_regular hv hsource s
  generalize (v.arrive r' s).1 = r at hacceptable hregular ⊢
  exact ⟨hacceptable, hregular, rfl, rfl, rfl, rfl, Icon.pin_finite _, Int.natCast_nonneg _⟩

theorem decode?_timed {payload : List UInt8} {r : Reading} (h : decode? payload = some r) : r.Timed := by
  simp only [decode?, Option.bind_eq_bind, Option.bind_eq_some_iff] at h
  obtain ⟨j, -, hread⟩ := h
  cases hj : Reading.ofJson {} j with
  | error e => simp [hj, Except.toOption] at hread
  | ok r' =>
    rw [hj] at hread
    exact Option.some.inj hread ▸ Reading.ofJson_timed hj

theorem handleMessage_made (hv : v.KeepsTime) {context : LogContext} {payload : List UInt8} {s : State σ}
    {u : MarkerUpdate} (h : (v.handleMessage context payload s).2 = .ok u) : Made u := by
  simp only [handleMessage] at h
  cases hd : decode? payload with
  | none => simp [hd] at h
  | some r =>
    rw [hd] at h
    have htimed : r.Timed := decode?_timed hd
    refine ingest_made hv ?_ h
    exact htimed

end Service

theorem Made.exchangeable {u : MarkerUpdate} (h : Made u) (hlat : Number.isFinite u.marker.position.lat = true)
    (hlng : Number.isFinite u.marker.position.lng = true) (hpercent : Number.isFinite u.marker.percent = true)
    (hcount : u.marker.readings < 2 ^ 63) (hoffset : u.timestamp.offset.natAbs < 24 * 3600) : u.Exchangeable := by
  obtain ⟨hacceptable, hregular, hreceived, hupdated, -, hdistance, hicon, hcounted⟩ := h
  refine ⟨⟨hlat, hlng, ?_, hpercent, hicon, ⟨hcounted, hcount⟩, ?_, ?_⟩,
    ⟨hacceptable.distance, hacceptable.lat, hacceptable.latScale.1, hacceptable.long, hacceptable.longScale.1, ?_, ?_⟩,
    hregular, hoffset⟩
  · rw [hdistance]
    exact hacceptable.distance
  · rw [hupdated]
    exact hregular
  · rw [hupdated]
    exact hoffset
  · rw [hreceived]
    exact hregular
  · rw [hreceived]
    exact hoffset

end Fleet

namespace Queue

/-- Why the event of a time at an offset of a day or more is not written. -/
def offsetFault : Fault :=
  .wrapped "failed to marshal marker update: " (.other (Json.EncodeError.time .offset).message) ""

theorem ofUpdate_offset (context : LogContext) (now : Time.Instant) {u : MarkerUpdate} (h : Fleet.Made u)
    (hlat : Number.isFinite u.marker.position.lat = true) (hlng : Number.isFinite u.marker.position.lng = true)
    (hpercent : Number.isFinite u.marker.percent = true) (hoffset : 24 * 3600 ≤ u.timestamp.offset.natAbs) :
    Message.ofUpdate context now u = .error offsetFault := by
  obtain ⟨position, hposition, -, -⟩ := Position.survives hlat hlng 0
  obtain ⟨icon, hicon, -, -⟩ := Icon.survives h.icon 0
  have hdistance := Json.ofFloat_finite (h.distance ▸ h.acceptable.distance)
  have htext : u.marker.updatedAt.text = .error .offset := by
    rw [h.updated, h.regular.text_eq, if_pos hoffset]
  have htime : Json.ofInstant u.marker.updatedAt = .error (.time .offset) := by
    unfold Json.ofInstant
    simp only [htext]
  have hmarker : u.marker.toJson = .error (.time .offset) := by
    rw [Marker.toJson, hposition, hdistance, Json.ofFloat_finite hpercent, hicon, htime]
    rfl
  have hjson : u.toJson = .error (.time .offset) := by
    rw [MarkerUpdate.toJson, hmarker]
    rfl
  unfold Message.ofUpdate
  simp only [hjson]
  rfl

/-- The event of an update at an offset below a day is written, and its bytes hold the update. -/
theorem ofBytes?_ofUpdate (context : LogContext) (now : Time.Instant) {u : MarkerUpdate} (h : u.Exchangeable) :
    ∃ message, Message.ofUpdate context now u = .ok message ∧
      MarkerUpdate.ofBytes? (Text.Utf8.ofString message.body) = some u := by
  obtain ⟨j, hwritten, hread⟩ := MarkerUpdate.ofBytes?_compact h
  unfold Message.ofUpdate
  simp only [hwritten]
  refine ⟨_, rfl, ?_⟩
  simpa only [Text.Utf8.ofString, Json.compact, String.toList_ofList] using hread

/-- The archive gets exactly what the map made of a reading, and never calls it invalid. The one
exception is a time of arrival whose offset is a day or more: no event is written for it. -/
theorem archive_receives_update {σ τ : Type} {v : Fleet.Service σ} (hv : v.KeepsTime) {context : LogContext}
    {s : Fleet.State σ} {u : MarkerUpdate}
    (hu : (∃ payload, (v.handleMessage context payload s).2 = .ok u) ∨
      ∃ r : Reading, r.Timed ∧ (v.ingest context r s).2 = .ok u)
    (hlat : Number.isFinite u.marker.position.lat = true) (hlng : Number.isFinite u.marker.position.lng = true)
    (hpercent : Number.isFinite u.marker.percent = true) (hcount : u.marker.readings < 2 ^ 63)
    (sending receiving : LogContext) (now : Time.Instant) (db : Archive.Database τ) (a : Archive.State τ) :
    (u.timestamp.offset.natAbs < 24 * 3600 →
      ∃ message, Message.ofUpdate sending now u = .ok message ∧
        MarkerUpdate.ofBytes? (Text.Utf8.ofString message.body) = some u ∧
        ∀ f, (Archive.store db receiving u a).2 = some f → f.has .invalidPayload = true →
          ∃ stage why, (Archive.attempt db (Archive.dated u) a.database).2 = some (stage, why) ∧
            why.has .invalidPayload = true) ∧
    (24 * 3600 ≤ u.timestamp.offset.natAbs → Message.ofUpdate sending now u = .error offsetFault) := by
  have hmade : Fleet.Made u := by
    obtain ⟨payload, h⟩ | ⟨r, hr, h⟩ := hu
    · exact Fleet.Service.handleMessage_made hv h
    · exact Fleet.Service.ingest_made hv hr h
  refine ⟨fun hoffset => ?_, ofUpdate_offset sending now hmade hlat hlng hpercent⟩
  obtain ⟨message, hwritten, hread⟩ :=
    ofBytes?_ofUpdate sending now (hmade.exchangeable hlat hlng hpercent hcount hoffset)
  have hid : Text.trim u.marker.deviceId ≠ "" := hmade.named ▸ hmade.acceptable.named
  have hreports := (Archive.store_attempt db receiving u a hid).2
  refine ⟨message, hwritten, hread, fun f hf => ?_⟩
  rw [hf] at hreports
  exact hreports.blames (by decide)

/-- A service that nobody listens to, at noon. -/
def lonely : Fleet.Service Unit where
  settings := ⟨100.0, 80.0, false⟩
  readClock _ := (⟨1641816000, 0, 0⟩, ())
  listeners := []
  resolver := none

theorem lonely_keepsTime : lonely.KeepsTime := by
  rintro ⟨⟩
  constructor <;> decide +kernel

/-- What a device sends with a time of its own. -/
def telemetry (time : String) : List UInt8 :=
  Text.Utf8.encode (List.flatMap String.toList
    ["\x7b\"id\":\"7\",\"distance\":50,", "\"lat\":3130,\"lat_scale\":1,", "\"long\":5260,\"long_scale\":\"1\",",
      "\"gps_msg\":\"<\u00e9\u2028\",", "\"received_at\":\"", time, "\"\x7d"])

/-- What the message does on an empty map. -/
def firstUpdate (time : String) : Except Fault MarkerUpdate :=
  (lonely.handleMessage {} (telemetry time) ⟨.empty, (), {}⟩).2

/-- The update's numbers are finite, and its time has this offset. -/
structure Stamped (u : MarkerUpdate) (offset : Int) : Prop where
  lat : Number.isFinite u.marker.position.lat = true
  lng : Number.isFinite u.marker.position.lng = true
  percent : Number.isFinite u.marker.percent = true
  readings : u.marker.readings = 1
  offset : u.timestamp.offset = offset

theorem stamped_of_firstUpdate (time : String) (offset : Int)
    (h : (firstUpdate time).toOption.map (fun u => (Number.isFinite u.marker.position.lat,
      Number.isFinite u.marker.position.lng, Number.isFinite u.marker.percent, u.marker.readings,
      u.timestamp.offset)) = some (true, true, true, 1, offset)) :
    ∃ u, firstUpdate time = .ok u ∧ Stamped u offset := by
  cases hu : firstUpdate time with
  | error f => simp [hu, Except.toOption] at h
  | ok u =>
    simp only [hu, Except.toOption, Option.map_some, Option.some.injEq, Prod.mk.injEq] at h
    exact ⟨u, rfl, h.1, h.2.1, h.2.2.1, h.2.2.2.1, h.2.2.2.2⟩

/-- A reading from half past five east, while the archive's connection breaks. -/
theorem archive_receives_half_hour_offset :
    ∃ u message, firstUpdate "2022-01-10T12:00:00.5+05:30" = .ok u ∧ u.timestamp.offset = 19800 ∧
      Message.ofUpdate {} ⟨1641816000, 0, 0⟩ u = .ok message ∧
      MarkerUpdate.ofBytes? (Text.Utf8.ofString message.body) = some u ∧
      ∀ f, (Archive.store Archive.Rehearsal.database {} u
        ⟨{ script := { insert := some (.other "broken pipe") } }, {}⟩).2 = some f → f.has .invalidPayload = false := by
  obtain ⟨u, hu, hlat, hlng, hpercent, hreadings, hoffset⟩ :=
    stamped_of_firstUpdate "2022-01-10T12:00:00.5+05:30" 19800 (by decide +kernel)
  have hcount : u.marker.readings < 2 ^ 63 := by omega
  obtain ⟨message, hwritten, hread, hstore⟩ := (archive_receives_update lonely_keepsTime (.inl ⟨_, hu⟩) hlat hlng
    hpercent hcount {} {} ⟨1641816000, 0, 0⟩ Archive.Rehearsal.database
    ⟨{ script := { insert := some (.other "broken pipe") } }, {}⟩).1 (by omega)
  refine ⟨u, message, hu, hoffset, hwritten, hread, fun f hf => ?_⟩
  by_contra hinvalid
  obtain ⟨stage, why, hattempt, hwhy⟩ := hstore f hf (by simpa using hinvalid)
  have hbroken : some (Archive.Stage.insert, Fault.other "broken pipe") = some (stage, why) := hattempt
  obtain ⟨-, rfl⟩ := Prod.mk.inj (Option.some.inj hbroken)
  exact absurd hwhy (by decide)

/-- The same reading at an offset of a day is accepted, and no event is written for it. -/
theorem archive_misses_day_offset :
    ∃ u, firstUpdate "2022-01-10T12:00:00.5+24:00" = .ok u ∧ Stamped u 86400 ∧
      Message.ofUpdate {} ⟨1641816000, 0, 0⟩ u = .error offsetFault := by
  obtain ⟨u, hu, hstamped⟩ :=
    stamped_of_firstUpdate "2022-01-10T12:00:00.5+24:00" 86400 (by decide +kernel)
  have hmade := Fleet.Service.handleMessage_made lonely_keepsTime hu
  have hoffset := hstamped.offset
  exact ⟨u, hu, hstamped, ofUpdate_offset {} _ hmade hstamped.lat hstamped.lng hstamped.percent (by omega)⟩

end Queue

end BinFleet
