import BinFleet.Fleet.Service
import BinFleet.Proofs.Marker
import BinFleet.Telemetry.Firmware

namespace BinFleet.Telemetry

open Json

/-- A number that was written as a text is read as this number. -/
theorem toNumber_ofText (x : Float) : toNumber (.ofText (History.number x)) = .ok x := by
  have hread : Number.read (unescape (escape .web (History.number x))) = .ok x := by
    rw [unescape_escape]
    exact Number.Layout.read_write .plain x
  unfold ofText toNumber
  simp only [hread]

/-- Every field of the payload sets the field of the reading that it was taken from. -/
theorem firmware_change (r : Reading) :
    Change Reading.setField
      [("id", .ofText r.id), ("gps_msg", .ofText r.gpsMessage), ("distance", .ofText (History.number r.distance)),
        ("lat", .ofText (History.number r.lat)), ("lat_scale", .ofText (History.number r.latScale)),
        ("long", .ofText (History.number r.long)), ("long_scale", .ofText (History.number r.longScale))]
      [fun a => { a with id := r.id }, fun a => { a with gpsMessage := r.gpsMessage },
        fun a => { a with distance := r.distance }, fun a => { a with lat := r.lat },
        fun a => { a with latScale := r.latScale }, fun a => { a with long := r.long },
        fun a => { a with longScale := r.longScale }] := by
  refine .cons (fun a => ?_) <| .cons (fun a => ?_) <| .cons (fun a => ?_) <| .cons (fun a => ?_) <|
    .cons (fun a => ?_) <| .cons (fun a => ?_) <| .cons (fun a => ?_) .nil
  · exact (Reading.setField_keys a _).1.trans (map_of_eq (toText_ofText a.id r.id) _)
  · exact (Reading.setField_keys a _).2.2.2.2.2.2.1.trans (map_of_eq (toText_ofText a.gpsMessage r.gpsMessage) _)
  · exact (Reading.setField_keys a _).2.1.trans (map_of_eq (toNumber_ofText r.distance) _)
  · exact (Reading.setField_keys a _).2.2.1.trans (map_of_eq (toNumber_ofText r.lat) _)
  · exact (Reading.setField_keys a _).2.2.2.1.trans (map_of_eq (toNumber_ofText r.latScale) _)
  · exact (Reading.setField_keys a _).2.2.2.2.1.trans (map_of_eq (toNumber_ofText r.long) _)
  · exact (Reading.setField_keys a _).2.2.2.2.2.1.trans (map_of_eq (toNumber_ofText r.longScale) _)

theorem ofJson_firmwareJson (r : Reading) :
    Reading.ofJson {} (firmwareJson r) = .ok { r with source := "", receivedAt := .zero } :=
  (firmware_change r).overFields {}

theorem fits_firmwareJson (r : Reading) (limit : ℕ) : Fits (firmwareJson r) (limit + 1) := by
  apply fits_object
  exact fitFields_cons rfl (fits_ofText _ _) <| fitFields_cons rfl (fits_ofText _ _) <|
    fitFields_cons rfl (fits_ofText _ _) <| fitFields_cons rfl (fits_ofText _ _) <|
    fitFields_cons rfl (fits_ofText _ _) <| fitFields_cons rfl (fits_ofText _ _) <|
    fitFields_cons rfl (fits_ofText _ _) (fitFields_nil limit)

/-- The octets of the payload hold the document that was written. -/
theorem read?_firmwarePayload (r : Reading) :
    read? (Text.Utf8.decode (Text.Utf8.ofString (firmwarePayload r))) = some (firmwareJson r) := by
  rw [Text.Utf8.ofString, Text.Utf8.decode_encode, firmwarePayload, compact, String.toList_ofList]
  exact Reader.read?_render (fits_firmwareJson r 9999)

/-- The service reads from the payload of a reading its id, its message and its numbers, the infinite
ones and not-a-number included, and goes on with them as with the reading itself. The payload brings
neither a source nor a time. -/
theorem firmware_payload_reads_back (r : Reading) :
    let payload := Text.Utf8.ofString (firmwarePayload r)
    Fleet.Service.decode? payload = some { r with source := "", receivedAt := .zero } ∧
    ∀ {σ : Type} (v : Fleet.Service σ) (context : LogContext) (s : Fleet.State σ),
      v.handleMessage context payload s =
        v.ingest (context.withAction "handle_reading")
          { r with source := Reading.telemetrySource, receivedAt := .zero } s := by
  intro payload
  have hdecode : Fleet.Service.decode? payload = some { r with source := "", receivedAt := .zero } := by
    simp only [Fleet.Service.decode?, payload, read?_firmwarePayload, Option.bind_eq_bind, Option.bind_some,
      ofJson_firmwareJson]
    rfl
  refine ⟨hdecode, ?_⟩
  intro σ v context s
  simp only [Fleet.Service.handleMessage, hdecode]

end BinFleet.Telemetry
