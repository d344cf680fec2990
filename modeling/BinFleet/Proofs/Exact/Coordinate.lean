import BinFleet.Coordinate
import BinFleet.Proofs.Exact.Scalar

namespace BinFleet.Coordinate

open Scalar

variable {scale : ℚ} {whole : ℕ}

/-- The degrees and the minutes of a coordinate are read apart. -/
theorem decode_parts (hscale : 0 < scale) {minutes : ℚ} (hnonneg : 0 ≤ minutes) (hlt : minutes < 100 * scale) :
    decode (whole * (100 * scale) + minutes) scale = whole + minutes / (60 * scale) := by
  have hunit : 0 < 100 * scale := by positivity
  have hquotient : (whole * (100 * scale) + minutes) / (100 * scale) = whole + minutes / (100 * scale) := by
    rw [add_div, mul_div_cancel_right₀ _ hunit.ne']
  have hfraction : ⌊minutes / (100 * scale)⌋ = 0 := by
    rw [Int.floor_eq_zero_iff]
    exact ⟨by positivity, (div_lt_one hunit).mpr hlt⟩
  have hwhole : ⌊(whole * (100 * scale) + minutes) / (100 * scale)⌋ = whole := by
    rw [hquotient, Int.floor_natCast_add, hfraction, add_zero]
  have htrunc : truncRat ((whole * (100 * scale) + minutes) / (100 * scale)) = whole := by
    rw [truncRat_of_nonneg (by positivity), hwhole]
  change (⌊(whole * (100 * scale) + minutes) / (100 * scale)⌋ : ℚ) +
    (whole * (100 * scale) + minutes - 100 * scale * truncRat ((whole * (100 * scale) + minutes) / (100 * scale))) /
      (60 * scale) = _
  rw [hwhole, htrunc]
  push_cast
  ring

/-- Only the minutes are rounded. -/
theorem encode_parts (scale : ℕ) {part : ℚ} (hnonneg : 0 ≤ part) (hlt : part < 1) :
    encode (whole + part) (scale : ℚ) = whole * (100 * scale) + roundRat (60 * scale * part) := by
  have hfloor : ⌊(whole : ℚ) + part⌋ = whole := by
    rw [Int.floor_natCast_add, Int.floor_eq_zero_iff.mpr ⟨hnonneg, hlt⟩, add_zero]
  change (roundRat (((⌊(whole : ℚ) + part⌋ : ℚ) * 100 + (whole + part - ⌊(whole : ℚ) + part⌋) * 60) * scale) : ℚ) = _
  have hsplit : ((whole : ℤ) * 100 + (whole + part - (whole : ℤ)) * 60) * (scale : ℚ) =
      (whole * (100 * scale) : ℕ) + 60 * scale * part := by
    push_cast
    ring
  rw [hfloor, hsplit, roundRat_natCast_add _ (by positivity)]
  push_cast
  rfl

/-- What a position becomes on the wire and back: its minutes are rounded to the scale. -/
theorem decode_encode {scale : ℕ} (hscale : 0 < scale) {part : ℚ} (hnonneg : 0 ≤ part) (hlt : part < 1) :
    decode (encode (whole + part) (scale : ℚ)) (scale : ℚ) = whole + roundRat (60 * scale * part) / (60 * scale) := by
  have hpos : (0 : ℚ) < scale := by exact_mod_cast hscale
  have hminutes : 0 ≤ 60 * scale * part := by positivity
  have hsixty : roundRat (60 * scale * part) ≤ (60 * scale : ℕ) := by
    apply roundRat_le hminutes
    push_cast
    nlinarith
  have hcast : (roundRat (60 * scale * part) : ℚ) ≤ 60 * scale := by exact_mod_cast hsixty
  rw [encode_parts scale hnonneg hlt, decode_parts hpos]
  · exact_mod_cast roundRat_nonneg hminutes
  · linarith

theorem abs_decode_encode_sub_le {scale : ℕ} (hscale : 0 < scale) {part : ℚ} (hnonneg : 0 ≤ part) (hlt : part < 1) :
    |decode (encode (whole + part) (scale : ℚ)) (scale : ℚ) - (whole + part)| ≤ 1 / (120 * scale) := by
  have hpos : (0 : ℚ) < 60 * scale := by positivity
  have herror := abs_roundRat_sub_le (x := 60 * scale * part) (by positivity)
  have hdifference : whole + roundRat (60 * scale * part) / (60 * scale) - (whole + part) =
      (roundRat (60 * scale * part) - 60 * scale * part) / (60 * scale) := by
    field_simp
    ring
  rw [decode_encode hscale hnonneg hlt, hdifference, abs_div, abs_of_pos hpos]
  calc |roundRat (60 * scale * part) - 60 * scale * part| / (60 * scale)
      ≤ 1 / 2 / (60 * scale) := by gcongr
    _ = 1 / (120 * scale) := by
      rw [div_div]
      ring_nf

/-- A coordinate with less than sixty minutes is what its position is encoded as. -/
theorem encode_decode (whole : ℕ) {scale : ℕ} (hscale : 0 < scale) {minutes : ℕ} (hlt : minutes < 60 * scale) :
    encode (decode ((whole * (100 * scale) + minutes : ℕ) : ℚ) (scale : ℚ)) (scale : ℚ) =
      (whole * (100 * scale) + minutes : ℕ) := by
  have hpos : (0 : ℚ) < scale := by exact_mod_cast hscale
  have hsixty : (minutes : ℚ) < 60 * scale := by exact_mod_cast hlt
  have hexact : 60 * scale * (minutes / (60 * scale) : ℚ) = minutes := by field_simp
  push_cast
  rw [decode_parts hpos (Nat.cast_nonneg _) (by linarith),
    encode_parts scale (by positivity) ((div_lt_one (by positivity)).mpr hsixty), hexact, roundRat_natCast]
  rfl

/-- Encoding and decoding undo each other: a position comes back within half a unit of the minutes,
also from the end of a degree, and a coordinate that a sensor can report comes back as it was. -/
theorem encoding_undoes_decoding :
    (∀ degrees : ℚ, 0 ≤ degrees → ∀ scale : ℤ, 1 ≤ scale →
      |decode (encode degrees (scale : ℚ)) (scale : ℚ) - degrees| ≤ 1 / (120 * scale)) ∧
    ∀ value : ℤ, 0 ≤ value → ∀ scale : ℤ, 1 ≤ scale → value % (100 * scale) < 60 * scale →
      encode (decode (value : ℚ) (scale : ℚ)) (scale : ℚ) = value := by
  constructor
  · intro degrees hdegrees scale hscale
    lift scale to ℕ using by omega
    lift ⌊degrees⌋ to ℕ using Int.floor_nonneg.mpr hdegrees with whole hwhole
    have hparts : degrees = whole + Int.fract degrees := by
      rw [Int.fract, ← hwhole]
      push_cast
      ring
    rw [hparts]
    exact abs_decode_encode_sub_le (by omega) (Int.fract_nonneg degrees) (Int.fract_lt_one degrees)
  · intro value hvalue scale hscale hminutes
    lift value to ℕ using hvalue
    lift scale to ℕ using by omega
    have hlt : value % (100 * scale) < 60 * scale := by exact_mod_cast hminutes
    have hback := encode_decode (value / (100 * scale)) (by omega) hlt
    rw [Nat.div_add_mod'] at hback
    exact_mod_cast hback

/-- The last half minute of a degree is rounded up to sixty minutes, as far off as it gets. -/
theorem next_degree_reached :
    encode (15599 / 1200 : ℚ) ((10 : ℤ) : ℚ) = 12600 ∧ decode (12600 : ℚ) ((10 : ℤ) : ℚ) = 13 ∧
      |decode (encode (15599 / 1200 : ℚ) ((10 : ℤ) : ℚ)) ((10 : ℤ) : ℚ) - 15599 / 1200| ≤ 1 / (120 * (10 : ℤ)) ∧
      encode (decode ((12599 : ℤ) : ℚ) ((10 : ℤ) : ℚ)) ((10 : ℤ) : ℚ) = (12599 : ℤ) :=
  ⟨by decide +kernel, by decide +kernel, encoding_undoes_decoding.1 _ (by norm_num) 10 (by decide),
    encoding_undoes_decoding.2 12599 (by decide) 10 (by decide) (by decide)⟩

end BinFleet.Coordinate
