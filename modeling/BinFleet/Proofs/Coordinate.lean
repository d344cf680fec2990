import BinFleet.Coordinate
import BinFleet.Proofs.Number.Order
import BinFleet.Proofs.Number.Whole
import BinFleet.Proofs.Number.Written

namespace BinFleet

namespace Coordinate

open Number Number.Double

variable {x y : Float} {a b : Bool} {d e s m : Scaled}

theorem significand_pos (hx : ofFloat x = .finite a d) (h : (x != 0.0) = true) : 0 < d.significand := by
  have hzero : ofFloat 0.0 = .finite false ⟨0, -1074⟩ := by decide
  rw [bne, Bool.not_eq_true', Bool.eq_false_iff, ne_eq, beq_iff_of_finite hx hzero, signed_zero] at h
  refine Nat.pos_of_ne_zero fun hd => h ?_
  cases a <;> simp [signed, Scaled.value, hd]

/-- What is left of a coordinate when the whole degrees are taken away. -/
theorem ofFloat_rest {value scale : Float} (hvalue : ofFloat value = .finite a d)
    (hscale : ofFloat scale = .finite b s) (hs : 0 < s.significand) :
    ∃ p, ofFloat (Number.remainder value (100 * scale)) = .finite a p ∧ p.value ≤ 101 * s.value := by
  have hpos := value_pos hs
  have hproduct := ofFloat_hundredfold hscale
  rcases nearest_cases b ((100 : ℕ) * s.value) with ⟨k, hk⟩ | hinfinite
  · obtain ⟨hk0, -, hupper⟩ := multiple_bounds (by decide) (canonical_of_ofBits hscale) hs hk
    rw [hk] at hproduct
    obtain ⟨p, hp, hle⟩ := ofFloat_remainder hvalue hproduct hk0
    push_cast at hupper
    exact ⟨p, hp, by linarith⟩
  · -- nothing is taken away, and the scale is a hundredth of the greatest double at least
    have hlarge := nearest_infinite (by positivity) hinfinite
    rw [hinfinite] at hproduct
    have hgreatest := value_le_greatest (canonical_of_ofBits hvalue)
    have hunit : (0 : ℚ) < 2 ^ (971 : ℤ) := by positivity
    refine ⟨d, ofFloat_remainder_infinite hvalue hproduct, ?_⟩
    generalize (2 : ℚ) ^ (971 : ℤ) = unit at hlarge hgreatest hunit
    push_cast at hlarge
    linarith

theorem ofFloat_sixtyfold (hx : ofFloat x = .finite a d) : ofFloat (60 * x) = nearest a ((60 : ℕ) * d.value) :=
  ofFloat_multiple (e := ⟨8444249301319680, -47⟩) (by decide) (by norm_num [Scaled.value]) hx

/-- There are few minutes as long as they are not measured in a finer scale than the degrees. -/
theorem ofFloat_minutes {rest minutesScale : Float} (hrest : ofFloat rest = .finite a d)
    (hle : d.value ≤ 101 * s.value) (hscale : ofFloat minutesScale = .finite b m) (hm : 0 < m.significand)
    (hsm : s.value ≤ m.value) :
    ∃ c n, ofFloat (rest / (60 * minutesScale)) = .finite c n ∧ n.value ≤ 2 := by
  have hpos := value_pos hm
  have hproduct := ofFloat_sixtyfold hscale
  rcases nearest_cases b ((60 : ℕ) * m.value) with ⟨k, hk⟩ | hinfinite
  · obtain ⟨hk0, hlower, -⟩ := multiple_bounds (by decide) (canonical_of_ofBits hscale) hm hk
    rw [hk] at hproduct
    push_cast at hlower
    have htwo : (⟨2 ^ 52, -51⟩ : Scaled).value = 2 := by norm_num [Scaled.value]
    have hcanonical : BinaryFormat.double.Canonical ⟨2 ^ 52, -51⟩ :=
      ⟨by decide, by decide, by decide, .inr (by decide)⟩
    have hquotient : d.value / k.value ≤ (⟨2 ^ 52, -51⟩ : Scaled).value := by
      rw [htwo, div_le_iff₀ (value_pos hk0)]
      linarith
    obtain ⟨n, hn, hbound⟩ := nearest_mono (div_nonneg (value_nonneg d) (value_nonneg k)) hquotient
      (nearest_value false hcanonical) (a ^^ b)
    exact ⟨_, n, (ofFloat_quotient hrest hproduct hk0).trans hn, htwo ▸ hbound⟩
  · rw [hinfinite] at hproduct
    refine ⟨a ^^ b, ⟨0, -1074⟩, ?_, by simp [Scaled.value]⟩
    rw [ofFloat_div, hrest, hproduct]
    rfl

theorem finite_of_add {u w : Double} {sign : Bool} {n : Scaled} (h : u.add w = .finite sign n) :
    (∃ a d, u = .finite a d) ∧ ∃ b e, w = .finite b e := by
  revert h
  fun_cases add u w with
  | case1 a d b e => exact fun _ => ⟨⟨a, d, rfl⟩, b, e, rfl⟩
  | case2 => exact fun _ => ⟨⟨_, _, rfl⟩, _, _, rfl⟩
  | _ => intro h; cases h

/-- A sum is finite exactly if both numbers are and their sum lies below the last half step of the doubles. -/
theorem isFinite_add_iff : isFinite (x + y) = true ↔
    ∃ p q, Denotes x p ∧ Denotes y q ∧ |p + q| < (2 ^ 53 - 1 / 2) * 2 ^ (971 : ℤ) := by
  have hlimit : (0 : ℚ) < (2 ^ 53 - 1 / 2) * 2 ^ (971 : ℤ) := mul_pos (by norm_num) (by positivity)
  rw [isFinite_iff, ofFloat_add]
  constructor
  · rintro ⟨sign, n, hn⟩
    obtain ⟨⟨a, d, hx⟩, b, e, hy⟩ := finite_of_add hn
    refine ⟨_, _, ⟨a, d, hx, rfl⟩, ⟨b, e, hy, rfl⟩, ?_⟩
    rw [hx, hy, add] at hn
    split_ifs at hn with hzero
    · rwa [hzero, abs_zero]
    · obtain ⟨rfl, -⟩ := nearest_canonical (abs_nonneg _) hn
      exact (nearest_finite_iff (abs_nonneg _) _).mp ⟨n, hn⟩
  · rintro ⟨p, q, ⟨a, d, hx, rfl⟩, ⟨b, e, hy, rfl⟩, hlt⟩
    rw [hx, hy, add]
    split_ifs
    · exact ⟨_, _, rfl⟩
    · obtain ⟨n, hn⟩ := nearest_finite (abs_nonneg _) hlt (decide (signed a d.value + signed b e.value < 0))
      exact ⟨_, n, hn⟩

theorem isFinite_add (hx : ofFloat x = .finite a d) (hy : ofFloat y = .finite b e) (he : e.value ≤ 2) :
    isFinite (x + y) = true := by
  refine isFinite_add_iff.mpr ⟨_, _, ⟨a, d, hx, rfl⟩, ⟨b, e, hy, rfl⟩, ?_⟩
  have hd : |signed a d.value| = d.value := by rw [abs_signed, abs_of_nonneg (value_nonneg d)]
  have he' : |signed b e.value| = e.value := by rw [abs_signed, abs_of_nonneg (value_nonneg e)]
  have hsum := abs_add_le (signed a d.value) (signed b e.value)
  have hgreatest := value_le_greatest (canonical_of_ofBits hx)
  have hunit : (8 : ℚ) ≤ 2 ^ (971 : ℤ) := by
    calc (8 : ℚ) = 2 ^ (3 : ℤ) := by norm_num
      _ ≤ 2 ^ (971 : ℤ) := zpow_le_zpow_right₀ one_le_two (by decide)
  rw [hd, he'] at hsum
  generalize (2 : ℚ) ^ (971 : ℤ) = unit at hgreatest hunit ⊢
  linarith

theorem isFinite_decodeWith {value scale minutesScale : Float} (hvalue : isFinite value = true)
    (hscale : isFinite scale = true ∧ (scale != 0.0) = true)
    (hminutes : isFinite minutesScale = true ∧ (minutesScale != 0.0) = true) (hle : scale.abs ≤ minutesScale.abs) :
    isFinite (decodeWith value scale minutesScale) = isFinite (value / (100 * scale)) := by
  obtain ⟨a, d, hd⟩ := isFinite_iff.mp hvalue
  obtain ⟨b, s, hs⟩ := isFinite_iff.mp hscale.1
  obtain ⟨c, m, hm⟩ := isFinite_iff.mp hminutes.1
  rw [le_iff_of_finite (ofFloat_abs hs) (ofFloat_abs hm)] at hle
  obtain ⟨p, hp, hple⟩ := ofFloat_rest hd hs (significand_pos hs hscale.2)
  obtain ⟨sign, n, hn, hnle⟩ := ofFloat_minutes hp hple hm (significand_pos hm hminutes.2) hle
  change isFinite (Number.floor (value / (100 * scale)) + Number.remainder value (100 * scale) / (60 * minutesScale)) = _
  rcases hq : ofFloat (value / (100 * scale)) with ⟨e, q⟩ | e | _
  · obtain ⟨w, hw⟩ := ofFloat_floor hq
    rw [isFinite_add hw hn hnle, isFinite_iff.mpr ⟨e, q, hq⟩]
  · rw [isFinite, ofFloat_add, ofFloat_floor_infinite hq, hn, isFinite, hq]
    rfl
  · have hfloor : ofFloat (Number.floor (value / (100 * scale))) = .undefined := by
      rw [Number.floor, hq]
      decide
    rw [isFinite, ofFloat_add, hfloor, undefined_add, isFinite, hq]

end Coordinate

end BinFleet
