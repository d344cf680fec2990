import BinFleet.Number.Whole
import BinFleet.Proofs.Number.Bounds

namespace BinFleet.Number

namespace Scaled

theorem num_pos {d : Scaled} (h : 0 < d.significand) : 0 < d.num := Nat.mul_pos h (Nat.pow_pos Nat.two_pos)

theorem whole_le_value (d : Scaled) : (d.whole : ℚ) ≤ d.value := by
  rw [← num_div_den, whole]
  exact Nat.cast_div_le

theorem whole_of_value {d : Scaled} {n : ℕ} (h : d.value = n) : d.whole = n := by
  have hden : (d.den : ℚ) ≠ 0 := by exact_mod_cast d.den_pos.ne'
  rw [← num_div_den, div_eq_iff hden] at h
  have hnum : d.num = n * d.den := by exact_mod_cast h
  rw [whole, hnum, Nat.mul_div_cancel _ d.den_pos]

end Scaled

namespace Double

theorem ofFloat_toFloat_infinite (negative : Bool) : ofFloat (toFloat (.infinite negative)) = .infinite negative :=
  ofFloat_toFloat (by cases negative <;> decide) (ofBits_toBits_infinite negative)

/-- What was rounded is a double. -/
theorem ofFloat_toFloat_nearest (negative : Bool) {q : ℚ} (hq : 0 ≤ q) :
    ofFloat (nearest negative q).toFloat = nearest negative q := by
  rcases nearest_cases negative q with ⟨p, hp⟩ | hinfinite
  · rw [hp]
    exact ofFloat_toFloat_finite (nearest_canonical hq hp).2
  · rw [hinfinite]
    exact ofFloat_toFloat_infinite negative

/-- A whole number is its own whole part. -/
theorem Denotes.whole {x : Float} {n : ℤ} (h : Denotes x n) :
    (ofFloat x).trunc = ofFloat x ∧ (ofFloat x).toInt? = some n := by
  obtain ⟨a, d, hx, hvalue⟩ := h
  have hmagnitude : d.value = n.natAbs := by
    rw [← abs_of_nonneg (value_nonneg d), ← abs_signed a, hvalue, Nat.cast_natAbs, Int.cast_abs]
  have hwhole := Scaled.whole_of_value hmagnitude
  rw [hx]
  constructor
  · rw [trunc, hwhole, ofRatio_eq_nearest a Nat.one_pos (q := d.value) (by rw [hmagnitude, Nat.cast_one, div_one]),
      nearest_value a (canonical_of_ofBits hx)]
  · rw [toInt?, hwhole, Int.natCast_natAbs]
    rw [hmagnitude, Nat.cast_natAbs, signed] at hvalue
    cases a with
    | false => exact congrArg some (Int.cast_injective (α := ℚ) hvalue)
    | true => exact congrArg some (Int.cast_injective (α := ℚ) ((Int.cast_neg _).trans hvalue))

variable {x y : Float} {a b : Bool} {d e : Scaled}

/-- The greatest double is far enough from overflow for the one that a negative number is rounded by. -/
theorem ofFloat_floor (hx : ofFloat x = .finite a d) : ∃ p, ofFloat (Number.floor x) = .finite a p := by
  have hwhole (k : ℕ) (hk : k ≤ d.whole + 1) : ∃ p, ofFloat (ofRatio a k 1).toFloat = .finite a p := by
    have hnonneg : (0 : ℚ) ≤ k := Nat.cast_nonneg k
    have hlt : (k : ℚ) < (2 ^ 53 - 1 / 2) * 2 ^ (971 : ℤ) := by
      have hbound : (k : ℚ) ≤ d.whole + 1 := by exact_mod_cast hk
      have hgreatest := value_le_greatest (canonical_of_ofBits hx)
      have hle := d.whole_le_value
      have hunit : (4 : ℚ) ≤ 2 ^ (971 : ℤ) := by
        calc (4 : ℚ) = 2 ^ (2 : ℤ) := by norm_num
          _ ≤ 2 ^ (971 : ℤ) := zpow_le_zpow_right₀ one_le_two (by decide)
      generalize (2 : ℚ) ^ (971 : ℤ) = unit at hgreatest hunit ⊢
      linarith
    obtain ⟨p, hp⟩ := nearest_finite hnonneg hlt a
    rw [ofRatio_eq_nearest a Nat.one_pos (by rw [Nat.cast_one, div_one]), ofFloat_toFloat_nearest a hnonneg]
    exact ⟨p, hp⟩
  rw [Number.floor, hx, floor]
  split_ifs
  · exact hwhole _ le_rfl
  · exact hwhole _ (Nat.le_succ _)

theorem ofFloat_floor_infinite (hx : ofFloat x = .infinite a) : ofFloat (Number.floor x) = .infinite a := by
  rw [Number.floor, hx]
  exact ofFloat_toFloat_infinite a

theorem ofFloat_remainder (hx : ofFloat x = .finite a d) (hy : ofFloat y = .finite b e) (he : 0 < e.significand) :
    ∃ p, ofFloat (Number.remainder x y) = .finite a p ∧ p.value ≤ e.value := by
  have hdivisor : 0 < e.num * d.den := Nat.mul_pos (Scaled.num_pos he) d.den_pos
  have hden : 0 < d.den * e.den := Nat.mul_pos d.den_pos e.den_pos
  have hless : ((d.num * e.den % (e.num * d.den) : ℕ) : ℚ) / (d.den * e.den : ℕ) ≤ e.value := by
    have hd : (d.den : ℚ) ≠ 0 := by exact_mod_cast d.den_pos.ne'
    have he' : (e.den : ℚ) ≠ 0 := by exact_mod_cast e.den_pos.ne'
    calc ((d.num * e.den % (e.num * d.den) : ℕ) : ℚ) / (d.den * e.den : ℕ)
        ≤ (e.num * d.den : ℕ) / (d.den * e.den : ℕ) := by
          gcongr
          exact (Nat.mod_lt _ hdivisor).le
      _ = e.value := by
          rw [← Scaled.num_div_den]
          push_cast
          field_simp
  have hnonneg : 0 ≤ ((d.num * e.den % (e.num * d.den) : ℕ) : ℚ) / (d.den * e.den : ℕ) := by positivity
  obtain ⟨p, hp, hle⟩ := nearest_mono hnonneg hless (nearest_value b (canonical_of_ofBits hy)) a
  refine ⟨p, ?_, hle⟩
  rw [Number.remainder, hx, hy, remainder, if_neg he.ne', ofRatio_eq_nearest a hden rfl,
    ofFloat_toFloat_nearest a hnonneg, hp]

/-- Nothing is taken away for an infinite divisor. -/
theorem ofFloat_remainder_infinite (hx : ofFloat x = .finite a d) (hy : ofFloat y = .infinite b) :
    ofFloat (Number.remainder x y) = .finite a d := by
  rw [Number.remainder, hx, hy]
  exact ofFloat_toFloat_finite (canonical_of_ofBits hx)

end Double

end BinFleet.Number
