import BinFleet.Scalar
import Mathlib

namespace BinFleet.Scalar

/-- Toward zero. -/
def truncRat (x : ℚ) : ℤ := if 0 ≤ x then ⌊x⌋ else ⌈x⌉

/-- To the nearest integer, a half away from zero. -/
def roundRat (x : ℚ) : ℤ := if 0 ≤ x then ⌊x + 1 / 2⌋ else ⌈x - 1 / 2⌉

instance : Scalar ℚ where
  ofNat n := n
  floor x := ⌊x⌋
  trunc x := truncRat x
  round x := roundRat x
  remainder x y := x - y * truncRat (x / y)
  lesser := min
  greater := max
  le x y := x ≤ y
  lt x y := x < y
  isNumber _ := true
  toNat x := (truncRat x).toNat

theorem truncRat_of_nonneg {x : ℚ} (h : 0 ≤ x) : truncRat x = ⌊x⌋ := if_pos h

theorem truncRat_intCast (n : ℤ) : truncRat n = n := by
  rw [truncRat]
  split_ifs <;> simp

theorem truncRat_mono : Monotone truncRat := by
  intro x y hle
  unfold truncRat
  split_ifs with hx hy hy
  · exact Int.floor_le_floor hle
  · exact absurd (hx.trans hle) hy
  · -- zero stands between the two
    exact (Int.ceil_le.mpr (by exact_mod_cast (not_le.mp hx).le)).trans (Int.floor_nonneg.mpr hy)
  · exact Int.ceil_le_ceil hle

theorem roundRat_of_nonneg {x : ℚ} (h : 0 ≤ x) : roundRat x = ⌊x + 1 / 2⌋ := if_pos h

theorem roundRat_nonneg {x : ℚ} (h : 0 ≤ x) : 0 ≤ roundRat x := by
  rw [roundRat_of_nonneg h]
  exact Int.floor_nonneg.mpr (by linarith)

theorem roundRat_le {x : ℚ} {n : ℤ} (h : 0 ≤ x) (hle : x ≤ n) : roundRat x ≤ n := by
  rw [roundRat_of_nonneg h]
  exact Int.lt_add_one_iff.mp (Int.floor_lt.mpr (by push_cast; linarith))

theorem abs_roundRat_sub_le {x : ℚ} (h : 0 ≤ x) : |roundRat x - x| ≤ 1 / 2 := by
  rw [roundRat_of_nonneg h, abs_le]
  have hlower := Int.lt_floor_add_one (x + 1 / 2)
  have hupper := Int.floor_le (x + 1 / 2)
  constructor <;> linarith

/-- Only the part beside a whole number is rounded. -/
theorem roundRat_natCast_add (n : ℕ) {x : ℚ} (h : 0 ≤ x) : roundRat (n + x) = n + roundRat x := by
  rw [roundRat_of_nonneg h, roundRat_of_nonneg (by positivity), add_assoc, Int.floor_natCast_add]

theorem roundRat_natCast (n : ℕ) : roundRat n = n := by
  have hzero : roundRat 0 = 0 := by decide +kernel
  rw [← add_zero (n : ℚ), roundRat_natCast_add n le_rfl, hzero, add_zero]

end BinFleet.Scalar
