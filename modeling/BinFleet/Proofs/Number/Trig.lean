import BinFleet.Number.Trig
import BinFleet.Proofs.Number.Bounds

namespace BinFleet.Number

namespace Double

/-- No finite number. -/
def Unbounded (r : Double) : Prop := r = .undefined ∨ ∃ a, r = .infinite a

namespace Unbounded

variable {r : Double}

theorem add (h : Unbounded r) (s : Double) : Unbounded (r.add s) := by
  obtain rfl | ⟨a, rfl⟩ := h
  · exact .inl (undefined_add s)
  · cases s with
    | finite b e => exact .inr ⟨a, rfl⟩
    | infinite b =>
      rw [Double.add]
      split_ifs
      · exact .inr ⟨a, rfl⟩
      · exact .inl rfl
    | undefined => exact .inl rfl

theorem mul (h : Unbounded r) (b : Bool) {e : Scaled} (he : e.significand ≠ 0) : Unbounded (r.mul (.finite b e)) := by
  obtain rfl | ⟨a, rfl⟩ := h
  · exact .inl rfl
  · exact .inr ⟨a ^^ b, if_neg he⟩

theorem div (h : Unbounded r) (b : Bool) (e : Scaled) : Unbounded (r.div (.finite b e)) := by
  obtain rfl | ⟨a, rfl⟩ := h
  · exact .inl rfl
  · exact .inr ⟨a ^^ b, rfl⟩

end Unbounded

end Double

namespace Trig

open Double

variable {x y z : Float}

/-- A bound that each step makes five times as great, and whatever lower bound the step keeps. -/
theorem horner_within (lower : ℕ → ℤ) {c : ℕ}
    (hstep : ∀ {y a : Float} {b : ℕ}, c ≤ b → b * 5 ≤ 2 ^ 53 → Within y (lower b) b → Within a (lower c) c →
      Within (y * z + a) (lower (b * 5)) (b * 5 : ℕ))
    (cs : List Float) (hcs : ∀ a ∈ cs, Within a (lower c) c) {b : ℕ} (hc : c ≤ b) (hy : Within y (lower b) b)
    (hmax : b * 5 ^ cs.length ≤ 2 ^ 53) :
    Within (cs.foldl (fun y a => y * z + a) y) (lower (b * 5 ^ cs.length)) (b * 5 ^ cs.length : ℕ) := by
  induction cs generalizing y b with
  | nil => simpa using hy
  | cons a cs ih =>
    have hpow : b * 5 ^ (cs.length + 1) = b * 5 * 5 ^ cs.length := by ring
    rw [List.length_cons, hpow] at hmax ⊢
    have hfive : b * 5 ≤ 2 ^ 53 := le_trans (Nat.le_mul_of_pos_right _ (by positivity)) hmax
    apply ih
    · intro d hd
      exact hcs d (List.mem_cons_of_mem a hd)
    · omega
    · exact hstep hc hfive hy (hcs a List.mem_cons_self)
    · exact hmax

/-- At an argument between zero and four, for coefficients of either sign. -/
theorem step_within (hz : Within z 0 4) {a : Float} {b c : ℕ} (hc : c ≤ b) (hfive : b * 5 ≤ 2 ^ 53)
    (hy : Within y (-b) b) (ha : Within a (-c) c) : Within (y * z + a) (-(b * 5 : ℕ)) (b * 5 : ℕ) := by
  have hproduct := hy.mul (hz.mono (show (-4 : ℤ) ≤ 0 by decide) le_rfl) (by omega)
  have hsum := hproduct.add ha (by omega) (by omega)
  exact hsum.mono (by omega) (by omega)

/-- Coefficients of one or more give values of one or more. -/
theorem step_one_le (hz : Within z 0 4) {a : Float} {b c : ℕ} (hc : c ≤ b) (hfive : b * 5 ≤ 2 ^ 53)
    (hy : Within y 1 b) (ha : Within a 1 c) : Within (y * z + a) 1 (b * 5 : ℕ) := by
  have hproduct := (hy.mono (show (0 : ℤ) ≤ 1 by decide) le_rfl).mul_of_nonneg hz (by omega)
  have hsum := hproduct.add ha (by omega) (by omega)
  exact hsum.mono (by omega) (by omega)

theorem within_zero : Within 0.0 0 0 := by decide +kernel

theorem within_one : Within 1.0 1 1 := by decide +kernel

theorem arcTangentSmall_within (hx : Within x (-2) 2) : Within (arcTangentSmall x) (-1000000) 1000000 := by
  have hz : Within (x * x) 0 4 := hx.square (by decide)
  -- of the two polynomials only the bounds matter, and that the second one stays away from zero
  have hquotient : ∀ p q, Within p (-80000) 80000 → Within q 1 1600000 →
      Within (x * (x * x * p / q) + x) (-1000000) 1000000 := by
    intro p q hp hq
    have hproduct := (hz.mono (show (-4 : ℤ) ≤ 0 by decide) le_rfl).mul hp (by decide)
    have hratio := hproduct.div hq (by decide)
    have hsum := (hx.mul hratio (by decide)).add hx (by decide) (by decide)
    exact hsum.mono (by decide) (by decide)
  apply hquotient
  · exact horner_within (fun b => -b) (c := 128) (b := 128) (step_within hz) _ (by decide +kernel) le_rfl
      (by decide +kernel) (by decide)
  · exact horner_within (fun _ => 1) (c := 512) (b := 512) (step_one_le hz) _ (by decide +kernel) le_rfl
      (by decide +kernel) (by decide)

/-- The reciprocal of what is greater than one, an infinity included. -/
theorem reciprocal_within {c : Float} {n : ℤ} (hc : Within c 1 n) (h : c < x) : Within (1.0 / x) 0 1 := by
  have hone := within_one.denotes
  obtain ⟨p, hp, hp1, -⟩ := hc
  cases hx : ofFloat x with
  | finite a d =>
    have hq : Denotes x (signed a d.value) := ⟨a, d, hx, rfl⟩
    have hpq := (hp.lt_iff hq).mp h
    generalize signed a d.value = q at hq hpq
    rw [Int.cast_one] at hp1
    have hpos : 0 < q := by linarith
    apply (hone.div hq hpos.ne').within (by decide) (by decide)
    · rw [Int.cast_zero, Int.cast_one]
      positivity
    · rw [Int.cast_one, div_le_one hpos]
      linarith
  | infinite a =>
    obtain ⟨b, d, hb, -⟩ := hone
    have hzero : ofFloat (1.0 / x) = .finite (b ^^ a) ⟨0, -1074⟩ := by
      rw [ofFloat_div, hb, hx]
      rfl
    exact ⟨0, ⟨_, _, hzero, signed_zero _⟩, by rw [Int.cast_zero], by rw [Int.cast_one]; exact zero_le_one⟩
  | undefined => exact absurd hx (ne_undefined_of_lt h).2

theorem arcTangent_within (hx : 0.0 ≤ x) : Within (arcTangent x) (-2000000) 2000000 := by
  have hmore : Within 6.123233995736765886130e-17 0 1 := by decide +kernel
  simp only [arcTangent]
  split_ifs with hsmall hlarge
  · have hle : Within x 0 1 := Within.of_le within_zero (show Within 0.66 0 1 by decide +kernel) hx hsmall
    exact (arcTangentSmall_within (hle.mono (by decide) (by decide))).mono (by decide) (by decide)
  · have hreciprocal := reciprocal_within (show Within 2.41421356237309504880 1 3 by decide +kernel) hlarge
    have htangent := arcTangentSmall_within (hreciprocal.mono (by decide) (by decide))
    have hdifference := (show Within (pi / 2.0) 1 2 by decide +kernel).sub htangent (by decide) (by decide)
    exact (hdifference.add hmore (by decide) (by decide)).mono (by decide) (by decide)
  · have hedge : Within 2.41421356237309504880 2 3 := by decide +kernel
    have hle := le_of_not_lt (ne_undefined_of_le hx).2 hedge.ne_undefined hlarge
    have hbounds : Within x 0 3 := Within.of_le within_zero hedge hx hle
    have hratio := ((hbounds.sub within_one (by decide) (by decide)).mono (show (-2 : ℤ) ≤ 0 - 1 by decide) le_rfl).div
      (hbounds.add within_one (by decide) (by decide)) (by decide)
    have htangent := arcTangentSmall_within hratio
    have hsum := (show Within (pi / 4.0) 0 1 by decide +kernel).add htangent (by decide) (by decide)
    have hhalf : Within (0.5 * 6.123233995736765886130e-17) 0 1 := by decide +kernel
    exact (hsum.add hhalf (by decide) (by decide)).mono (by decide) (by decide)

/-- The angle of a point with proper coordinates. -/
theorem angle_within (hy : Within y 0 1) (hx : Within x 0 1) : Within (angle y x) (-2000000) 2000000 := by
  rw [angle, bne_self hy.ne_undefined, bne_self hx.ne_undefined]
  simp only [Bool.or_self, Bool.false_eq_true, if_false]
  split_ifs with hyzero hxzero
  · exact within_zero.mono (by decide) (by decide)
  · decide +kernel
  · apply arcTangent_within
    obtain ⟨p, hp, hp0, -⟩ := hy
    obtain ⟨q, hq, hq0, -⟩ := hx
    have hne : q ≠ 0 := by
      intro heq
      exact hxzero ((hq.beq_iff within_zero.denotes).mpr (by rw [heq, Int.cast_zero]))
    rw [Int.cast_zero] at hp0 hq0
    exact (hp.div hq hne).nonneg (div_nonneg hp0 hq0)

theorem angle_undefined (h : ofFloat y = .undefined ∨ ofFloat x = .undefined) : ofFloat (angle y x) = .undefined := by
  have htest : (y != y || x != x) = true := by
    rcases h with hy | hx
    · rw [bne_self_iff.mpr hy, Bool.true_or]
    · rw [bne_self_iff.mpr hx, Bool.or_true]
  rw [angle, if_pos htest]
  decide

/-- There is no sine of an infinity. -/
theorem sine_undefined (h : Unbounded (ofFloat x)) : ofFloat (sine x) = .undefined := by
  rw [← leftInverse_toFloat x]
  rcases h with hx | ⟨a, hx⟩
  · rw [hx]
    decide +kernel
  · rw [hx]
    cases a <;> decide +kernel

end Trig

end BinFleet.Number
