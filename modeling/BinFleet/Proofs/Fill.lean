import BinFleet.Fill
import BinFleet.Number.Layout
import BinFleet.Proofs.Number.Order
import BinFleet.Proofs.Number.Written

namespace BinFleet

namespace Fill

open Number Number.Double Scalar

theorem ofFloat_zero : ofFloat 0.0 = .finite false ⟨0, -1074⟩ := by decide

variable {x y : Float} {a b : Bool} {d e : Scaled}

theorem ofFloat_negativeInfinity : ofFloat (-1.0 / 0.0) = .infinite true := by decide

theorem ofFloat_positiveInfinity : ofFloat (1.0 / 0.0) = .infinite false := by decide

theorem ofFloat_undefined : ofFloat (0.0 / 0.0) = .undefined := by decide

theorem beq_infinite {negative : Bool} (hx : ofFloat x = .finite a d) (hy : ofFloat y = .infinite negative) :
    (x == y) = false := by
  rw [Bool.eq_false_iff, ne_eq, beq_iff, rank_of_eq hx, hy]
  cases negative <;> simp [rank]

theorem greaterFloat_of_finite (hx : ofFloat x = .finite a d) (hy : ofFloat y = .finite b e) :
    greaterFloat x y =
      if x == 0.0 && x == y then if hasSign x then y else x else if x > y then x else y := by
  rw [greaterFloat, beq_infinite hx ofFloat_positiveInfinity, beq_infinite hy ofFloat_positiveInfinity,
    bne_self (by simp [hx]), bne_self (by simp [hy])]
  rfl

/-- A distance that is not negative stays as it is; the negative zero becomes the positive one. -/
theorem greaterFloat_zero (hx : ofFloat x = .finite a d) (h : 0 ≤ signed a d.value) :
    ofFloat (greaterFloat 0.0 x) = .finite false d := by
  have hcanonical := canonical_of_ofBits hx
  have hzero : ((0.0 : Float) == 0.0) = true := by decide
  have hsign : hasSign 0.0 = false := by decide
  rw [greaterFloat_of_finite ofFloat_zero hx, hzero, hsign, Bool.true_and]
  by_cases heq : (0.0 == x) = true
  · rw [if_pos heq, if_neg Bool.false_ne_true, ofFloat_zero]
    rw [beq_iff_of_finite ofFloat_zero hx, signed_zero] at heq
    have hd : d.value = 0 := by cases a <;> simp_all [signed]
    rw [(value_eq_zero hcanonical).mp hd]
  · have hnot : ¬ x < 0.0 := by
      rw [lt_iff_of_finite hx ofFloat_zero, signed_zero]
      exact not_lt.mpr h
    rw [if_neg heq, if_neg hnot, hx]
    rw [beq_iff_of_finite ofFloat_zero hx, signed_zero] at heq
    obtain rfl | rfl := signed_nonneg h hcanonical
    · rfl
    · exact absurd (signed_zero a).symm heq

/-- What a range that is not empty can be. -/
inductive Range : Double → Prop where
  | undefined : Range .undefined
  | endless : Range (.infinite false)
  | proper {d : Scaled} (h : 0 < d.significand) : Range (.finite false d)

theorem range_of_not_le (h : ¬ x ≤ 0.0) : Range (ofFloat x) := by
  rcases hx : ofFloat x with ⟨a, d⟩ | ⟨_ | _⟩ | _
  · rw [le_iff_of_finite hx ofFloat_zero, signed_zero, not_le] at h
    have hnonneg := value_nonneg d
    cases a with
    | true =>
      have hneg : 0 < -d.value := h
      linarith
    | false =>
      refine .proper (Nat.pos_of_ne_zero fun hzero => h.ne' ?_)
      simp [signed, Scaled.value, hzero]
  · exact .endless
  · rw [le_iff, hx, rank_of_eq ofFloat_zero] at h
    exact absurd ⟨_, _, rfl, rfl, bot_le⟩ h
  · exact .undefined

/-- The distance that counts. -/
def clamped (distance range : Float) : Float := lesserFloat range (greaterFloat 0.0 distance)

theorem percentage_eq {distance range : Float} (h : ¬ range ≤ 0.0) :
    percentage distance range = 100 * clamped distance range / range := by
  have hle : ¬ Scalar.le range (Scalar.ofNat 0) = true := by
    change ¬ decide (range ≤ 0.0) = true
    rwa [decide_eq_true_eq]
  rw [percentage, if_neg hle]
  rfl

theorem clamped_undefined {distance range : Float} (hr : ofFloat range = .undefined)
    (hx : ofFloat distance = .finite a d) (h : 0 ≤ signed a d.value) : ofFloat (clamped distance range) = .undefined := by
  have hgreater := greaterFloat_zero hx h
  have hfirst : (range == -1.0 / 0.0) = false := by
    rw [Bool.eq_false_iff, ne_eq, beq_iff, hr]
    simp [rank]
  have hself : (range != range) = true := by
    rw [bne, Bool.not_eq_true', Bool.eq_false_iff, ne_eq, beq_self_iff, hr]
    simp
  rw [clamped, lesserFloat, hfirst, beq_infinite hgreater ofFloat_negativeInfinity, hself]
  exact ofFloat_undefined

theorem lesserFloat_of_positive (hx : ofFloat x ≠ .undefined) (hpos : 0.0 < x) (hy : ofFloat y = .finite b e) :
    lesserFloat x y = if x < y then x else y := by
  rw [lt_iff, rank_of_eq ofFloat_zero, signed_zero] at hpos
  obtain ⟨zero, r, hzero, hr, hlt⟩ := hpos
  obtain rfl := Option.some.inj hzero
  have hinfinite : (x == -1.0 / 0.0) = false := by
    rw [Bool.eq_false_iff, ne_eq, beq_iff, hr, ofFloat_negativeInfinity]
    rintro ⟨r', hr', hbot⟩
    obtain rfl := Option.some.inj hr'
    obtain rfl := Option.some.inj hbot
    exact absurd hlt (not_lt.mpr bot_le)
  have hne : (x == 0.0) = false := by
    rw [Bool.eq_false_iff, ne_eq, beq_iff, hr, rank_of_eq ofFloat_zero, signed_zero]
    rintro ⟨r', hr', hsame⟩
    obtain rfl := Option.some.inj hr'
    exact hlt.ne (Option.some.inj hsame)
  rw [lesserFloat, hinfinite, beq_infinite hy ofFloat_negativeInfinity, bne_self hx, bne_self (by simp [hy]), hne]
  rfl

theorem clamped_endless {distance range : Float} (hr : ofFloat range = .infinite false)
    (hx : ofFloat distance = .finite a d) (h : 0 ≤ signed a d.value) :
    ofFloat (clamped distance range) = .finite false d := by
  have hgreater := greaterFloat_zero hx h
  have hpos : 0.0 < range := by
    rw [lt_iff, rank_of_eq ofFloat_zero, hr]
    exact ⟨_, _, rfl, rfl, coe_lt_top _⟩
  have hnot : ¬ range < greaterFloat 0.0 distance := by
    rw [lt_iff, rank_of_eq hgreater, hr]
    rintro ⟨r, e, hr', he, hlt⟩
    obtain rfl := Option.some.inj hr'
    exact absurd hlt not_top_lt
  rw [clamped, lesserFloat_of_positive (by simp [hr]) hpos hgreater, if_neg hnot, hgreater]

theorem clamped_proper {distance range : Float} {r : Scaled} (hr : ofFloat range = .finite false r)
    (hpos : 0 < r.significand) (hx : ofFloat distance = .finite a d) (h : 0 ≤ signed a d.value) :
    ∃ c, ofFloat (clamped distance range) = .finite false c ∧ c.value ≤ r.value := by
  have hgreater := greaterFloat_zero hx h
  have hzero : 0.0 < range := by
    rw [lt_iff_of_finite ofFloat_zero hr, signed_zero]
    exact value_pos hpos
  rw [clamped, lesserFloat_of_positive (by simp [hr]) hzero hgreater]
  split_ifs with hless
  · exact ⟨r, hr, le_rfl⟩
  · rw [lt_iff_of_finite hr hgreater, not_lt] at hless
    exact ⟨d, hgreater, hless⟩

/-- The step above a hundred. -/
def justAbove : Scaled := ⟨7036874417766401, -46⟩

theorem justAbove_canonical : BinaryFormat.double.Canonical justAbove :=
  ⟨by decide, by decide, by decide, .inr (by decide)⟩

theorem ofFloat_justAbove : ofFloat 100.00000000000001 = .finite false justAbove := by decide

theorem value_justAbove : justAbove.value = 100 + 1 / 2 ^ 46 := by
  norm_num [Scaled.value, justAbove]

theorem percentage_proper {distance range : Float} {r c : Scaled} (hr : ofFloat range = .finite false r)
    (hpos : 0 < r.significand) (hc : ofFloat (clamped distance range) = .finite false c) (hle : c.value ≤ r.value)
    (hfinite : isFinite (100 * clamped distance range) = true) :
    ∃ p, ofFloat (100 * clamped distance range / range) = .finite false p ∧
      p.value ≤ justAbove.value := by
  obtain ⟨s, h, hh⟩ := isFinite_iff.mp hfinite
  have hcanonical := canonical_of_ofBits hc
  have hr0 := value_pos hpos
  have hc0 := value_nonneg c
  obtain ⟨rfl, -⟩ := nearest_canonical (by positivity) ((ofFloat_hundredfold hc).symm.trans hh)
  have herror := (abs_le.mp (multiple_error hcanonical ((ofFloat_hundredfold hc).symm.trans hh))).2
  have hquotient : h.value / r.value ≤ justAbove.value := by
    rw [value_justAbove, div_le_iff₀ hr0]
    push_cast at herror
    have hslack : 100 * r.value / 2 ^ 53 ≤ r.value / 2 ^ 46 := by
      rw [div_le_div_iff₀ (by positivity) (by positivity)]
      linarith
    have hless : 100 * c.value / 2 ^ 53 ≤ 100 * r.value / 2 ^ 53 := by gcongr
    linarith
  obtain ⟨p, hp, hpbound⟩ := nearest_mono (div_nonneg (value_nonneg h) hr0.le) hquotient
    (nearest_value false justAbove_canonical) false
  exact ⟨p, (ofFloat_quotient hh hr hpos).trans hp, hpbound⟩

/-- Either the hundredfold of the clamped distance is a number, and the share lies between zero and the
step above a hundred, or neither of the two is a number. -/
theorem percentage_cases {distance range : Float} (hrange : ¬ range ≤ 0.0)
    (hx : ofFloat distance = .finite a d) (h : 0 ≤ signed a d.value) :
    (isFinite (100 * clamped distance range) = true ∧
      ∃ p, ofFloat (percentage distance range) = .finite false p ∧ p.value ≤ justAbove.value) ∨
    (isFinite (100 * clamped distance range) = false ∧ isFinite (percentage distance range) = false) := by
  rw [percentage_eq hrange]
  have hproper := range_of_not_le hrange
  generalize hr : ofFloat range = r at hproper
  cases hproper with
  | undefined =>
    have hproduct : ofFloat (100 * clamped distance range) = .undefined := by
      rw [ofFloat_mul, clamped_undefined hr hx h, mul_undefined]
    have hquotient : ofFloat (100 * clamped distance range / range) = .undefined := by
      rw [ofFloat_div, hproduct, undefined_div]
    exact .inr ⟨by simp [isFinite, hproduct], by simp [isFinite, hquotient]⟩
  | endless =>
    have hproduct := ofFloat_hundredfold (clamped_endless hr hx h)
    rcases nearest_cases false ((100 : ℕ) * d.value) with ⟨p, hp⟩ | hinfinite
    · rw [hp] at hproduct
      refine .inl ⟨isFinite_iff.mpr ⟨_, _, hproduct⟩, ⟨0, -1074⟩, ?_, ?_⟩
      · rw [ofFloat_div, hproduct, hr]
        rfl
      · simpa [Scaled.value] using value_nonneg justAbove
    · rw [hinfinite] at hproduct
      have hquotient : ofFloat (100 * clamped distance range / range) = .undefined := by
        rw [ofFloat_div, hproduct, hr]
        rfl
      exact .inr ⟨by simp [isFinite, hproduct], by simp [isFinite, hquotient]⟩
  | proper hpos =>
    obtain ⟨c, hc, hle⟩ := clamped_proper hr hpos hx h
    have hproduct := ofFloat_hundredfold hc
    rcases nearest_cases false ((100 : ℕ) * c.value) with ⟨p, hp⟩ | hinfinite
    · have hfinite := isFinite_iff.mpr ⟨_, _, hproduct.trans hp⟩
      exact .inl ⟨hfinite, percentage_proper hr hpos hc hle hfinite⟩
    · rw [hinfinite] at hproduct
      have hquotient : ofFloat (100 * clamped distance range / range) = .infinite false := by
        rw [ofFloat_div, hproduct, hr]
        rfl
      exact .inr ⟨by simp [isFinite, hproduct], by simp [isFinite, hquotient]⟩

section Accepted

-- what a configuration and a reading are checked for
variable {distance range : Float} (hrange : ¬ range ≤ 0.0) (hfinite : isFinite distance = true)
  (hnonneg : 0.0 ≤ distance)

include hfinite hnonneg in
theorem exists_nonneg : ∃ a d, ofFloat distance = .finite a d ∧ 0 ≤ signed a d.value := by
  obtain ⟨a, d, hx⟩ := isFinite_iff.mp hfinite
  refine ⟨a, d, hx, ?_⟩
  rwa [le_iff_of_finite ofFloat_zero hx, signed_zero] at hnonneg

include hrange hfinite hnonneg

theorem isFinite_percentage :
    isFinite (percentage distance range) = isFinite (100 * clamped distance range) := by
  obtain ⟨a, d, hx, h⟩ := exists_nonneg hfinite hnonneg
  rcases percentage_cases hrange hx h with ⟨hproduct, p, hp, -⟩ | ⟨hproduct, hnot⟩
  · rw [hproduct, isFinite_iff.mpr ⟨_, _, hp⟩]
  · rw [hproduct, hnot]

/-- A share that is a number may be one step too high. -/
theorem percentage_bounds (h : isFinite (percentage distance range) = true) :
    0.0 ≤ percentage distance range ∧ percentage distance range ≤ 100.00000000000001 := by
  obtain ⟨a, d, hx, hd⟩ := exists_nonneg hfinite hnonneg
  rcases percentage_cases hrange hx hd with ⟨-, p, hp, hle⟩ | ⟨-, hnot⟩
  · rw [le_iff_of_finite ofFloat_zero hp, le_iff_of_finite hp ofFloat_justAbove, signed_zero]
    exact ⟨value_nonneg p, hle⟩
  · rw [hnot] at h
    cases h

/-- A range with a hundredfold never gives a share without a number. -/
theorem isFinite_percentage_of_range (h : isFinite (100 * range) = true) :
    isFinite (percentage distance range) = true := by
  rw [isFinite_percentage hrange hfinite hnonneg]
  obtain ⟨a, d, hx, hd⟩ := exists_nonneg hfinite hnonneg
  have hproper := range_of_not_le hrange
  generalize hr : ofFloat range = r at hproper
  obtain ⟨b, p, he⟩ := isFinite_iff.mp h
  rw [ofFloat_mul, hr, ofFloat_hundred] at he
  cases hproper with
  | undefined => cases he
  | endless => cases he
  | @proper e hpos =>
    obtain ⟨c, hc, hle⟩ := clamped_proper hr hpos hx hd
    rw [← ofFloat_hundred, ← hr, ← ofFloat_mul, ofFloat_hundredfold hr] at he
    have hless : (100 : ℕ) * c.value ≤ (100 : ℕ) * e.value := by gcongr
    obtain ⟨p, hp, -⟩ := nearest_mono (mul_nonneg (Nat.cast_nonneg _) (value_nonneg c)) hless he false
    exact isFinite_iff.mpr ⟨_, _, (ofFloat_hundredfold hc).trans hp⟩

end Accepted

example : (percentage 0.69 0.69 == (100.00000000000001 : Float)) = true := by decide

end Fill

end BinFleet
