import BinFleet.Proofs.Number.Double
import BinFleet.Proofs.Number.Nearest

namespace BinFleet.Number

open Float.Model (UnpackedFloat Format totalExponent)
open Float.Model.UnpackedFloat

/-- The mantissa and its round bit as a number. -/
def halves (em : ExtendedMantissa) : ℚ := em.mantissa + if em.roundBit then 1 / 2 else 0

/-- The mantissa and the residual bits were cut from this number. -/
structure CutFrom (x : ℚ) (em : ExtendedMantissa) : Prop where
  lower : halves em ≤ x
  upper : x < halves em + 1 / 2
  sticky : em.stickyBit = true ↔ halves em < x

namespace CutFrom

variable {x : ℚ} {em : ExtendedMantissa}

theorem mantissa_le (h : CutFrom x em) : (em.mantissa : ℚ) ≤ x := by
  have hlower := h.lower
  unfold halves at hlower
  split_ifs at hlower <;> linarith

theorem lt_mantissa (h : CutFrom x em) : x < em.mantissa + 1 := by
  have hupper := h.upper
  unfold halves at hupper
  split_ifs at hupper <;> linarith

theorem shiftRightOne (h : CutFrom x em) : CutFrom (x / 2) em.shiftRightOne := by
  have hhalves : halves em.shiftRightOne = em.mantissa / 2 := by
    have hsplit : (em.mantissa : ℚ) = 2 * (em.mantissa / 2 : ℕ) + (em.mantissa % 2 : ℕ) := by
      exact_mod_cast (Nat.div_add_mod em.mantissa 2).symm
    rcases Nat.mod_two_eq_zero_or_one em.mantissa with hbit | hbit <;>
      simp only [halves, ExtendedMantissa.shiftRightOne, hbit] at hsplit ⊢ <;> norm_num at hsplit ⊢ <;> linarith
  have hle := h.mantissa_le
  have hlt := h.lt_mantissa
  refine ⟨by rw [hhalves]; linarith, by rw [hhalves]; linarith, ?_⟩
  rw [hhalves, div_lt_div_iff_of_pos_right two_pos]
  have hsticky := h.sticky
  have hlower := h.lower
  simp only [ExtendedMantissa.shiftRightOne, Bool.or_eq_true]
  unfold halves at hsticky hlower
  cases hround : em.roundBit <;> simp only [hround, Bool.false_eq_true, if_false, if_true, add_zero] at hsticky hlower
  · simpa using hsticky
  · simp only [true_or, true_iff]
    linarith

theorem shiftRight (h : CutFrom x em) (n : ℕ) : CutFrom (x / 2 ^ n) (em >>> n) := by
  change CutFrom _ (n.repeat ExtendedMantissa.shiftRightOne em)
  induction n with
  | zero => simpa [Nat.repeat] using h
  | succ n ih =>
    rw [Nat.repeat, pow_succ, ← div_div]
    exact ih.shiftRightOne

/-- The residual bits say all that rounding needs. -/
theorem nearest (h : CutFrom x em) : Nearest x em.roundedMantissa := by
  obtain ⟨m, round, sticky⟩ := em
  obtain ⟨hlower, hupper, hsticky⟩ := h
  simp only [halves] at hlower hupper hsticky
  cases round <;> cases sticky <;>
    simp only [Bool.false_eq_true, if_false, if_true, false_iff, true_iff, not_lt, add_zero] at hlower hupper hsticky <;>
    simp only [ExtendedMantissa.roundedMantissa, ExtendedMantissa.accuracy, Accuracy.roundToNearestEven]
  · exact ⟨by linarith, by linarith, by rintro (h | h) <;> linarith⟩
  · exact ⟨by linarith, by linarith, by rintro (h | h) <;> linarith⟩
  · have hx : x = m + 1 / 2 := le_antisymm hsticky hlower
    rcases Nat.mod_two_eq_zero_or_one m with hbit | hbit <;> rw [hbit]
    · exact ⟨by push_cast; linarith, by push_cast; linarith, fun _ => by omega⟩
    · exact ⟨by push_cast; linarith, by push_cast; linarith, fun _ => by omega⟩
  · exact ⟨by push_cast; linarith, by push_cast; linarith, by push_cast; rintro (h | h) <;> linarith⟩

end CutFrom

theorem mantissa_ofMantissaAndAccuracy (m : ℕ) (accuracy : Accuracy) :
    (ExtendedMantissa.ofMantissaAndAccuracy m accuracy).mantissa = m := by
  rcases accuracy with _ | (_ | _ | _) <;> rfl

theorem cutFrom_exact (m : ℕ) : CutFrom m (.ofMantissaAndAccuracy m .exact) :=
  ⟨by simp [halves, ExtendedMantissa.ofMantissaAndAccuracy], by simp [halves, ExtendedMantissa.ofMantissaAndAccuracy],
    by simp [halves, ExtendedMantissa.ofMantissaAndAccuracy]⟩

theorem cutFrom_fraction (m : ℕ) {num den : ℕ} (h : num < den) :
    CutFrom (m + num / den) (.ofMantissaAndAccuracy m (accuracyOfFraction num den)) := by
  have hden : (0 : ℚ) < den := by exact_mod_cast Nat.zero_lt_of_lt h
  have hlt : (num : ℚ) / den < 1 := by
    rw [div_lt_one hden]
    exact_mod_cast h
  unfold accuracyOfFraction
  split_ifs with hzero
  · simpa [hzero] using cutFrom_exact m
  · have hpos : (0 : ℚ) < num / den := by
      have : 0 < num := Nat.pos_of_ne_zero hzero
      positivity
    have hcast : ((2 * num : ℕ) : ℚ) / den = 2 * (num / den) := by
      push_cast
      ring
    rcases Nat.lt_trichotomy (2 * num) den with hcmp | hcmp | hcmp
    · have hhalf : (num : ℚ) / den < 1 / 2 := by
        have : ((2 * num : ℕ) : ℚ) / den < 1 := (div_lt_one hden).mpr (by exact_mod_cast hcmp)
        linarith
      rw [Nat.compare_eq_lt.mpr hcmp]
      exact ⟨by simp [halves, ExtendedMantissa.ofMantissaAndAccuracy]; linarith,
        by simp [halves, ExtendedMantissa.ofMantissaAndAccuracy]; linarith,
        by simpa [halves, ExtendedMantissa.ofMantissaAndAccuracy] using hpos⟩
    · have hhalf : (num : ℚ) / den = 1 / 2 := by
        have : ((2 * num : ℕ) : ℚ) / den = 1 := by rw [hcmp, div_self hden.ne']
        linarith
      rw [Nat.compare_eq_eq.mpr hcmp, hhalf]
      exact ⟨by simp [halves, ExtendedMantissa.ofMantissaAndAccuracy],
        by simp [halves, ExtendedMantissa.ofMantissaAndAccuracy],
        by simp [halves, ExtendedMantissa.ofMantissaAndAccuracy]⟩
    · have hhalf : (1 : ℚ) / 2 < num / den := by
        have : 1 < ((2 * num : ℕ) : ℚ) / den := (one_lt_div hden).mpr (by exact_mod_cast hcmp)
        linarith
      rw [Nat.compare_eq_gt.mpr hcmp]
      exact ⟨by simp [halves, ExtendedMantissa.ofMantissaAndAccuracy]; linarith,
        by simp [halves, ExtendedMantissa.ofMantissaAndAccuracy]; linarith,
        by simp [halves, ExtendedMantissa.ofMantissaAndAccuracy]; linarith⟩

/-- The exponent that a number of this many digits is shifted to. -/
theorem targetExponent_eq (m : ℕ) (e : ℤ) :
    Format.binary64.targetExponent (totalExponent m e) = max ((m.log2 : ℤ) + 1 + e - 53) (-1074) := rfl

theorem shift_exponent {e t : ℤ} (h : e ≤ t) : e + (t - e).toNat = t := by omega

theorem div_pow_toNat (x : ℚ) {e t : ℤ} (h : e ≤ t) : x / 2 ^ (t - e).toNat = x * 2 ^ e / 2 ^ t := by
  rw [← zpow_natCast, Int.toNat_of_nonneg (by omega), zpow_sub₀ two_ne_zero]
  field_simp

/-- The target exponent fits every number with these leading digits. -/
theorem targetExponent_fits {m : ℕ} {e : ℤ} {x : ℚ} (hlower : (m : ℚ) ≤ x) (hupper : x < m + 1)
    (hzero : m = 0 → e ≤ -1074) :
    BinaryFormat.double.FitsExponent (x * 2 ^ e) (max ((m.log2 : ℤ) + 1 + e - 53) (-1074)) := by
  generalize ht : max ((m.log2 : ℤ) + 1 + e - 53) (-1074) = t
  have hpow : (0 : ℚ) < 2 ^ e := by positivity
  refine ⟨ht ▸ le_max_right _ _, ?_, ?_⟩
  · have hdigits : ((m + 1 : ℕ) : ℚ) ≤ 2 ^ ((m.log2 : ℤ) + 1) := by
      exact_mod_cast Nat.succ_le_of_lt (Nat.lt_log2_self (n := m))
    calc x * 2 ^ e < 2 ^ ((m.log2 : ℤ) + 1) * 2 ^ e := by
          gcongr
          push_cast at hdigits
          linarith
      _ = 2 ^ ((m.log2 : ℤ) + 1 + e) := (zpow_add₀ two_ne_zero _ _).symm
      _ ≤ 2 ^ ((BinaryFormat.double.precision : ℤ) + t) :=
        zpow_le_zpow_right₀ one_le_two (by simp only [BinaryFormat.double]; omega)
  · rcases Nat.eq_zero_or_pos m with h0 | hpos
    · left
      have he := hzero h0
      rw [h0, Nat.log2_zero] at ht
      simp only [BinaryFormat.double]
      omega
    · by_cases hleast : t = -1074
      · exact .inl hleast
      · right
        have hdigits : (2 : ℚ) ^ (m.log2 : ℤ) ≤ m := by exact_mod_cast Nat.log2_self_le hpos.ne'
        have hexponent : (BinaryFormat.double.precision : ℤ) - 1 + t = m.log2 + e := by
          simp only [BinaryFormat.double]
          omega
        rw [hexponent, zpow_add₀ two_ne_zero]
        gcongr
        exact hdigits.trans hlower

/-- A mantissa that grew out of its width is halved; any other stays as it is. -/
theorem shiftToTargetExponent_exact {n : ℕ} {t : ℤ} (hn : n ≤ 2 ^ 53) (ht : -1074 ≤ t) :
    (shiftToTargetExponent .binary64 n t .exact).1.mantissa = (if n = 2 ^ 53 then 2 ^ 52 else n) ∧
      (shiftToTargetExponent .binary64 n t .exact).2 = if n = 2 ^ 53 then t + 1 else t := by
  simp only [shiftToTargetExponent, shiftToExponent, targetExponent_eq]
  split_ifs with hfull
  · subst hfull
    have hshift : (max (((2 ^ 53 : ℕ).log2 : ℤ) + 1 + t - 53) (-1074) - t).toNat = 1 := by
      rw [Nat.log2_two_pow]
      omega
    rw [hshift]
    exact ⟨rfl, rfl⟩
  · have hlog : n.log2 ≤ 52 := by
      rcases Nat.eq_zero_or_pos n with h0 | hpos
      · simp [h0]
      · have := (Nat.log2_lt hpos.ne').mpr (lt_of_le_of_ne hn hfull)
        omega
    have hshift : (max ((n.log2 : ℤ) + 1 + t - 53) (-1074) - t).toNat = 0 := by omega
    rw [hshift]
    exact ⟨rfl, by simp⟩

/-- A mantissa of proper width under an exponent, which may be out of range. -/
def unpackedOf (s : Sign) (k : ℕ) (e : ℤ) : UnpackedFloat :=
  if h : k = 0 then .zero s else .finite s k e (Nat.pos_of_ne_zero h)

theorem unpackedOf_spec (s : Sign) {k : ℕ} {e : ℤ} (hwidth : k < 2 ^ 53) (hleast : -1074 ≤ e)
    (hfull : e = -1074 ∨ 2 ^ 52 ≤ k) :
    Double.Rounded (unpackedOf s k e) ∧ Double.ofUnpacked (unpackedOf s k e) =
      if 971 < e then .infinite (isNegative s) else .finite (isNegative s) ⟨k, e⟩ := by
  unfold unpackedOf
  split_ifs with hzero hover hover
  · omega
  · obtain rfl : e = -1074 := hfull.resolve_right (by omega)
    exact ⟨trivial, by rw [hzero]; rfl⟩
  · exact ⟨⟨hwidth, hleast, hfull⟩, if_pos hover⟩
  · exact ⟨⟨hwidth, hleast, hfull⟩, if_neg hover⟩

/-- Rounding by residual bits is rounding to the nearest double. -/
theorem roundWithAccuracy_spec (s : Sign) {m : ℕ} {e : ℤ} {accuracy : Accuracy} {x : ℚ}
    (h : CutFrom x (.ofMantissaAndAccuracy m accuracy)) (hx : 0 < x)
    (he : e ≤ max ((m.log2 : ℤ) + 1 + e - 53) (-1074)) (hzero : m = 0 → e ≤ -1074) :
    Double.Rounded (roundWithAccuracy .binary64 s m e accuracy) ∧
      Double.ofUnpacked (roundWithAccuracy .binary64 s m e accuracy) = Double.nearest (isNegative s) (x * 2 ^ e) := by
  have hlower := h.mantissa_le
  have hupper := h.lt_mantissa
  rw [mantissa_ofMantissaAndAccuracy] at hlower hupper
  have hfits := targetExponent_fits hlower hupper hzero
  generalize ht : max ((m.log2 : ℤ) + 1 + e - 53) (-1074) = t at he hfits
  have hleast : -1074 ≤ t := ht ▸ le_max_right _ _
  have hnearest : Nearest (x * 2 ^ e / 2 ^ t)
      (shiftToExponent m e accuracy t).1.roundedMantissa := by
    rw [← div_pow_toNat x he]
    exact (h.shiftRight _).nearest
  have hexponent : (shiftToExponent m e accuracy t).2 = t := shift_exponent he
  have hfirst : shiftToTargetExponent .binary64 m e accuracy = shiftToExponent m e accuracy t := by
    rw [shiftToTargetExponent, targetExponent_eq, ht]
  have hpositive : 0 < x * 2 ^ e := by positivity
  generalize hn : (shiftToExponent m e accuracy t).1.roundedMantissa = n at hnearest
  have hround : RoundsWith (x * 2 ^ e) n t := ⟨hfits, hnearest⟩
  have hwidth := hround.width
  obtain ⟨hmantissa, hlast⟩ := shiftToTargetExponent_exact hwidth hleast
  have hresult : roundWithAccuracy .binary64 s m e accuracy =
      unpackedOf s (if n = 2 ^ 53 then 2 ^ 52 else n) (if n = 2 ^ 53 then t + 1 else t) := by
    simp only [roundWithAccuracy, hfirst, hn, hexponent, hmantissa, hlast, unpackedOf]
  rw [hresult, hround.nearest_eq hpositive]
  by_cases hcarry : n = 2 ^ 53
  · simp only [if_pos hcarry]
    exact unpackedOf_spec s (by decide) (by omega) (.inr le_rfl)
  · simp only [if_neg hcarry]
    exact unpackedOf_spec s (by omega) hleast hround.full

namespace Double

/-- What unpacking gives. -/
def InRange : UnpackedFloat → Prop
  | .finite _ m e _ => BinaryFormat.double.Canonical ⟨m, e⟩
  | _ => True

theorem inRange_unpack (b : BitVec Format.binary64.numBits) : InRange (unpack .binary64 b) := by
  have hrounded := rounded_unpack b
  have hexponent : (unpackExponent b).toNat < 2 ^ 11 := (unpackExponent b).isLt
  have hbias : (Format.binary64.exponentBias + Format.binary64.mantissaBitsWithoutImplicit : Int) = 1075 := rfl
  have hrange : ∀ s m e h, unpack .binary64 b = .finite s m e h → e ≤ 971 := by
    intro s m e h hu
    simp only [unpack, hbias] at hu
    split_ifs at hu with h1 h2 h3 h4
    · cases hu
      rw [h3]
      decide
    · have hall : (unpackExponent b).toNat ≠ 2047 := fun h => h1 (BitVec.eq_of_toNat_eq h)
      cases hu
      omega
  cases hu : unpack .binary64 b with
  | finite s m e h =>
    rw [hu] at hrounded
    exact ⟨hrounded.1, hrounded.2.1, hrange s m e h hu, hrounded.2.2⟩
  | infinity s => trivial
  | notANumber => trivial
  | zero s => trivial

def mul : Double → Double → Double
  | .finite a x, .finite b y => nearest (a ^^ b) (x.value * y.value)
  | .infinite a, .infinite b => .infinite (a ^^ b)
  | .infinite a, .finite b y => if y.significand = 0 then .undefined else .infinite (a ^^ b)
  | .finite a x, .infinite b => if x.significand = 0 then .undefined else .infinite (a ^^ b)
  | _, _ => .undefined

theorem isNegative_mul (s t : Sign) : isNegative (s * t) = (isNegative s ^^ isNegative t) := by
  cases s <;> cases t <;> rfl

theorem ofUnpacked_finite {s : Sign} {m : ℕ} {e : ℤ} {hm : 0 < m} (h : InRange (.finite s m e hm)) :
    ofUnpacked (.finite s m e hm) = .finite (isNegative s) ⟨m, e⟩ := if_neg (not_lt.mpr h.greatest)

theorem mul_unpacked (s : Sign) {m n : ℕ} {e f : ℤ} (hm : 0 < m) (hn : 0 < n)
    (hx : BinaryFormat.double.Canonical ⟨m, e⟩) (hy : BinaryFormat.double.Canonical ⟨n, f⟩) :
    Rounded (roundWithAccuracy .binary64 s (m * n) (e + f) .exact) ∧
      ofUnpacked (roundWithAccuracy .binary64 s (m * n) (e + f) .exact) =
        nearest (isNegative s) (Scaled.value ⟨m, e⟩ * Scaled.value ⟨n, f⟩) := by
  have hpos : 0 < m * n := Nat.mul_pos hm hn
  have hdigits : e + f ≤ max (((m * n).log2 : ℤ) + 1 + (e + f) - 53) (-1074) := by
    by_cases hlarge : 2 ^ 52 ≤ m * n
    · have := (Nat.le_log2 hpos.ne').mpr hlarge
      omega
    · have hsmall : ∀ {k l : ℕ}, 0 < l → ¬ 2 ^ 52 ≤ k * l → ¬ 2 ^ 52 ≤ k := fun hl h hk =>
        h (hk.trans (Nat.le_mul_of_pos_right _ hl))
      have he : e = -1074 := hx.full.resolve_right (hsmall hn hlarge)
      have hf : f = -1074 := hy.full.resolve_right (hsmall hm (Nat.mul_comm m n ▸ hlarge))
      omega
  obtain ⟨hrounded, hdouble⟩ := roundWithAccuracy_spec s (cutFrom_exact (m * n)) (by exact_mod_cast hpos) hdigits
    (fun h => absurd h hpos.ne')
  refine ⟨hrounded, hdouble.trans (congrArg _ ?_)⟩
  simp only [Scaled.value, Nat.cast_mul, zpow_add₀ (two_ne_zero (α := ℚ))]
  ring

@[simp] theorem undefined_mul (r : Double) : mul .undefined r = .undefined := by cases r <;> rfl

@[simp] theorem mul_undefined (r : Double) : mul r .undefined = .undefined := by cases r <;> rfl

theorem mul_spec {u w : UnpackedFloat} (hu : InRange u) (hw : InRange w) :
    Rounded (UnpackedFloat.mul .binary64 u w) ∧
      ofUnpacked (UnpackedFloat.mul .binary64 u w) = (ofUnpacked u).mul (ofUnpacked w) := by
  cases u with
  | notANumber => cases w <;> exact ⟨trivial, (undefined_mul _).symm⟩
  | infinity s =>
    cases w with
    | notANumber => exact ⟨trivial, rfl⟩
    | infinity t => exact ⟨trivial, congrArg _ (isNegative_mul s t)⟩
    | zero t => exact ⟨trivial, rfl⟩
    | finite t n f hn =>
      rw [ofUnpacked_finite hw]
      exact ⟨trivial, (congrArg _ (isNegative_mul s t)).trans (if_neg hn.ne').symm⟩
  | zero s =>
    cases w with
    | notANumber => exact ⟨trivial, rfl⟩
    | infinity t => exact ⟨trivial, rfl⟩
    | zero t => 
      refine ⟨trivial, ?_⟩
      simp [UnpackedFloat.mul, ofUnpacked, mul, isNegative_mul, Scaled.value, nearest_zero]
    | finite t n f hn =>
      rw [ofUnpacked_finite hw]
      refine ⟨trivial, ?_⟩
      simp [UnpackedFloat.mul, ofUnpacked, mul, isNegative_mul, Scaled.value, nearest_zero]
  | finite s m e hm =>
    rw [ofUnpacked_finite hu]
    cases w with
    | notANumber => exact ⟨trivial, rfl⟩
    | infinity t => exact ⟨trivial, (congrArg _ (isNegative_mul s t)).trans (if_neg hm.ne').symm⟩
    | zero t =>
      refine ⟨trivial, ?_⟩
      simp [UnpackedFloat.mul, ofUnpacked, mul, isNegative_mul, Scaled.value, nearest_zero]
    | finite t n f hn =>
      rw [ofUnpacked_finite hw]
      obtain ⟨hrounded, hdouble⟩ := mul_unpacked (s * t) hm hn hu hw
      exact ⟨hrounded, hdouble.trans (by rw [isNegative_mul]; rfl)⟩

/-- A product is the double nearest to the exact one. -/
theorem ofFloat_mul (x y : Float) : ofFloat (x * y) = (ofFloat x).mul (ofFloat y) := by
  obtain ⟨hrounded, hdouble⟩ := mul_spec (inRange_unpack x.toModel.toBits.toBitVec)
    (inRange_unpack y.toModel.toBits.toBitVec)
  rw [ofFloat_eq x, ofFloat_eq y]
  exact (ofFloat_ofModel_pack hrounded).trans hdouble

def div : Double → Double → Double
  | .finite a x, .finite b y =>
    if y.significand = 0 then if x.significand = 0 then .undefined else .infinite (a ^^ b)
    else nearest (a ^^ b) (x.value / y.value)
  | .infinite a, .finite b _ => .infinite (a ^^ b)
  | .finite a _, .infinite b => .finite (a ^^ b) ⟨0, -1074⟩
  | _, _ => .undefined

theorem isNegative_div (s t : Sign) : isNegative (s / t) = (isNegative s ^^ isNegative t) := by
  cases s <;> cases t <;> rfl

/-- A quotient with enough digits: the dividend is shifted until the quotient has full width, or
down to the least exponent. -/
theorem divCore_digits {m n : ℕ} {e f t : ℤ} (hm : 0 < m) (hn : 0 < n) (hle : t ≤ e - f)
    (ht : t ≤ max ((m.log2 : ℤ) + 1 + e - (n.log2 + 1 + f) - 53) (-1074)) :
    t ≤ -1074 ∨ 2 ^ 52 ≤ m * 2 ^ (e - f - t).toNat / n := by
  by_cases hleast : t ≤ -1074
  · exact .inl hleast
  · right
    have hshift : n.log2 + 53 ≤ m.log2 + (e - f - t).toNat := by omega
    rw [Nat.le_div_iff_mul_le hn]
    calc 2 ^ 52 * n ≤ 2 ^ 52 * 2 ^ (n.log2 + 1) := Nat.mul_le_mul_left _ Nat.lt_log2_self.le
      _ = 2 ^ (n.log2 + 53) := by rw [← Nat.pow_add]; congr 1; omega
      _ ≤ 2 ^ (m.log2 + (e - f - t).toNat) := Nat.pow_le_pow_right Nat.two_pos hshift
      _ = 2 ^ m.log2 * 2 ^ (e - f - t).toNat := Nat.pow_add _ _ _
      _ ≤ m * 2 ^ (e - f - t).toNat := Nat.mul_le_mul_right _ (Nat.log2_self_le hm.ne')

theorem div_unpacked (s : Sign) {m n : ℕ} {e f : ℤ} (hm : 0 < m) (hn : 0 < n) :
    let (k, t, accuracy) := divCore .binary64 m e n f
    Rounded (roundWithAccuracy .binary64 s k t accuracy) ∧
      ofUnpacked (roundWithAccuracy .binary64 s k t accuracy) =
        nearest (isNegative s) (Scaled.value ⟨m, e⟩ / Scaled.value ⟨n, f⟩) := by
  have htarget : Format.binary64.targetExponent (totalExponent m e - totalExponent n f) =
      max ((m.log2 : ℤ) + 1 + e - (n.log2 + 1 + f) - 53) (-1074) := rfl
  simp only [divCore, htarget, Nat.shiftLeft_eq]
  have hle := min_le_left (e - f) (max ((m.log2 : ℤ) + 1 + e - (n.log2 + 1 + f) - 53) (-1074))
  have ht := min_le_right (e - f) (max ((m.log2 : ℤ) + 1 + e - (n.log2 + 1 + f) - 53) (-1074))
  generalize min (e - f) (max ((m.log2 : ℤ) + 1 + e - (n.log2 + 1 + f) - 53) (-1074)) = t at hle ht
  have hdigits := divCore_digits hm hn hle ht
  generalize hshifted : m * 2 ^ (e - f - t).toNat = shifted at hdigits
  have hnq : (0 : ℚ) < n := by exact_mod_cast hn
  have hsplit : (shifted : ℚ) / n = (shifted / n : ℕ) + ((shifted % n : ℕ) : ℚ) / n := by
    have : (shifted : ℚ) = n * (shifted / n : ℕ) + (shifted % n : ℕ) := by
      exact_mod_cast (Nat.div_add_mod shifted n).symm
    field_simp
    linarith
  have hcut := cutFrom_fraction (shifted / n) (Nat.mod_lt shifted hn)
  rw [← hsplit] at hcut
  have hpositive : (0 : ℚ) < shifted / n := by
    have : 0 < shifted := hshifted ▸ Nat.mul_pos hm (Nat.pow_pos Nat.two_pos)
    positivity
  have hwide : t ≤ max (((shifted / n : ℕ).log2 : ℤ) + 1 + t - 53) (-1074) := by
    rcases hdigits with hleast | hlarge
    · omega
    · have hlog := (Nat.le_log2 (by omega)).mpr hlarge
      omega
  have hzero : shifted / n = 0 → t ≤ -1074 := fun h0 => hdigits.resolve_right (by omega)
  have hvalue : (shifted : ℚ) / n * 2 ^ t = Scaled.value ⟨m, e⟩ / Scaled.value ⟨n, f⟩ := by
    have hpow : (2 : ℚ) ^ (e - f - t).toNat * 2 ^ t = 2 ^ e / 2 ^ f := by
      rw [← zpow_natCast, Int.toNat_of_nonneg (by omega), ← zpow_add₀ two_ne_zero, ← zpow_sub₀ two_ne_zero]
      congr 1
      omega
    rw [Scaled.value, Scaled.value, ← hshifted]
    push_cast
    rw [div_mul_eq_mul_div, mul_assoc, hpow]
    field_simp
  obtain ⟨hrounded, hdouble⟩ := roundWithAccuracy_spec s hcut hpositive hwide hzero
  exact ⟨hrounded, hdouble.trans (congrArg _ hvalue)⟩

@[simp] theorem undefined_div (r : Double) : div .undefined r = .undefined := by cases r <;> rfl

theorem div_spec {u w : UnpackedFloat} (hu : InRange u) (hw : InRange w) :
    Rounded (UnpackedFloat.div .binary64 u w) ∧
      ofUnpacked (UnpackedFloat.div .binary64 u w) = (ofUnpacked u).div (ofUnpacked w) := by
  cases u with
  | notANumber => cases w <;> exact ⟨trivial, (undefined_div _).symm⟩
  | infinity s =>
    cases w with
    | notANumber => exact ⟨trivial, rfl⟩
    | infinity t => exact ⟨trivial, rfl⟩
    | zero t => exact ⟨trivial, congrArg _ (isNegative_div s t)⟩
    | finite t n f hn =>
      rw [ofUnpacked_finite hw]
      exact ⟨trivial, congrArg _ (isNegative_div s t)⟩
  | zero s =>
    cases w with
    | notANumber => exact ⟨trivial, rfl⟩
    | infinity t => exact ⟨trivial, congrArg (Double.finite · _) (isNegative_div s t)⟩
    | zero t => exact ⟨trivial, rfl⟩
    | finite t n f hn =>
      rw [ofUnpacked_finite hw]
      refine ⟨trivial, ?_⟩
      simp [UnpackedFloat.div, ofUnpacked, div, isNegative_div, Scaled.value, nearest_zero, hn.ne']
  | finite s m e hm =>
    rw [ofUnpacked_finite hu]
    cases w with
    | notANumber => exact ⟨trivial, rfl⟩
    | infinity t => exact ⟨trivial, congrArg (Double.finite · _) (isNegative_div s t)⟩
    | zero t =>
      refine ⟨trivial, ?_⟩
      simp [UnpackedFloat.div, ofUnpacked, div, isNegative_div, hm.ne']
    | finite t n f hn =>
      rw [ofUnpacked_finite hw]
      obtain ⟨hrounded, hdouble⟩ := div_unpacked (s / t) (e := e) (f := f) hm hn
      refine ⟨hrounded, hdouble.trans ?_⟩
      rw [isNegative_div, div, if_neg hn.ne']

/-- A quotient is the double nearest to the exact one. -/
theorem ofFloat_div (x y : Float) : ofFloat (x / y) = (ofFloat x).div (ofFloat y) := by
  obtain ⟨hrounded, hdouble⟩ := div_spec (inRange_unpack x.toModel.toBits.toBitVec)
    (inRange_unpack y.toModel.toBits.toBitVec)
  rw [ofFloat_eq x, ofFloat_eq y]
  exact (ofFloat_ofModel_pack hrounded).trans hdouble

def signed (negative : Bool) (q : ℚ) : ℚ := if negative then -q else q

def add : Double → Double → Double
  | .finite a x, .finite b y =>
    let q := signed a x.value + signed b y.value
    if q = 0 then .finite (a && b) ⟨0, -1074⟩ else nearest (decide (q < 0)) |q|
  | .infinite a, .infinite b => if a = b then .infinite a else .undefined
  | .infinite a, .finite _ _ => .infinite a
  | .finite _ _, .infinite b => .infinite b
  | _, _ => .undefined

theorem round_unpacked (s : Sign) {m : ℕ} (hm : 0 < m) (e : ℤ) :
    Rounded (UnpackedFloat.round .binary64 s m e) ∧
      ofUnpacked (UnpackedFloat.round .binary64 s m e) = nearest (isNegative s) (m * 2 ^ e) := by
  simp only [UnpackedFloat.round, decreaseExponent, targetExponent_eq, Nat.shiftLeft_eq]
  generalize hk : (e - max ((m.log2 : ℤ) + 1 + e - 53) (-1074)).toNat = k
  have hpos : 0 < m * 2 ^ k := Nat.mul_pos hm (Nat.pow_pos Nat.two_pos)
  have hlog : (m * 2 ^ k).log2 = m.log2 + k := by
    rw [Nat.log2_eq_iff hpos.ne', Nat.pow_add, Nat.add_right_comm, Nat.pow_add]
    exact ⟨Nat.mul_le_mul_right _ (Nat.log2_self_le hm.ne'),
      Nat.mul_lt_mul_of_pos_right Nat.lt_log2_self (Nat.pow_pos Nat.two_pos)⟩
  obtain ⟨hrounded, hdouble⟩ := roundWithAccuracy_spec s (e := e - k) (cutFrom_exact (m * 2 ^ k))
    (by exact_mod_cast hpos) (by omega) (fun h => absurd h hpos.ne')
  refine ⟨hrounded, hdouble.trans (congrArg _ ?_)⟩
  rw [Nat.cast_mul, Nat.cast_pow, Nat.cast_ofNat, zpow_sub₀ two_ne_zero, zpow_natCast]
  field_simp

theorem normalize_unpacked (n e : ℤ) :
    Rounded (UnpackedFloat.normalize .binary64 n e .positive) ∧
      ofUnpacked (UnpackedFloat.normalize .binary64 n e .positive) =
        if (n : ℚ) * 2 ^ e = 0 then .finite false ⟨0, -1074⟩
        else nearest (decide ((n : ℚ) * 2 ^ e < 0)) |(n : ℚ) * 2 ^ e| := by
  have hpow : (0 : ℚ) < 2 ^ e := by positivity
  unfold UnpackedFloat.normalize
  rcases lt_trichotomy n 0 with hn | rfl | hn
  · have hneg : (n : ℚ) * 2 ^ e < 0 := mul_neg_of_neg_of_pos (by exact_mod_cast hn) hpow
    obtain ⟨hrounded, hdouble⟩ := round_unpacked .negative (m := (-n).toNat) (by omega) e
    rw [Int.compare_eq_lt.mpr hn, if_neg hneg.ne, abs_of_neg hneg, decide_eq_true hneg]
    refine ⟨hrounded, hdouble.trans (congrArg _ ?_)⟩
    rw [← Int.cast_natCast, Int.toNat_of_nonneg (by omega)]
    push_cast
    ring
  · simp [Rounded, ofUnpacked, isNegative]
  · have hpos : 0 < (n : ℚ) * 2 ^ e := mul_pos (by exact_mod_cast hn) hpow
    obtain ⟨hrounded, hdouble⟩ := round_unpacked .positive (m := n.toNat) (by omega) e
    rw [Int.compare_eq_gt.mpr hn, if_neg hpos.ne', abs_of_pos hpos, decide_eq_false hpos.le.not_gt]
    refine ⟨hrounded, hdouble.trans (congrArg _ ?_)⟩
    rw [← Int.cast_natCast, Int.toNat_of_nonneg (by omega)]

theorem apply_decreaseExponent (s : Sign) (m : ℕ) {e t : ℤ} (h : t ≤ e) :
    ((s.apply ((decreaseExponent m e t).1 : ℤ) : ℤ) : ℚ) * 2 ^ t = signed (isNegative s) (Scaled.value ⟨m, e⟩) := by
  have hvalue : (((decreaseExponent m e t).1 : ℤ) : ℚ) * 2 ^ t = m * 2 ^ e := by
    simp only [decreaseExponent, Nat.shiftLeft_eq]
    push_cast
    rw [← zpow_natCast, Int.toNat_of_nonneg (by omega), mul_assoc, ← zpow_add₀ two_ne_zero, sub_add_cancel]
  cases s with
  | positive => exact hvalue
  | negative =>
    rw [Sign.apply, Int.cast_neg, neg_mul, hvalue]
    rfl

theorem add_unpacked (s t : Sign) {m : ℕ} (n : ℕ) (e f : ℤ) (hm : 0 < m) :
    let sum := UnpackedFloat.normalize .binary64 (s.apply ((decreaseExponent m e (min e f)).1 : ℤ) +
      t.apply ((decreaseExponent n f (min e f)).1 : ℤ)) (min e f) .positive
    Rounded sum ∧ ofUnpacked sum = (Double.finite (isNegative s) ⟨m, e⟩).add (.finite (isNegative t) ⟨n, f⟩) := by
  intro sum
  obtain ⟨hrounded, hdouble⟩ := normalize_unpacked (s.apply ((decreaseExponent m e (min e f)).1 : ℤ) +
      t.apply ((decreaseExponent n f (min e f)).1 : ℤ)) (min e f)
  refine ⟨hrounded, hdouble.trans ?_⟩
  rw [Int.cast_add, add_mul, apply_decreaseExponent s m (min_le_left e f), apply_decreaseExponent t n (min_le_right e f)]
  simp only [add]
  split_ifs with hzero
  · have hpos : 0 < (⟨m, e⟩ : Scaled).value := value_pos hm
    have hnonneg := value_nonneg ⟨n, f⟩
    cases s <;> cases t <;> simp only [signed, isNegative, if_true, Bool.false_eq_true, if_false] at hzero ⊢
    · linarith
    · rfl
    · rfl
    · rfl
  · rfl

/-- A number that is not zero, put together from its sign and its magnitude. -/
theorem nearest_signed (negative : Bool) {d : Scaled} (h : BinaryFormat.double.Canonical d) (hd : 0 < d.significand) :
    signed negative d.value ≠ 0 ∧
      nearest (decide (signed negative d.value < 0)) |signed negative d.value| = .finite negative d := by
  have hpos := value_pos hd
  cases negative <;> simp only [signed, if_true, Bool.false_eq_true, if_false]
  · rw [decide_eq_false hpos.le.not_gt, abs_of_pos hpos, nearest_value _ h]
    exact ⟨hpos.ne', rfl⟩
  · have hneg : -d.value < 0 := neg_neg_of_pos hpos
    rw [decide_eq_true hneg, abs_of_neg hneg, neg_neg, nearest_value _ h]
    exact ⟨hneg.ne, rfl⟩

theorem signed_zero (negative : Bool) : signed negative (⟨0, -1074⟩ : Scaled).value = 0 := by
  cases negative <;> simp [signed, Scaled.value]

theorem finite_zero_add (a b : Bool) {d : Scaled} (h : BinaryFormat.double.Canonical d) (hd : 0 < d.significand) :
    (Double.finite a ⟨0, -1074⟩).add (.finite b d) = .finite b d := by
  obtain ⟨hne, hnearest⟩ := nearest_signed b h hd
  simp only [add, signed_zero, zero_add, if_neg hne, hnearest]

theorem finite_add_zero (a b : Bool) {d : Scaled} (h : BinaryFormat.double.Canonical d) (hd : 0 < d.significand) :
    (Double.finite a d).add (.finite b ⟨0, -1074⟩) = .finite a d := by
  obtain ⟨hne, hnearest⟩ := nearest_signed a h hd
  simp only [add, signed_zero, add_zero, if_neg hne, hnearest]

theorem rounded_of_inRange {u : UnpackedFloat} (h : InRange u) : Rounded u := by
  cases u with
  | finite s m e hm => exact ⟨h.width, h.least, h.full⟩
  | _ => trivial

@[simp] theorem undefined_add (r : Double) : add .undefined r = .undefined := by cases r <;> rfl

theorem add_spec {u w : UnpackedFloat} (hu : InRange u) (hw : InRange w) :
    Rounded (UnpackedFloat.add .binary64 u w) ∧
      ofUnpacked (UnpackedFloat.add .binary64 u w) = (ofUnpacked u).add (ofUnpacked w) := by
  cases u with
  | notANumber => cases w <;> exact ⟨trivial, (undefined_add _).symm⟩
  | infinity s =>
    cases w with
    | notANumber => exact ⟨trivial, rfl⟩
    | infinity t => cases s <;> cases t <;> exact ⟨trivial, rfl⟩
    | zero t => exact ⟨trivial, rfl⟩
    | finite t n f hn =>
      rw [ofUnpacked_finite hw]
      exact ⟨trivial, rfl⟩
  | zero s =>
    cases w with
    | notANumber => exact ⟨trivial, rfl⟩
    | infinity t => exact ⟨trivial, rfl⟩
    | zero t =>
      have hzero : ∀ a b : Bool, (Double.finite a ⟨0, -1074⟩).add (.finite b ⟨0, -1074⟩) = .finite (a && b) ⟨0, -1074⟩ := by
        intro a b
        simp only [add, signed_zero, add_zero, if_true]
      refine ⟨by cases s <;> cases t <;> trivial, ?_⟩
      rw [ofUnpacked, ofUnpacked, hzero]
      cases s <;> cases t <;> rfl
    | finite t n f hn =>
      refine ⟨rounded_of_inRange hw, ?_⟩
      rw [ofUnpacked_finite hw]
      exact (ofUnpacked_finite hw).trans (finite_zero_add _ _ hw hn).symm
  | finite s m e hm =>
    cases w with
    | notANumber => exact ⟨trivial, by rw [ofUnpacked_finite hu]; rfl⟩
    | infinity t => exact ⟨trivial, by rw [ofUnpacked_finite hu]; rfl⟩
    | zero t =>
      refine ⟨rounded_of_inRange hu, ?_⟩
      rw [ofUnpacked_finite hu]
      exact (ofUnpacked_finite hu).trans (finite_add_zero _ _ hu hm).symm
    | finite t n f hn =>
      rw [ofUnpacked_finite hu, ofUnpacked_finite hw]
      exact add_unpacked s t n e f hm

/-- A sum is the double nearest to the exact one. -/
theorem ofFloat_add (x y : Float) : ofFloat (x + y) = (ofFloat x).add (ofFloat y) := by
  obtain ⟨hrounded, hdouble⟩ := add_spec (inRange_unpack x.toModel.toBits.toBitVec)
    (inRange_unpack y.toModel.toBits.toBitVec)
  rw [ofFloat_eq x, ofFloat_eq y]
  exact (ofFloat_ofModel_pack hrounded).trans hdouble

@[simp] theorem add_undefined (r : Double) : add r .undefined = .undefined := by cases r <;> rfl

def neg : Double → Double
  | .finite a d => .finite (!a) d
  | .infinite a => .infinite (!a)
  | .undefined => .undefined

theorem isNegative_neg (s : Sign) : isNegative (-s) = !isNegative s := by cases s <;> rfl

theorem ofUnpacked_neg (u : UnpackedFloat) : ofUnpacked u.neg = (ofUnpacked u).neg := by
  cases u with
  | notANumber => rfl
  | infinity s => exact congrArg Double.infinite (isNegative_neg s)
  | zero s => exact congrArg (Double.finite · _) (isNegative_neg s)
  | finite s m e hm =>
    rw [UnpackedFloat.neg, ofUnpacked, ofUnpacked, isNegative_neg]
    split_ifs <;> rfl

theorem inRange_neg {u : UnpackedFloat} (h : InRange u) : InRange u.neg := by
  cases u with
  | finite s m e hm => exact h
  | _ => trivial

theorem sub_unpacked (u w : UnpackedFloat) :
    UnpackedFloat.sub .binary64 u w = UnpackedFloat.add .binary64 u w.neg := by
  have happly (s : Sign) (n : ℤ) : (-s).apply n = -s.apply n := by
    cases s
    · exact (neg_neg n).symm
    · rfl
  cases u <;> cases w <;>
    simp only [UnpackedFloat.sub, UnpackedFloat.add, UnpackedFloat.neg, happly, Int.sub_eq_add_neg]

/-- A difference is the double nearest to the exact one. -/
theorem ofFloat_sub (x y : Float) : ofFloat (x - y) = (ofFloat x).add (ofFloat y).neg := by
  obtain ⟨hrounded, hdouble⟩ := add_spec (inRange_unpack x.toModel.toBits.toBitVec)
    (inRange_neg (inRange_unpack y.toModel.toBits.toBitVec))
  rw [← sub_unpacked] at hrounded hdouble
  rw [ofFloat_eq x, ofFloat_eq y, ← ofUnpacked_neg]
  exact (ofFloat_ofModel_pack hrounded).trans hdouble

/-- The remainder of a root is to twice the root as the fraction is to the whole, near enough to
round by. -/
theorem accuracy_root (root rem : ℕ) :
    (if rem = 0 then Accuracy.exact else .inexact (if rem ≤ root then .lt else .gt)) =
      accuracyOfFraction rem (2 * root + 1) := by
  unfold accuracyOfFraction
  split_ifs with hzero hle
  · rfl
  · rw [Nat.compare_eq_lt.mpr (by omega)]
  · rw [Nat.compare_eq_gt.mpr (by omega)]

/-- A root with enough digits, or down to the least exponent. -/
theorem sqrtCore_digits {m : ℕ} {e t : ℤ} (hm : 0 < m) (hle : t ≤ e / 2)
    (ht : t ≤ max (((m.log2 : ℤ) + 1 + e + 1) / 2 - 53) (-1074)) :
    t ≤ -1074 ∨ 2 ^ 52 ≤ (m * 2 ^ (e - 2 * t).toNat).sqrt := by
  by_cases hleast : t ≤ -1074
  · exact .inl hleast
  · right
    rw [Nat.le_sqrt, ← Nat.pow_add]
    calc 2 ^ (52 + 52) ≤ 2 ^ (m.log2 + (e - 2 * t).toNat) := Nat.pow_le_pow_right Nat.two_pos (by omega)
      _ = 2 ^ m.log2 * 2 ^ (e - 2 * t).toNat := Nat.pow_add _ _ _
      _ ≤ m * 2 ^ (e - 2 * t).toNat := Nat.mul_le_mul_right _ (Nat.log2_self_le hm.ne')

/-- The digits of a root and the fraction it is rounded by do not exceed it. -/
theorem root_fraction (n : ℕ) :
    n - n.sqrt * n.sqrt < 2 * n.sqrt + 1 ∧
      ((n.sqrt : ℚ) + (n - n.sqrt * n.sqrt : ℕ) / (2 * n.sqrt + 1 : ℕ)) ^ 2 ≤ n := by
  have hle := Nat.sqrt_le n
  have hlt : n - n.sqrt * n.sqrt < 2 * n.sqrt + 1 := by
    have := Nat.sqrt_le_add n
    omega
  refine ⟨hlt, ?_⟩
  have hn : (n : ℚ) = n.sqrt * n.sqrt + (n - n.sqrt * n.sqrt : ℕ) := by
    exact_mod_cast (Nat.add_sub_cancel' hle).symm
  generalize n.sqrt = root at hlt hn
  generalize n - root * root = rem at hlt hn
  have hpos : (0 : ℚ) < (2 * root + 1 : ℕ) := by positivity
  have hfraction : (rem : ℚ) / (2 * root + 1 : ℕ) ≤ 1 := by
    rw [div_le_one hpos]
    exact_mod_cast hlt.le
  have hwhole : (rem : ℚ) / (2 * root + 1 : ℕ) * (2 * root + 1) = rem := by
    have hcast : ((2 * root + 1 : ℕ) : ℚ) = 2 * root + 1 := by push_cast; rfl
    rw [← hcast, div_mul_cancel₀ _ hpos.ne']
  have hnonneg : 0 ≤ (rem : ℚ) / (2 * root + 1 : ℕ) := by positivity
  generalize (rem : ℚ) / (2 * root + 1 : ℕ) = f at hfraction hwhole hnonneg ⊢
  rw [hn]
  -- the square is `root ^ 2 + f * (2 * root + f)`, and the fraction is at most one
  nlinarith

theorem sqrt_unpacked {m : ℕ} {e : ℤ} (hm : 0 < m) :
    let (k, t, accuracy) := sqrtCore .binary64 m e
    Rounded (roundWithAccuracy .binary64 .positive k t accuracy) ∧ ∃ r, 0 < r ∧ r ^ 2 ≤ Scaled.value ⟨m, e⟩ ∧
      ofUnpacked (roundWithAccuracy .binary64 .positive k t accuracy) = nearest false r := by
  have htarget : Format.binary64.targetExponent ((totalExponent m e + 1).ediv 2) =
      max (((m.log2 : ℤ) + 1 + e + 1) / 2 - 53) (-1074) := rfl
  simp only [sqrtCore, htarget, Nat.shiftLeft_eq, accuracy_root]
  have hle : min (e.ediv 2) (max (((m.log2 : ℤ) + 1 + e + 1) / 2 - 53) (-1074)) ≤ e / 2 := min_le_left _ _
  have ht := min_le_right (e.ediv 2) (max (((m.log2 : ℤ) + 1 + e + 1) / 2 - 53) (-1074))
  generalize min (e.ediv 2) (max (((m.log2 : ℤ) + 1 + e + 1) / 2 - 53) (-1074)) = t at hle ht
  have hdigits := sqrtCore_digits hm hle ht
  have hvalue : ((m * 2 ^ (e - 2 * t).toNat : ℕ) : ℚ) * (2 ^ t) ^ 2 = Scaled.value ⟨m, e⟩ := by
    rw [Scaled.value, Nat.cast_mul, Nat.cast_pow, Nat.cast_ofNat, ← zpow_natCast, Int.toNat_of_nonneg (by omega),
      ← zpow_natCast, ← zpow_mul, mul_assoc, ← zpow_add₀ two_ne_zero]
    congr 2
    push_cast
    ring
  have hshifted : 0 < m * 2 ^ (e - 2 * t).toNat := Nat.mul_pos hm (Nat.pow_pos Nat.two_pos)
  generalize m * 2 ^ (e - 2 * t).toNat = n at hdigits hvalue hshifted
  obtain ⟨hlt, hsquare⟩ := root_fraction n
  have hroot : 0 < n.sqrt := Nat.sqrt_pos.mpr hshifted
  have hcut := cutFrom_fraction n.sqrt hlt
  generalize hr : (n.sqrt : ℚ) + (n - n.sqrt * n.sqrt : ℕ) / (2 * n.sqrt + 1 : ℕ) = r at hsquare hcut
  have hpositive : 0 < r := hr ▸ by positivity
  have hwide : t ≤ max ((n.sqrt.log2 : ℤ) + 1 + t - 53) (-1074) := by
    rcases hdigits with hleast | hlarge
    · omega
    · have hlog := (Nat.le_log2 hroot.ne').mpr hlarge
      omega
  obtain ⟨hrounded, hdouble⟩ := roundWithAccuracy_spec .positive hcut hpositive hwide (fun h => absurd h hroot.ne')
  refine ⟨hrounded, r * 2 ^ t, by positivity, ?_, hdouble⟩
  rw [mul_pow, ← hvalue]
  gcongr

/-- A root is the double nearest to a number that is not greater than it. -/
theorem ofFloat_sqrt {x : Float} {d : Scaled} (hx : ofFloat x = .finite false d) (hd : 0 < d.significand) :
    ∃ r, 0 < r ∧ r ^ 2 ≤ d.value ∧ ofFloat x.sqrt = nearest false r := by
  rw [ofFloat_eq] at hx
  cases hu : x.toModel.unpack with
  | infinity s | notANumber => rw [hu] at hx; cases hx
  | zero s =>
    rw [hu] at hx
    obtain ⟨-, rfl⟩ := Double.finite.inj hx
    exact absurd hd (Nat.lt_irrefl 0)
  | finite s m e hm =>
    have hrange : InRange x.toModel.unpack := inRange_unpack x.toModel.toBits.toBitVec
    rw [hu] at hx hrange
    rw [ofUnpacked_finite hrange] at hx
    obtain ⟨hsign, rfl⟩ := Double.finite.inj hx
    obtain rfl : s = .positive := by cases s <;> simp_all [isNegative]
    obtain ⟨hrounded, r, hpos, hsquare, hdouble⟩ := sqrt_unpacked (e := e) hm
    refine ⟨r, hpos, hsquare, ?_⟩
    change ofFloat (.ofModel (.pack (UnpackedFloat.sqrt .binary64 x.toModel.unpack))) = _
    rw [hu]
    exact (ofFloat_ofModel_pack hrounded).trans hdouble

theorem ofFloat_sqrt_zero {x : Float} {a : Bool} (hx : ofFloat x = .finite a ⟨0, -1074⟩) :
    ofFloat x.sqrt = .finite a ⟨0, -1074⟩ := by
  rw [← leftInverse_toFloat x, hx]
  cases a <;> decide

/-- What is less than zero has no root, and what is no number has none. -/
theorem ofFloat_sqrt_undefined {x : Float} (hx : ofFloat x = .undefined ∨ ofFloat x = .infinite true ∨
    ∃ d, ofFloat x = .finite true d ∧ 0 < d.significand) : ofFloat x.sqrt = .undefined := by
  have hrange : InRange x.toModel.unpack := inRange_unpack x.toModel.toBits.toBitVec
  have hnone : UnpackedFloat.sqrt .binary64 x.toModel.unpack = .notANumber := by
    rw [ofFloat_eq] at hx
    cases hu : x.toModel.unpack with
    | notANumber => rfl
    | infinity s =>
      rw [hu] at hx
      cases s <;> simp [ofUnpacked, isNegative, UnpackedFloat.sqrt] at hx ⊢
    | zero s =>
      rw [hu] at hx
      obtain hx | hx | ⟨d, hx, hd⟩ := hx
      · cases hx
      · cases hx
      · obtain ⟨-, rfl⟩ := Double.finite.inj hx
        exact absurd hd (Nat.lt_irrefl 0)
    | finite s m e hm =>
      rw [hu] at hx hrange
      rw [ofUnpacked_finite hrange] at hx
      cases s <;> simp [isNegative, UnpackedFloat.sqrt] at hx ⊢
  change ofFloat (.ofModel (.pack (UnpackedFloat.sqrt .binary64 x.toModel.unpack))) = _
  rw [hnone]
  exact ofFloat_ofModel_pack trivial

variable {x y : Float} {a b : Bool} {d e : Scaled}

/-- The quotient of two finite numbers stands for the nearest one to the exact quotient. -/
theorem ofFloat_quotient (hx : ofFloat x = .finite a d) (hy : ofFloat y = .finite b e) (he : 0 < e.significand) :
    ofFloat (x / y) = nearest (a ^^ b) (d.value / e.value) := by
  rw [ofFloat_div, hx, hy, div, if_neg he.ne']

theorem ofFloat_multiple {k : ℕ} (hk : ofFloat (Float.ofNat k) = .finite false e) (he : e.value = k)
    (hx : ofFloat x = .finite a d) : ofFloat (Float.ofNat k * x) = nearest a (k * d.value) := by
  rw [ofFloat_mul, hk, hx, mul, he, Bool.false_xor]

theorem ofFloat_hundred : ofFloat 100 = .finite false ⟨7036874417766400, -46⟩ := by decide

theorem ofFloat_hundredfold (hx : ofFloat x = .finite a d) : ofFloat (100 * x) = nearest a ((100 : ℕ) * d.value) :=
  ofFloat_multiple ofFloat_hundred (by norm_num [Scaled.value]) hx

theorem ofFloat_abs (hx : ofFloat x = .finite a d) : ofFloat x.abs = .finite false d := by
  have hrounded : Rounded x.toModel.unpack := rounded_unpack x.toModel.toBits.toBitVec
  rw [ofFloat_eq] at hx
  change ofFloat (.ofModel (.pack x.toModel.unpack.abs)) = _
  cases hu : x.toModel.unpack with
  | infinity s | notANumber => rw [hu] at hx; cases hx
  | zero s =>
    rw [hu] at hx
    cases hx
    exact ofFloat_ofModel_pack trivial
  | finite s m e hm =>
    rw [hu] at hx hrounded
    have hpositive : Rounded (.finite .positive m e hm) := hrounded
    rw [UnpackedFloat.abs, ofFloat_ofModel_pack hpositive]
    simp only [ofUnpacked] at hx ⊢
    split_ifs at hx ⊢
    cases hx
    rfl

end Double

end BinFleet.Number
