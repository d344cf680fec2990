import BinFleet.Proofs.Number.Rounding

namespace BinFleet.Number

namespace Double

theorem value_nonneg (d : Scaled) : 0 ≤ d.value := mul_nonneg (Nat.cast_nonneg _) (by positivity)

theorem value_pos {d : Scaled} (h : 0 < d.significand) : 0 < d.value := mul_pos (by exact_mod_cast h) (by positivity)

theorem value_eq_zero {d : Scaled} (h : BinaryFormat.double.Canonical d) : d.value = 0 ↔ d = ⟨0, -1074⟩ := by
  constructor
  · intro hzero
    have hsignificand : d.significand = 0 := by
      by_contra hne
      exact (value_pos (Nat.pos_of_ne_zero hne)).ne' hzero
    have hexponent : d.exponent = -1074 := h.full.resolve_right (by
      rw [hsignificand]
      exact Nat.not_le.mpr (Nat.pow_pos Nat.two_pos))
    cases d
    simp_all
  · rintro rfl
    simp [Scaled.value]

/-- The double nearest to a number that is not negative, under a sign. -/
def nearest (negative : Bool) (q : ℚ) : Double := ofRatio negative q.num.natAbs q.den

theorem nearest_cases (negative : Bool) (q : ℚ) :
    (∃ p, nearest negative q = .finite negative p) ∨ nearest negative q = .infinite negative := by
  rw [nearest, ofRatio]
  cases BinaryFormat.double.round q.num.natAbs q.den with
  | some p => exact .inl ⟨p, rfl⟩
  | none => exact .inr rfl

theorem natAbs_num_div_den {q : ℚ} (h : 0 ≤ q) : (q.num.natAbs : ℚ) / q.den = q := by
  have hnum : ((q.num.natAbs : ℤ) : ℚ) = q.num := by rw [Int.natAbs_of_nonneg (Rat.num_nonneg.mpr h)]
  rw [← Int.cast_natCast q.num.natAbs, hnum, Rat.num_div_den]

theorem ofRatio_eq_nearest (negative : Bool) {num den : ℕ} (hden : 0 < den) {q : ℚ} (h : (num : ℚ) / den = q) :
    ofRatio negative num den = nearest negative q := by
  have hq : 0 ≤ q := h ▸ by positivity
  rw [nearest, ofRatio, ofRatio, BinaryFormat.round_congr _ hden q.den_pos (h.trans (natAbs_num_div_den hq).symm)]

theorem nearest_zero (negative : Bool) : nearest negative 0 = .finite negative ⟨0, -1074⟩ := rfl

/-- A number of the format is nearest to itself. -/
theorem nearest_value (negative : Bool) {d : Scaled} (h : BinaryFormat.double.Canonical d) :
    nearest negative d.value = .finite negative d := by
  obtain ⟨m, e⟩ := d
  rcases Nat.eq_zero_or_pos m with h0 | hpos
  · have hsmall : ¬ 2 ^ 52 ≤ m := by omega
    obtain rfl : e = -1074 := h.full.resolve_right hsmall
    rw [h0, Scaled.value, Nat.cast_zero, zero_mul, nearest_zero]
  · have hvalue : 0 ≤ (⟨m, e⟩ : Scaled).value := mul_nonneg (Nat.cast_nonneg _) (by positivity)
    rw [nearest, ofRatio, h.round_eq (by decide) (Rat.den_pos _) (natAbs_num_div_den hvalue) hpos]

end Double

theorem settle_double (n : ℕ) (t : ℤ) : BinaryFormat.double.settle n t =
    if n = 2 ^ 53 then if 971 < t + 1 then none else some ⟨2 ^ 52, t + 1⟩
    else if 971 < t then none else some ⟨n, t⟩ := by
  simp only [BinaryFormat.settle, BinaryFormat.double, Nat.pow_eq]
  by_cases hfull : n = 2 ^ 53 <;> simp only [hfull, if_true, if_false]

/-- The significand and the exponent that a positive number is rounded with. -/
structure RoundsWith (q : ℚ) (m : ℕ) (e : ℤ) : Prop where
  fits : BinaryFormat.double.FitsExponent q e
  nearest : Nearest (q / 2 ^ e) m

theorem exists_roundsWith {q : ℚ} (h : 0 < q) : ∃ m e, RoundsWith q m e := by
  have hnum : 0 < q.num.natAbs := Int.natAbs_pos.mpr (Rat.num_pos.mpr h).ne'
  obtain ⟨e, m, hfits, hnearest, -⟩ := BinaryFormat.round_spec .double hnum q.den_pos
  rw [Double.natAbs_num_div_den h.le] at hfits hnearest
  exact ⟨m, e, hfits, hnearest⟩

namespace RoundsWith

variable {q : ℚ} {m : ℕ} {e : ℤ}

theorem width (h : RoundsWith q m e) : m ≤ 2 ^ 53 := by
  have hlt : q / 2 ^ e < 2 ^ 53 := by
    have hupper := h.fits.upper
    rw [zpow_add₀ two_ne_zero] at hupper
    rw [div_lt_iff₀ (by positivity)]
    exact hupper
  have hlower := h.nearest.lower
  have hcast : (m : ℚ) < (2 ^ 53 + 1 : ℕ) := by
    push_cast
    linarith
  have : m < 2 ^ 53 + 1 := by exact_mod_cast hcast
  omega

theorem full (h : RoundsWith q m e) : e = -1074 ∨ 2 ^ 52 ≤ m := by
  refine h.fits.lower.imp id fun hlower => (Nearest.natCast (2 ^ 52)).mono h.nearest ?_
  rw [zpow_add₀ two_ne_zero] at hlower
  rw [le_div_iff₀ (by positivity)]
  exact_mod_cast hlower

theorem nearest_eq (h : RoundsWith q m e) (hq : 0 < q) (negative : Bool) : Double.nearest negative q =
    if m = 2 ^ 53 then if 971 < e + 1 then .infinite negative else .finite negative ⟨2 ^ 52, e + 1⟩
    else if 971 < e then .infinite negative else .finite negative ⟨m, e⟩ := by
  have hnum : 0 < q.num.natAbs := Int.natAbs_pos.mpr (Rat.num_pos.mpr hq).ne'
  have hfits := h.fits
  have hnearest := h.nearest
  rw [← Double.natAbs_num_div_den hq.le] at hfits hnearest
  rw [Double.nearest, Double.ofRatio, BinaryFormat.round_eq_settle hnum q.den_pos hfits hnearest, settle_double]
  split_ifs <;> rfl

/-- A result whose exponent is in range is finite: a number of the format with the rounded value. -/
theorem finite (h : RoundsWith q m e) (hq : 0 < q) (hrange : e ≤ 971 ∧ (m = 2 ^ 53 → e < 971)) (negative : Bool) :
    ∃ d, Double.nearest negative q = .finite negative d ∧ BinaryFormat.double.Canonical d ∧ d.value = m * 2 ^ e := by
  have hleast : -1074 ≤ e := h.fits.least
  rw [h.nearest_eq hq]
  by_cases hcarry : m = 2 ^ 53
  · have hlt := hrange.2 hcarry
    have hcanonical : BinaryFormat.double.Canonical ⟨2 ^ 52, e + 1⟩ :=
      ⟨(by decide : 2 ^ 52 < 2 ^ 53), (by omega : -1074 ≤ e + 1), (by omega : e + 1 ≤ 971), .inr le_rfl⟩
    rw [if_pos hcarry, if_neg (by omega)]
    refine ⟨_, rfl, hcanonical, ?_⟩
    rw [Scaled.value, hcarry, zpow_add₀ two_ne_zero]
    norm_num
    ring
  · rw [if_neg hcarry, if_neg (by omega)]
    exact ⟨_, rfl, ⟨lt_of_le_of_ne h.width hcarry, hleast, hrange.1, h.full⟩, rfl⟩

theorem range (h : RoundsWith q m e) (hq : 0 < q) {negative sign : Bool} {d : Scaled}
    (hd : Double.nearest negative q = .finite sign d) : e ≤ 971 ∧ (m = 2 ^ 53 → e < 971) := by
  rw [h.nearest_eq hq] at hd
  split_ifs at hd with hcarry hover hover <;> omega

/-- Less is rounded to less. -/
theorem mono {q' : ℚ} {m' : ℕ} {e' : ℤ} (h : RoundsWith q m e) (h' : RoundsWith q' m' e') (hle : q ≤ q') :
    e ≤ e' ∧ (m : ℚ) * 2 ^ e ≤ m' * 2 ^ e' ∧ (e = e' → m ≤ m') := by
  have hexponent := h.fits.mono h'.fits hle
  have hsame : e = e' → m ≤ m' := by
    rintro rfl
    exact h.nearest.mono h'.nearest (div_le_div_of_nonneg_right hle (by positivity))
  refine ⟨hexponent, ?_, hsame⟩
  rcases hexponent.lt_or_eq with hlt | heq
  · have hleast : -1074 ≤ e := h.fits.least
    have hfull : 2 ^ 52 ≤ m' := h'.full.resolve_left (by omega)
    calc (m : ℚ) * 2 ^ e ≤ (2 ^ 53 : ℕ) * 2 ^ e := by
          gcongr
          exact h.width
      _ = 2 ^ 52 * 2 ^ (e + 1) := by
        rw [zpow_add₀ two_ne_zero]
        norm_num
        ring
      _ ≤ 2 ^ 52 * 2 ^ e' := by
        gcongr
        · exact one_le_two
        · omega
      _ ≤ m' * 2 ^ e' := by
        gcongr
        exact_mod_cast hfull
  · rw [← heq]
    gcongr
    exact hsame heq

end RoundsWith

namespace Double

/-- A finite result is a number of the format. -/
theorem nearest_canonical {negative sign : Bool} {q : ℚ} (hq : 0 ≤ q) {d : Scaled}
    (h : nearest negative q = .finite sign d) : sign = negative ∧ BinaryFormat.double.Canonical d := by
  rcases hq.eq_or_lt with rfl | hpos
  · obtain ⟨rfl, rfl⟩ := Double.finite.inj h
    exact ⟨rfl, by decide, le_rfl, by decide, .inl rfl⟩
  · obtain ⟨m, e, hround⟩ := exists_roundsWith hpos
    obtain ⟨d', hd', hcanonical, -⟩ := hround.finite hpos (hround.range hpos h) negative
    obtain ⟨rfl, rfl⟩ := Double.finite.inj (hd'.symm.trans h)
    exact ⟨rfl, hcanonical⟩

/-- What is not greater is rounded to what is not greater, and stays finite. -/
theorem nearest_mono {q q' : ℚ} (hq : 0 ≤ q) (hle : q ≤ q') {negative' sign' : Bool} {d' : Scaled}
    (h' : nearest negative' q' = .finite sign' d') (negative : Bool) :
    ∃ d, nearest negative q = .finite negative d ∧ d.value ≤ d'.value := by
  rcases hq.eq_or_lt with rfl | hpos
  · exact ⟨⟨0, -1074⟩, rfl, by simpa [Scaled.value] using value_nonneg d'⟩
  · have hpos' := hpos.trans_le hle
    obtain ⟨m, e, hround⟩ := exists_roundsWith hpos
    obtain ⟨m', e', hround'⟩ := exists_roundsWith hpos'
    obtain ⟨hexponent, hvalue, hsame⟩ := hround.mono hround' hle
    have hrange' := hround'.range hpos' h'
    have hwidth' := hround'.width
    have hrange : e ≤ 971 ∧ (m = 2 ^ 53 → e < 971) := by
      refine ⟨hexponent.trans hrange'.1, fun hcarry => ?_⟩
      rcases hexponent.lt_or_eq with hlt | heq
      · omega
      · have hle := hsame heq
        have := hrange'.2 (by omega)
        omega
    obtain ⟨d, hd, -, hdvalue⟩ := hround.finite hpos hrange negative
    obtain ⟨d'', hd'', -, hdvalue'⟩ := hround'.finite hpos' hrange' negative'
    obtain ⟨-, rfl⟩ := Double.finite.inj (hd''.symm.trans h')
    exact ⟨d, hd, by rwa [hdvalue, hdvalue']⟩

/-- Everything below the last half step is finite. -/
theorem nearest_finite {q : ℚ} (hq : 0 ≤ q) (hlt : q < (2 ^ 53 - 1 / 2) * 2 ^ (971 : ℤ)) (negative : Bool) :
    ∃ d, nearest negative q = .finite negative d := by
  rcases hq.eq_or_lt with rfl | hpos
  · exact ⟨_, rfl⟩
  · obtain ⟨m, e, hround⟩ := exists_roundsWith hpos
    have hexponent : e ≤ 971 := by
      rcases hround.fits.lower with hleast | hlower
      · rw [hleast]
        decide
      · by_contra hover
        have hpow : (2 : ℚ) ^ (((53 : ℕ) : ℤ) + 971) ≤ 2 ^ ((BinaryFormat.double.precision : ℤ) - 1 + e) :=
          zpow_le_zpow_right₀ one_le_two (by simp only [BinaryFormat.double]; omega)
        rw [zpow_add₀ two_ne_zero, zpow_natCast] at hpow
        have hunit : (0 : ℚ) < 2 ^ (971 : ℤ) := by positivity
        generalize (2 : ℚ) ^ (971 : ℤ) = unit at hlt hpow hunit
        linarith
    have hcarry : m = 2 ^ 53 → e < 971 := by
      rintro rfl
      by_contra hover
      obtain rfl : e = 971 := by omega
      have hlower := hround.nearest.lower
      rw [le_div_iff₀ (by positivity)] at hlower
      generalize (2 : ℚ) ^ (971 : ℤ) = unit at hlt hlower
      push_cast at hlower
      linarith
    obtain ⟨d, hd, -⟩ := hround.finite hpos ⟨hexponent, hcarry⟩ negative
    exact ⟨d, hd⟩

theorem nearest_infinite {negative : Bool} {q : ℚ} (hq : 0 ≤ q) (h : nearest negative q = .infinite negative) :
    (2 ^ 53 - 1 / 2) * 2 ^ (971 : ℤ) ≤ q := by
  by_contra hlt
  obtain ⟨p, hp⟩ := nearest_finite hq (not_le.mp hlt) negative
  rw [h] at hp
  cases hp

/-- The last half step is rounded up, beyond the greatest number of the format. -/
theorem nearest_last_half (negative : Bool) :
    nearest negative ((2 ^ 53 - 1 / 2) * 2 ^ (971 : ℤ)) = .infinite negative := by
  have hunit : (0 : ℚ) < 2 ^ (971 : ℤ) := by positivity
  have hround : RoundsWith ((2 ^ 53 - 1 / 2) * 2 ^ (971 : ℤ)) (2 ^ 53) 971 := by
    constructor
    · refine ⟨by decide, ?_, .inr ?_⟩
      · rw [zpow_add₀ two_ne_zero]
        exact mul_lt_mul_of_pos_right (by norm_num [BinaryFormat.double]) hunit
      · rw [zpow_add₀ two_ne_zero]
        exact mul_le_mul_of_nonneg_right (by norm_num [BinaryFormat.double]) hunit.le
    · rw [mul_div_cancel_right₀ _ hunit.ne']
      exact ⟨by norm_num, by norm_num, fun _ => by decide⟩
  rw [hround.nearest_eq (mul_pos (by norm_num) hunit), if_pos rfl, if_pos (by decide)]

theorem nearest_finite_iff {q : ℚ} (hq : 0 ≤ q) (negative : Bool) :
    (∃ d, nearest negative q = .finite negative d) ↔ q < (2 ^ 53 - 1 / 2) * 2 ^ (971 : ℤ) := by
  refine ⟨fun ⟨d, hd⟩ => ?_, fun hlt => nearest_finite hq hlt negative⟩
  by_contra hge
  have hunit : (0 : ℚ) < 2 ^ (971 : ℤ) := by positivity
  obtain ⟨d', hd', -⟩ := nearest_mono (mul_pos (by norm_num) hunit).le (not_lt.mp hge) hd negative
  rw [nearest_last_half] at hd'
  cases hd'

/-- The relative error, for numbers that are not cut off at the least exponent. -/
theorem nearest_error {q : ℚ} (hpos : 0 < q) (hgrid : ∃ n : ℕ, q = n * 2 ^ (-1074 : ℤ)) {negative sign : Bool}
    {d : Scaled} (h : nearest negative q = .finite sign d) : |d.value - q| ≤ q / 2 ^ 53 := by
  obtain ⟨m, e, hround⟩ := exists_roundsWith hpos
  obtain ⟨d', hd', -, hvalue⟩ := hround.finite hpos (hround.range hpos h) negative
  obtain ⟨-, rfl⟩ := Double.finite.inj (hd'.symm.trans h)
  have hpow : (0 : ℚ) < 2 ^ e := by positivity
  rw [hvalue]
  rcases hround.fits.lower with hleast | hlower
  · obtain ⟨n, hn⟩ := hgrid
    obtain rfl : e = -1074 := hleast
    have hsame : m = n := by
      have hnearest := hround.nearest
      rw [hn, mul_div_cancel_right₀ _ hpow.ne'] at hnearest
      exact hnearest.unique (.natCast n)
    rw [hsame, ← hn, sub_self, abs_zero]
    positivity
  · have hlow := hround.nearest.lower
    have hup := hround.nearest.upper
    rw [le_div_iff₀ hpow] at hlow
    rw [div_le_iff₀ hpow] at hup
    have hstep : (2 : ℚ) ^ e / 2 ≤ q / 2 ^ 53 := by
      have hsplit : (2 : ℚ) ^ ((BinaryFormat.double.precision : ℤ) - 1 + e) = 2 ^ 52 * 2 ^ e := by
        rw [zpow_add₀ two_ne_zero]
        norm_num [BinaryFormat.double]
      rw [hsplit] at hlower
      rw [div_le_div_iff₀ two_pos (by positivity)]
      norm_num at hlower ⊢
      linarith
    rw [abs_le]
    constructor <;> linarith

/-- Multiples of numbers of the format are never cut off. -/
theorem exists_grid (k : ℕ) {d : Scaled} (h : BinaryFormat.double.Canonical d) :
    ∃ n : ℕ, k * d.value = n * 2 ^ (-1074 : ℤ) := by
  have hleast : -1074 ≤ d.exponent := h.least
  refine ⟨k * d.significand * 2 ^ (d.exponent + 1074).toNat, ?_⟩
  have hsplit : (2 : ℚ) ^ d.exponent = 2 ^ (d.exponent + 1074).toNat * 2 ^ (-1074 : ℤ) := by
    rw [← zpow_natCast, Int.toNat_of_nonneg (by omega), ← zpow_add₀ two_ne_zero]
    congr 1
    omega
  rw [Scaled.value, hsplit]
  generalize (2 : ℚ) ^ (-1074 : ℤ) = unit
  push_cast
  ring

theorem multiple_error {k : ℕ} {c p : Scaled} (hc : BinaryFormat.double.Canonical c) {negative sign : Bool}
    (h : nearest negative (k * c.value) = .finite sign p) : |p.value - k * c.value| ≤ k * c.value / 2 ^ 53 := by
  rcases (mul_nonneg (Nat.cast_nonneg k) (value_nonneg c)).eq_or_lt with hzero | hpos
  · rw [← hzero, nearest_zero] at h
    obtain ⟨-, rfl⟩ := Double.finite.inj h
    rw [← hzero]
    simp [Scaled.value]
  · exact nearest_error hpos (exists_grid k hc) h

/-- A rounded multiple is off by less than the number itself. -/
theorem multiple_bounds {k : ℕ} (hk : 2 ≤ k ∧ k ≤ 2 ^ 53) {c p : Scaled} (hc : BinaryFormat.double.Canonical c)
    (hpos : 0 < c.significand) {negative sign : Bool} (h : nearest negative (k * c.value) = .finite sign p) :
    0 < p.significand ∧ (k - 1) * c.value ≤ p.value ∧ p.value ≤ (k + 1) * c.value := by
  have hvalue := value_pos hpos
  have herror := abs_le.mp (multiple_error hc h)
  have hslack : k * c.value / 2 ^ 53 ≤ c.value := by
    have hle : (k : ℚ) ≤ 2 ^ 53 := by exact_mod_cast hk.2
    rw [div_le_iff₀ (by positivity), mul_comm]
    gcongr
  have htwo : (2 : ℚ) * c.value ≤ k * c.value := by
    have hle : (2 : ℚ) ≤ k := by exact_mod_cast hk.1
    gcongr
  refine ⟨Nat.pos_of_ne_zero fun hzero => ?_, by linarith, by linarith⟩
  have hnone : p.value = 0 := by simp [Scaled.value, hzero]
  linarith

/-- The greatest number of the format. -/
theorem value_le_greatest {d : Scaled} (h : BinaryFormat.double.Canonical d) : d.value ≤ (2 ^ 53 - 1) * 2 ^ (971 : ℤ) := by
  have hwidth : d.significand + 1 ≤ 2 ^ 53 := h.width
  have hcast : (d.significand : ℚ) ≤ 2 ^ 53 - 1 := by
    have : ((d.significand + 1 : ℕ) : ℚ) ≤ (2 ^ 53 : ℕ) := by exact_mod_cast hwidth
    push_cast at this
    linarith
  have hpow : (2 : ℚ) ^ d.exponent ≤ 2 ^ (971 : ℤ) := zpow_le_zpow_right₀ one_le_two h.greatest
  exact mul_le_mul hcast hpow (by positivity) ((Nat.cast_nonneg _).trans hcast)

end Double

end BinFleet.Number
