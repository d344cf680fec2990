import BinFleet.Number.Binary
import Mathlib

namespace BinFleet.Number

/-- A natural number nearest to a ratio, which is even when the ratio lies half way. -/
structure Nearest (q : ℚ) (m : ℕ) : Prop where
  lower : (m : ℚ) - 1 / 2 ≤ q
  upper : q ≤ m + 1 / 2
  even : (m : ℚ) - 1 / 2 = q ∨ q = m + 1 / 2 → m % 2 = 0

theorem roundDiv_nearest (num : ℕ) {den : ℕ} (h : 0 < den) : Nearest ((num : ℚ) / den) (roundDiv num den) := by
  have hden : (0 : ℚ) < den := by exact_mod_cast h
  have hsplit : (num : ℚ) = den * (num / den : ℕ) + (num % den : ℕ) := by exact_mod_cast (Nat.div_add_mod num den).symm
  have hrest : num % den < den := Nat.mod_lt num h
  unfold roundDiv
  dsimp only
  generalize num / den = k at hsplit ⊢
  generalize num % den = r at hsplit hrest ⊢
  have hq : (num : ℚ) / den = k + r / den := by
    rw [hsplit]
    field_simp
  have hr : (r : ℚ) / den < 1 := by
    rw [div_lt_one hden]
    exact_mod_cast hrest
  have hr0 : (0 : ℚ) ≤ r / den := by positivity
  rw [hq]
  split_ifs with hup
  · have hhalf : (1 : ℚ) / 2 ≤ r / den := by
      rw [div_le_div_iff₀ two_pos hden]
      have : den ≤ r * 2 := by omega
      exact_mod_cast (by omega : 1 * den ≤ r * 2)
    refine ⟨by push_cast; linarith, by push_cast; linarith, ?_⟩
    push_cast
    intro htie
    have heq : (r : ℚ) / den = 1 / 2 := by rcases htie with htie | htie <;> linarith
    rw [div_eq_div_iff hden.ne' two_ne_zero] at heq
    have : r * 2 = 1 * den := by exact_mod_cast heq
    omega
  · have hhalf : (r : ℚ) / den ≤ 1 / 2 := by
      rw [div_le_div_iff₀ hden two_pos]
      exact_mod_cast (by omega : r * 2 ≤ 1 * den)
    refine ⟨by linarith, by linarith, fun htie => ?_⟩
    have heq : (r : ℚ) / den = 1 / 2 := by rcases htie with htie | htie <;> linarith
    rw [div_eq_div_iff hden.ne' two_ne_zero] at heq
    have : r * 2 = 1 * den := by exact_mod_cast heq
    omega

namespace Nearest

theorem mono {q q' : ℚ} {m m' : ℕ} (h : Nearest q m) (h' : Nearest q' m') (hq : q ≤ q') : m ≤ m' := by
  by_contra hlt
  have hstep : (m' : ℚ) + 1 ≤ m := by exact_mod_cast Nat.lt_of_not_le hlt
  -- both lie half way between the two numbers, and one of these is odd
  have hm : (m : ℚ) = m' + 1 := by linarith [h.lower, h'.upper]
  have heven := h.even (.inl (by linarith [h.lower, h'.upper]))
  have heven' := h'.even (.inr (by linarith [h.lower, h'.upper]))
  have : m = m' + 1 := by exact_mod_cast hm
  omega

theorem unique {q : ℚ} {m m' : ℕ} (h : Nearest q m) (h' : Nearest q m') : m = m' :=
  Nat.le_antisymm (h.mono h' le_rfl) (h'.mono h le_rfl)

theorem natCast (m : ℕ) : Nearest m m := by
  refine ⟨by linarith, by linarith, fun h => ?_⟩
  rcases h with h | h <;> linarith

end Nearest

/-- The two powers that an exponent is split into. -/
theorem pow_toNat_div (e : ℤ) : ((Nat.pow 2 e.toNat : ℕ) : ℚ) / (Nat.pow 2 (-e).toNat : ℕ) = 2 ^ e := by
  simp only [Nat.pow_eq, Nat.cast_pow, Nat.cast_ofNat, ← zpow_natCast]
  rw [← zpow_sub₀ two_ne_zero]
  congr 1
  omega

namespace Scaled

def value (d : Scaled) : ℚ := d.significand * 2 ^ d.exponent

theorem den_pos (d : Scaled) : 0 < d.den := Nat.pow_pos Nat.two_pos

theorem num_div_den (d : Scaled) : (d.num : ℚ) / d.den = d.value := by
  rw [num, den, value, ← pow_toNat_div, Nat.cast_mul, mul_div_assoc]

end Scaled

namespace BinaryFormat

/-- The exponent leaves a significand of full width, or it is the least one. -/
structure FitsExponent (f : BinaryFormat) (q : ℚ) (e : ℤ) : Prop where
  least : f.least ≤ e
  upper : q < 2 ^ (f.precision + e)
  lower : e = f.least ∨ 2 ^ (f.precision - 1 + e) ≤ q

theorem FitsExponent.mono {f : BinaryFormat} {q q' : ℚ} {e e' : ℤ} (h : f.FitsExponent q e)
    (h' : f.FitsExponent q' e') (hq : q ≤ q') : e ≤ e' := by
  by_contra hlt
  rcases h.lower with hleast | hlower
  · have := h'.least
    omega
  · have hpow : (2 : ℚ) ^ (f.precision + e') ≤ 2 ^ (f.precision - 1 + e) :=
      zpow_le_zpow_right₀ one_le_two (by omega)
    linarith [h'.upper]

theorem FitsExponent.unique {f : BinaryFormat} {q : ℚ} {e e' : ℤ} (h : f.FitsExponent q e)
    (h' : f.FitsExponent q e') : e = e' :=
  le_antisymm (h.mono h' le_rfl) (h'.mono h le_rfl)

theorem inUnits_pos (num : ℕ) {den : ℕ} (hden : 0 < den) (e : ℤ) : 0 < (inUnits num den e).2 :=
  Nat.mul_pos hden (Nat.pow_pos Nat.two_pos)

theorem inUnits_ratio (num den : ℕ) (e : ℤ) :
    ((inUnits num den e).1 : ℚ) / (inUnits num den e).2 = num / den / 2 ^ e := by
  have hneg := pow_toNat_div (-e)
  rw [neg_neg, zpow_neg] at hneg
  rw [div_eq_mul_inv _ ((2 : ℚ) ^ e), ← hneg]
  simp only [inUnits, Nat.cast_mul]
  exact mul_div_mul_comm _ _ _ _

theorem lt_two_pow_log2_diff (num : ℕ) {den : ℕ} (hden : 0 < den) :
    (num : ℚ) / den < 2 ^ ((Nat.log2 num : ℤ) - Nat.log2 den + 1) := by
  have hnum : (num : ℚ) < 2 ^ ((Nat.log2 num : ℤ) + 1) := by
    exact_mod_cast Nat.lt_log2_self (n := num)
  have hlog : (2 : ℚ) ^ (Nat.log2 den : ℤ) ≤ den := by
    exact_mod_cast Nat.log2_self_le hden.ne'
  rw [div_lt_iff₀ (by exact_mod_cast hden)]
  calc (num : ℚ) < 2 ^ ((Nat.log2 num : ℤ) + 1) := hnum
    _ = 2 ^ ((Nat.log2 num : ℤ) - Nat.log2 den + 1) * 2 ^ (Nat.log2 den : ℤ) := by
      rw [← zpow_add₀ two_ne_zero]
      congr 1
      ring
    _ ≤ 2 ^ ((Nat.log2 num : ℤ) - Nat.log2 den + 1) * den := by gcongr

theorem two_pow_log2_diff_lt {num den : ℕ} (hnum : 0 < num) (hden : 0 < den) :
    (2 : ℚ) ^ ((Nat.log2 num : ℤ) - Nat.log2 den - 1) < num / den := by
  have hlog : (2 : ℚ) ^ (Nat.log2 num : ℤ) ≤ num := by
    exact_mod_cast Nat.log2_self_le hnum.ne'
  have hlt : (den : ℚ) < 2 ^ ((Nat.log2 den : ℤ) + 1) := by
    exact_mod_cast Nat.lt_log2_self (n := den)
  rw [lt_div_iff₀ (by exact_mod_cast hden)]
  calc (2 : ℚ) ^ ((Nat.log2 num : ℤ) - Nat.log2 den - 1) * den
      < 2 ^ ((Nat.log2 num : ℤ) - Nat.log2 den - 1) * 2 ^ ((Nat.log2 den : ℤ) + 1) := by gcongr
    _ = 2 ^ (Nat.log2 num : ℤ) := by
      rw [← zpow_add₀ two_ne_zero]
      congr 1
      ring
    _ ≤ num := hlog

/-- The estimate from the lengths of both numbers is off by one at most, and then put right. -/
theorem exponentFor_fits (f : BinaryFormat) {num den : ℕ} (hnum : 0 < num) (hden : 0 < den) :
    f.FitsExponent (num / den) (f.exponentFor num den) := by
  have hupper := lt_two_pow_log2_diff num hden
  have hlower := two_pow_log2_diff_lt hnum hden
  simp only [exponentFor]
  generalize hlength : (Nat.log2 num : ℤ) - Nat.log2 den = length at hupper hlower ⊢
  generalize he : max f.least (length - f.precision) = e
  have hle : length - f.precision ≤ e := he ▸ le_max_right _ _
  have hleast : f.least ≤ e := he ▸ le_max_left _ _
  have hunits : Nat.pow 2 f.precision ≤ (inUnits num den e).1 / (inUnits num den e).2 ↔
      (2 : ℚ) ^ (f.precision + e) ≤ num / den := by
    have hpos := inUnits_pos num hden e
    rw [Nat.le_div_iff_mul_le hpos, ← @Nat.cast_le ℚ, Nat.cast_mul, ← le_div_iff₀ (by exact_mod_cast hpos),
      inUnits_ratio, le_div_iff₀ (by positivity), zpow_add₀ two_ne_zero, zpow_natCast]
    simp only [Nat.pow_eq, Nat.cast_pow, Nat.cast_ofNat]
  split_ifs with hlarge
  · rw [hunits] at hlarge
    refine ⟨by omega, hupper.trans_le (zpow_le_zpow_right₀ one_le_two (by omega)), .inr ?_⟩
    rwa [show (f.precision : ℤ) - 1 + (e + 1) = f.precision + e by ring]
  · rw [hunits, not_le] at hlarge
    refine ⟨hleast, hlarge, ?_⟩
    rcases le_total f.least (length - f.precision) with hcase | hcase
    · right
      rw [max_eq_right hcase] at he
      rw [show (f.precision : ℤ) - 1 + e = length - 1 by omega]
      exact hlower.le
    · left
      rw [max_eq_left hcase] at he
      exact he.symm

/-- The number of the format with these, where a significand may have grown out of its width. -/
def settle (f : BinaryFormat) (m : ℕ) (e : ℤ) : Option Scaled :=
  let r : Scaled := if m = Nat.pow 2 f.precision then ⟨Nat.pow 2 (f.precision - 1), e + 1⟩ else ⟨m, e⟩
  if f.greatest < r.exponent then none else some r

theorem settle_eq_some {f : BinaryFormat} {m : ℕ} {e : ℤ} {d : Scaled} (h : f.settle m e = some d) :
    (m = 2 ^ f.precision ∧ d = ⟨2 ^ (f.precision - 1), e + 1⟩ ∨ m ≠ 2 ^ f.precision ∧ d = ⟨m, e⟩) ∧
      d.exponent ≤ f.greatest := by
  simp only [settle, Nat.pow_eq] at h
  by_cases hfull : m = 2 ^ f.precision
  · rw [if_pos hfull] at h
    split_ifs at h with hover
    obtain rfl := Option.some.inj h
    exact ⟨.inl ⟨hfull, rfl⟩, not_lt.mp hover⟩
  · rw [if_neg hfull] at h
    split_ifs at h with hover
    obtain rfl := Option.some.inj h
    exact ⟨.inr ⟨hfull, rfl⟩, not_lt.mp hover⟩

/-- Rounding depends on the exponent and the significand that fit the ratio. -/
theorem round_eq_settle {f : BinaryFormat} {num den : ℕ} (hnum : 0 < num) (hden : 0 < den) {e : ℤ} {m : ℕ}
    (he : f.FitsExponent (num / den) e) (hm : Nearest (num / den / 2 ^ e) m) :
    f.round num den = f.settle m e := by
  have hexp : f.exponentFor num den = e := (exponentFor_fits f hnum hden).unique he
  have hround : roundDiv (inUnits num den e).1 (inUnits num den e).2 = m := by
    have hnear := roundDiv_nearest (inUnits num den e).1 (inUnits_pos num hden e)
    rw [inUnits_ratio] at hnear
    exact hnear.unique hm
  rw [round, if_neg hnum.ne']
  simp only [hexp, hround, settle]

/-- What a ratio rounds to. -/
theorem round_spec (f : BinaryFormat) {num den : ℕ} (hnum : 0 < num) (hden : 0 < den) :
    ∃ e m, f.FitsExponent (num / den) e ∧ Nearest (num / den / 2 ^ e) m ∧ f.round num den = f.settle m e := by
  have he := exponentFor_fits f hnum hden
  have hm := roundDiv_nearest (inUnits num den (f.exponentFor num den)).1 (inUnits_pos num hden (f.exponentFor num den))
  rw [inUnits_ratio] at hm
  exact ⟨_, _, he, hm, round_eq_settle hnum hden he hm⟩

theorem round_congr (f : BinaryFormat) {num den num' den' : ℕ} (hden : 0 < den) (hden' : 0 < den')
    (h : (num : ℚ) / den = num' / den') : f.round num den = f.round num' den' := by
  have hzero : num = 0 ↔ num' = 0 := by
    have hiff : (num : ℚ) / den = 0 ↔ (num' : ℚ) / den' = 0 := by rw [h]
    simpa [hden.ne', hden'.ne'] using hiff
  rcases Nat.eq_zero_or_pos num with hnum | hnum
  · rw [round, round, if_pos hnum, if_pos (hzero.mp hnum)]
  · have hnum' : 0 < num' := Nat.pos_of_ne_zero fun h0 => hnum.ne' (hzero.mpr h0)
    obtain ⟨e, m, he, hm, hround⟩ := round_spec f hnum hden
    rw [hround]
    rw [h] at he hm
    exact (round_eq_settle hnum' hden' he hm).symm

/-- The numbers of a format, each written in one way. -/
structure Canonical (f : BinaryFormat) (d : Scaled) : Prop where
  width : d.significand < 2 ^ f.precision
  least : f.least ≤ d.exponent
  greatest : d.exponent ≤ f.greatest
  full : d.exponent = f.least ∨ 2 ^ (f.precision - 1) ≤ d.significand

/-- A number of the format is rounded to itself. -/
theorem Canonical.round_eq {f : BinaryFormat} {d : Scaled} (h : f.Canonical d) (hp : 0 < f.precision) {num den : ℕ}
    (hden : 0 < den) (hvalue : (num : ℚ) / den = d.value) (hd : 0 < d.significand) : f.round num den = some d := by
  have hpow : (0 : ℚ) < 2 ^ d.exponent := by positivity
  have hnum : 0 < num := by
    rcases Nat.eq_zero_or_pos num with h0 | h0
    · have : (0 : ℚ) < d.value := mul_pos (by exact_mod_cast hd) hpow
      rw [← hvalue, h0] at this
      simp at this
    · exact h0
  have hfits : f.FitsExponent (num / den) d.exponent := by
    rw [hvalue]
    refine ⟨h.least, ?_, h.full.imp id fun hfull => ?_⟩
    · rw [zpow_add₀ two_ne_zero, Scaled.value]
      gcongr
      exact_mod_cast h.width
    · rw [zpow_add₀ two_ne_zero, Scaled.value]
      gcongr
      have hcast : (2 : ℚ) ^ ((f.precision : ℤ) - 1) = (2 ^ (f.precision - 1) : ℕ) := by
        rw [Nat.cast_pow, ← zpow_natCast, Nat.cast_sub hp]
        norm_num
      rw [hcast]
      exact_mod_cast hfull
  have hnearest : Nearest (num / den / 2 ^ d.exponent) d.significand := by
    rw [hvalue, Scaled.value, mul_div_cancel_right₀ _ hpow.ne']
    exact .natCast _
  rw [round_eq_settle hnum hden hfits hnearest, settle]
  have hwidth : d.significand ≠ Nat.pow 2 f.precision := h.width.ne
  simp only [if_neg hwidth]
  exact if_neg (not_lt.mpr h.greatest)

end BinaryFormat

end BinFleet.Number
