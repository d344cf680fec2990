import BinFleet.Proofs.Number.Double
import BinFleet.Proofs.Number.Parts

namespace BinFleet.Number

namespace Digits

/-- Digits of which the first is not zero. -/
structure Proper (d : Digits) : Prop where
  digit : ∀ c ∈ d.digits, c.isDigit = true
  lead : ∃ c rest, d.digits = c :: rest ∧ c ≠ '0'

def value (d : Digits) : ℚ := Nat.ofDigitChars 10 d.digits 0 * 10 ^ (d.point - d.digits.length)

theorem Proper.pow_le_value {d : Digits} (h : d.Proper) : (10 : ℚ) ^ (d.point - 1) ≤ d.value := by
  obtain ⟨c, rest, hdigits, hc⟩ := h.lead
  have hdigit : 1 ≤ c.toNat - '0'.toNat := by
    have hisDigit := h.digit c (by simp [hdigits])
    have hrange : '0' ≤ c ∧ c ≤ '9' := by simpa [Char.isDigit, Char.le_def] using hisDigit
    have hne : c.toNat ≠ '0'.toNat := fun heq => hc (Char.toNat_inj.mp heq)
    have hle : '0'.toNat ≤ c.toNat := hrange.1
    omega
  have hvalue : 10 ^ rest.length ≤ Nat.ofDigitChars 10 d.digits 0 := by
    rw [hdigits, Nat.ofDigitChars_cons, Nat.ofDigitChars_eq_ofDigitChars_zero, Nat.mul_zero, Nat.zero_add]
    have := Nat.le_mul_of_pos_right (10 ^ rest.length) hdigit
    omega
  have hcast : (10 : ℚ) ^ (rest.length : ℤ) ≤ Nat.ofDigitChars 10 d.digits 0 := by
    exact_mod_cast hvalue
  calc (10 : ℚ) ^ (d.point - 1) = 10 ^ (rest.length : ℤ) * 10 ^ (d.point - d.digits.length) := by
        rw [← zpow_add₀ (by norm_num), hdigits, List.length_cons]
        congr 1
        push_cast
        ring
    _ ≤ d.value := mul_le_mul_of_nonneg_right hcast (by positivity)

end Digits

namespace Parts

def value (p : Parts) : ℚ := p.coefficient * 10 ^ (power p.exponent - p.fraction.length)

/-- The parts have the value of the digits, and no more places after the point than these. -/
structure Writes (p : Parts) (d : Digits) : Prop where
  wellFormed : p.WellFormed
  value : p.value = d.value
  least : min 0 (d.point - d.digits.length) ≤ power p.exponent - p.fraction.length

end Parts

namespace Digits

theorem isDigit_of_mem_replicate {n : ℕ} {c : Char} (h : c ∈ List.replicate n '0') : c.isDigit = true := by
  rw [List.eq_of_mem_replicate h]
  decide

theorem positional_eq_text {d : Digits} (h : d.Proper) : ∃ p : Parts, p.Writes d ∧ d.positional = p.text := by
  obtain ⟨c, rest, hdigits, hc⟩ := h.lead
  rw [positional]
  split_ifs with hpoint
  · refine ⟨⟨['0'], List.replicate (-d.point).toNat '0' ++ d.digits, none⟩, ⟨⟨?_, ?_, .inl rfl, ?_⟩, ?_, ?_⟩, ?_⟩
    · simp
    · intro x hx
      exact (List.mem_append.mp hx).elim isDigit_of_mem_replicate (h.digit x)
    · simp
    · rw [Parts.value, value, Parts.coefficient, ← List.append_assoc, Nat.ofDigitChars_append,
        Nat.ofDigitChars_append, Nat.ofDigitChars_replicate_zero]
      congr 2
      simp only [Parts.power, List.length_append, List.length_replicate]
      omega
    · simp only [Parts.power, List.length_append, List.length_replicate]
      omega
    · simp [Parts.text, Parts.tail, Parts.exponentText, hdigits]
  · dsimp only
    split_ifs with hlength
    · refine ⟨⟨d.digits ++ List.replicate (d.point.toNat - d.digits.length) '0', [], none⟩, ⟨⟨?_, ?_, ?_, ?_⟩, ?_, ?_⟩, ?_⟩
      · intro x hx
        exact (List.mem_append.mp hx).elim (h.digit x) isDigit_of_mem_replicate
      · simp
      · exact .inr ⟨c, _, by rw [hdigits, List.cons_append], hc⟩
      · simp
      · have hexp : d.point - d.digits.length = ((d.point.toNat - d.digits.length : ℕ) : ℤ) := by omega
        rw [Parts.value, value, Parts.coefficient, List.append_nil, Nat.ofDigitChars_append,
          Nat.ofDigitChars_replicate_zero, hexp, zpow_natCast]
        simp [Parts.power, mul_comm]
      · simp [Parts.power]
      · simp [Parts.text, Parts.tail, Parts.exponentText]
    · have hpos : 0 < d.point.toNat := by omega
      refine ⟨⟨d.digits.take d.point.toNat, d.digits.drop d.point.toNat, none⟩, ⟨⟨?_, ?_, ?_, ?_⟩, ?_, ?_⟩, ?_⟩
      · exact fun x hx => h.digit x (List.mem_of_mem_take hx)
      · exact fun x hx => h.digit x (List.mem_of_mem_drop hx)
      · obtain ⟨k, hk⟩ := Nat.exists_eq_succ_of_ne_zero hpos.ne'
        exact .inr ⟨c, rest.take k, by rw [hk, hdigits, List.take_succ_cons], hc⟩
      · simp
      · rw [Parts.value, value, Parts.coefficient, List.take_append_drop]
        congr 2
        simp only [Parts.power, List.length_drop]
        omega
      · simp only [Parts.power, List.length_drop]
        omega
      · have hne : (d.digits.drop d.point.toNat).isEmpty = false := by
          simp only [List.isEmpty_eq_false_iff, ne_eq, List.drop_eq_nil_iff]
          omega
        simp [Parts.text, Parts.tail, Parts.exponentText, hne]

theorem scientific_eq_text {d : Digits} (h : d.Proper) (width : ℕ) (hpoint : (d.point - 1).natAbs < 100000) :
    ∃ p : Parts, p.Writes d ∧ d.scientific width = p.text := by
  obtain ⟨c, rest, hdigits, hc⟩ := h.lead
  have hall : ∀ x ∈ c :: rest, x.isDigit = true := hdigits ▸ h.digit
  have hpower : Parts.power (some (decide (d.point - 1 < 0), padded width (d.point - 1).natAbs)) = d.point - 1 := by
    simp only [Parts.power, ofDigitChars_padded, decide_eq_true_eq]
    split_ifs <;> omega
  refine ⟨⟨[c], rest, some (decide (d.point - 1 < 0), padded width (d.point - 1).natAbs)⟩, ⟨⟨?_, ?_, ?_, ?_⟩, ?_, ?_⟩, ?_⟩
  · simpa using hall c List.mem_cons_self
  · exact fun x hx => hall x (List.mem_cons_of_mem c hx)
  · exact .inr ⟨c, [], rfl, hc⟩
  · intro negative ds heq
    obtain ⟨-, rfl⟩ := Prod.mk.inj (Option.some.inj heq)
    exact ⟨padded_ne_nil _ _, fun x => isDigit_padded, by rwa [ofDigitChars_padded]⟩
  · rw [Parts.value, value, Parts.coefficient, hpower, hdigits]
    congr 2
    simp only [List.length_cons]
    push_cast
    ring
  · rw [hpower, hdigits]
    simp only [List.length_cons]
    omega
  · rw [scientific, hdigits]
    cases rest <;> simp [Parts.text, Parts.tail, Parts.exponentText]

theorem magnitude_eq_text {d : Digits} (h : d.Proper) (l : Layout) (hpoint : (d.point - 1).natAbs < 100000) :
    ∃ p : Parts, p.Writes d ∧ l.magnitude d = p.text := by
  rw [Layout.magnitude]
  split_ifs
  · exact scientific_eq_text h l.width hpoint
  · exact positional_eq_text h

end Digits

namespace Decimal

def value (d : Decimal) : ℚ := d.coefficient * 10 ^ d.exponent

theorem den_pos (d : Decimal) : 0 < d.den := Nat.pow_pos (by decide)

/-- The two powers of ten that an exponent is split into. -/
theorem ten_pow_div (e : ℤ) : ((Nat.pow 10 e.toNat : ℕ) : ℚ) / (Nat.pow 10 (-e).toNat : ℕ) = 10 ^ e := by
  simp only [Nat.pow_eq, Nat.cast_pow, Nat.cast_ofNat, ← zpow_natCast]
  rw [← zpow_sub₀ (by norm_num)]
  congr 1
  omega

theorem num_div_den (d : Decimal) : (d.num : ℚ) / d.den = d.value := by
  rw [num, den, value, ← ten_pow_div, Nat.cast_mul, mul_div_assoc]

theorem exact_value (b : Scaled) : (exact b).value = b.value := by
  rw [exact]
  split_ifs with h
  · rw [value, ← Scaled.num_div_den, Scaled.den, Int.toNat_of_nonpos (by omega)]
    simp
  · obtain ⟨k, hk⟩ : ∃ k : ℕ, b.exponent = -(k : ℤ) := ⟨(-b.exponent).toNat, by omega⟩
    simp only [value, Scaled.value, hk, neg_neg, Int.toNat_natCast, zpow_neg, zpow_natCast, Nat.pow_eq]
    push_cast
    rw [show (10 : ℚ) = 5 * 2 by norm_num, mul_pow]
    field_simp

theorem shortest_cases (b : Scaled) :
    shortest b = exact b ∨ ∃ e ∈ grids b, (shortest b).exponent = e ∧ readsBack b (shortest b) = true := by
  rw [shortest]
  cases hfound : (grids b).findSome? fun e => (neighbours b e).find? (readsBack b) with
  | none => exact .inl rfl
  | some d =>
    obtain ⟨e, he, hd⟩ := List.exists_of_findSome?_eq_some hfound
    refine .inr ⟨e, he, ?_, List.find?_some hd⟩
    have hmem := List.mem_of_find?_eq_some hd
    simp only [neighbours, List.mem_cons, List.not_mem_nil, or_false] at hmem
    rcases hmem with rfl | rfl <;> rfl

/-- The shortest digits are those of a number that rounds to the double. -/
theorem round_shortest {b : Scaled} (h : BinaryFormat.double.Canonical b) (hb : 0 < b.significand) :
    BinaryFormat.double.round (shortest b).num (shortest b).den = some b := by
  rcases shortest_cases b with heq | ⟨-, -, -, hback⟩
  · apply h.round_eq (by decide) (den_pos _) _ hb
    rw [num_div_den, heq, exact_value]
  · simpa [readsBack] using hback

theorem shortest_exponent {b : Scaled} (h : BinaryFormat.double.Canonical b) : -1074 ≤ (shortest b).exponent := by
  have hleast : -1074 ≤ b.exponent := h.least
  rcases shortest_cases b with heq | ⟨e, he, hexponent, -⟩
  · rw [heq, exact]
    split_ifs <;> simp only <;> omega
  · have hden : Nat.log2 b.den ≤ 1074 := by
      rw [Scaled.den, Nat.pow_eq, Nat.log2_two_pow]
      omega
    obtain ⟨i, hi, rfl⟩ := List.mem_map.mp he
    have hlt := List.mem_range.mp hi
    rw [hexponent, ceiling]
    omega

end Decimal

namespace Digits

theorem ofDecimal_spec {d : Decimal} (h : 0 < d.coefficient) :
    (ofDecimal d).Proper ∧ (ofDecimal d).value = d.value ∧
      d.exponent ≤ (ofDecimal d).point - (ofDecimal d).digits.length := by
  obtain ⟨k, hk⟩ := eq_append_zeros (Nat.toDigits 10 d.coefficient)
  have hhead := head?_toDigits h
  have hdigit : ∀ c ∈ Nat.toDigits 10 d.coefficient, c.isDigit = true :=
    fun c => Nat.isDigit_of_mem_toDigits (by decide) (by decide)
  have hvalue : Nat.ofDigitChars 10 (Nat.toDigits 10 d.coefficient) 0 = d.coefficient := Nat.ofDigitChars_ten_toDigits
  have hnonempty : Nat.toDigits 10 d.coefficient ≠ [] := Nat.toDigits_ne_nil
  simp only [ofDecimal]
  generalize ((Nat.toDigits 10 d.coefficient).reverse.dropWhile (· == '0')).reverse = kept at hk ⊢
  generalize Nat.toDigits 10 d.coefficient = all at hk hhead hdigit hvalue hnonempty ⊢
  subst hk
  cases kept with
  | nil =>
    cases k with
    | zero => exact absurd rfl hnonempty
    | succ k => simp [List.replicate_succ] at hhead
  | cons c rest =>
    rw [if_neg (by simp)]
    refine ⟨⟨fun x hx => hdigit x (List.mem_append_left _ hx), c, rest, rfl, by simpa using hhead⟩, ?_, ?_⟩
    · rw [Nat.ofDigitChars_append, Nat.ofDigitChars_replicate_zero] at hvalue
      have hexp : ((((c :: rest) ++ List.replicate k '0').length : ℕ) : ℤ) + d.exponent - (c :: rest).length =
          k + d.exponent := by
        simp only [List.length_append, List.length_replicate]
        push_cast
        ring
      rw [value, Decimal.value, ← hvalue]
      dsimp only
      rw [hexp, zpow_add₀ (by norm_num), zpow_natCast]
      push_cast
      ring
    · simp only [List.length_append, List.length_replicate]
      push_cast
      omega

end Digits

/-- Only numbers in the range of doubles round to one that is not zero. -/
theorem BinaryFormat.round_range {num den : ℕ} (hden : 0 < den) {b : Scaled} (h : double.round num den = some b)
    (hb : 0 < b.significand) : (2 : ℚ) ^ (-1075 : ℤ) ≤ num / den ∧ (num : ℚ) / den < 2 ^ (1024 : ℤ) := by
  have hnum : 0 < num := by
    rcases Nat.eq_zero_or_pos num with hzero | hpos
    · rw [round, if_pos hzero] at h
      rw [← Option.some.inj h] at hb
      exact absurd hb (lt_irrefl 0)
    · exact hpos
  obtain ⟨e, m, he, hm, hround⟩ := round_spec double hnum hden
  rw [hround] at h
  have hrange : e ≤ 971 ∧ m ≠ 0 := by
    obtain ⟨⟨rfl, rfl⟩ | ⟨-, rfl⟩, hgreatest⟩ := settle_eq_some h
    · have hsucc : e + 1 ≤ 971 := hgreatest
      exact ⟨by omega, by decide⟩
    · exact ⟨hgreatest, hb.ne'⟩
  have hleast : -1074 ≤ e := he.least
  constructor
  · have hlower : (1 : ℚ) / 2 ≤ num / den / 2 ^ e := by
      have hone : (1 : ℚ) ≤ m := by exact_mod_cast Nat.one_le_iff_ne_zero.mpr hrange.2
      linarith [hm.lower]
    rw [le_div_iff₀ (by positivity)] at hlower
    calc (2 : ℚ) ^ (-1075 : ℤ) ≤ 2 ^ (e - 1) := zpow_le_zpow_right₀ one_le_two (by omega)
      _ = 1 / 2 * 2 ^ e := by
        rw [zpow_sub₀ two_ne_zero]
        ring
      _ ≤ num / den := hlower
  · refine he.upper.trans_le (zpow_le_zpow_right₀ one_le_two ?_)
    have : (double.precision : ℤ) = 53 := rfl
    omega

theorem two_pow_le_ten_pow : (2 : ℚ) ^ (1024 : ℤ) ≤ 10 ^ (309 : ℤ) := by
  exact_mod_cast (show 2 ^ 1024 ≤ 10 ^ 309 by decide +kernel)

theorem pos_of_pow_le {m : ℕ} {e : ℤ} {x : ℚ} (h : (2 : ℚ) ^ e ≤ m * x) : 0 < m := by
  rcases Nat.eq_zero_or_pos m with hzero | hpos
  · rw [hzero, Nat.cast_zero, zero_mul] at h
    exact absurd h (not_le.mpr (by positivity))
  · exact hpos

namespace Literal

/-- No double is settled by the size of its digits alone. -/
theorem digitBound_range {m : ℕ} (hm : 0 < m) {e : ℤ} (he : -1100 ≤ e) (hlow : (2 : ℚ) ^ (-1075 : ℤ) ≤ m * 10 ^ e)
    (hup : (m : ℚ) * 10 ^ e < 2 ^ (1024 : ℤ)) :
    (digitBound m : ℤ) + e ≤ 400 ∧ -400 ≤ (digitBound m : ℤ) + e := by
  rw [digitBound]
  have hle : 2 ^ m.log2 ≤ m := Nat.log2_self_le hm.ne'
  have hlt : m < 2 ^ (m.log2 + 1) := Nat.lt_log2_self
  generalize m.log2 = k at hle hlt ⊢
  have hten : (0 : ℚ) < 10 ^ e := by positivity
  have hbelow (j : ℕ) (hj : 10 ^ j ≤ m) : (j : ℤ) + e < 309 := by
    have hcast : (10 : ℚ) ^ (j : ℤ) ≤ m := by exact_mod_cast hj
    apply (zpow_lt_zpow_iff_right₀ (show (1 : ℚ) < 10 by norm_num)).mp
    calc (10 : ℚ) ^ ((j : ℤ) + e) = 10 ^ (j : ℤ) * 10 ^ e := zpow_add₀ (by norm_num) _ _
      _ ≤ m * 10 ^ e := by gcongr
      _ < 2 ^ (1024 : ℤ) := hup
      _ ≤ 10 ^ (309 : ℤ) := two_pow_le_ten_pow
  have habove (j : ℕ) (hj : m ≤ 10 ^ j) : -324 ≤ (j : ℤ) + e := by
    have hcast : (m : ℚ) ≤ 10 ^ (j : ℤ) := by exact_mod_cast hj
    apply (zpow_le_zpow_iff_right₀ (show (1 : ℚ) < 10 by norm_num)).mp
    calc (10 : ℚ) ^ (-324 : ℤ) ≤ 2 ^ (-1075 : ℤ) := by
          rw [zpow_neg, zpow_neg, inv_le_inv₀ (by positivity) (by positivity)]
          exact_mod_cast (show 2 ^ 1075 ≤ 10 ^ 324 by decide +kernel)
      _ ≤ m * 10 ^ e := hlow
      _ ≤ 10 ^ (j : ℤ) * 10 ^ e := by gcongr
      _ = 10 ^ ((j : ℤ) + e) := (zpow_add₀ (by norm_num) _ _).symm
  have hfew := hbelow (3 * (k / 10)) <| by
    calc 10 ^ (3 * (k / 10)) = (10 ^ 3) ^ (k / 10) := by rw [pow_mul]
      _ ≤ (2 ^ 10) ^ (k / 10) := Nat.pow_le_pow_left (by decide) _
      _ = 2 ^ (10 * (k / 10)) := by rw [pow_mul]
      _ ≤ 2 ^ k := Nat.pow_le_pow_right (by decide) (Nat.mul_div_le k 10)
      _ ≤ m := hle
  have hmany := habove (28 * (k / 93 + 1)) <| by
    calc m ≤ 2 ^ (k + 1) := hlt.le
      _ ≤ 2 ^ (93 * (k / 93 + 1)) := Nat.pow_le_pow_right (by decide) (by omega)
      _ = (2 ^ 93) ^ (k / 93 + 1) := by rw [pow_mul]
      _ ≤ (10 ^ 28) ^ (k / 93 + 1) := Nat.pow_le_pow_left (by decide) _
      _ = 10 ^ (28 * (k / 93 + 1)) := by rw [pow_mul]
  omega

end Literal

/-- The parts and the sign that a double is written with. -/
theorem Layout.render_eq_text (l : Layout) (negative : Bool) {b : Scaled} (h : BinaryFormat.double.Canonical b) :
    ∃ p : Parts, p.WellFormed ∧ l.render (.finite negative b) = (if negative then ['-'] else []) ++ p.text ∧
      (Literal.decimal negative p.coefficient (Parts.power p.exponent - p.fraction.length)).round .double =
        .ok (.finite negative b) := by
  rw [render]
  by_cases hzero : b.significand = 0
  · refine ⟨⟨['0'], [], none⟩, ⟨by simp, by simp, .inl rfl, by simp⟩, ?_, ?_⟩
    · rw [if_pos hzero]
      rfl
    · have hleast : b.exponent = -1074 := by
        rcases h.full with heq | hfull
        · exact heq
        · exact absurd (hzero ▸ hfull) (by decide)
      obtain ⟨m, e⟩ := b
      subst hzero hleast
      rfl
  · have hb : 0 < b.significand := Nat.pos_of_ne_zero hzero
    have hround := Decimal.round_shortest h hb
    have hden := Decimal.den_pos (Decimal.shortest b)
    obtain ⟨hlow, hup⟩ := BinaryFormat.round_range hden hround hb
    rw [Decimal.num_div_den] at hlow hup
    obtain ⟨hproper, hvalue, hpoint⟩ := Digits.ofDecimal_spec (pos_of_pow_le hlow)
    have hexponent := Decimal.shortest_exponent h
    rw [← hvalue] at hlow hup
    have hpoint' : (Digits.ofDecimal (Decimal.shortest b)).point - 1 < 309 := by
      apply (zpow_lt_zpow_iff_right₀ (show (1 : ℚ) < 10 by norm_num)).mp
      calc (10 : ℚ) ^ ((Digits.ofDecimal (Decimal.shortest b)).point - 1) ≤ _ := hproper.pow_le_value
        _ < 2 ^ (1024 : ℤ) := hup
        _ ≤ 10 ^ (309 : ℤ) := two_pow_le_ten_pow
    obtain ⟨p, hp, htext⟩ := Digits.magnitude_eq_text hproper l (by omega)
    refine ⟨p, hp.wellFormed, by rw [if_neg hzero, htext], ?_⟩
    have hpvalue : (p.coefficient : ℚ) * 10 ^ (Parts.power p.exponent - p.fraction.length) =
        (Digits.ofDecimal (Decimal.shortest b)).value := hp.value
    have hleast := hp.least
    rw [← hpvalue] at hlow hup
    have hpos : 0 < p.coefficient := pos_of_pow_le hlow
    generalize Parts.power p.exponent - (p.fraction.length : ℤ) = e at hlow hup hpvalue hleast ⊢
    obtain ⟨hmost, hfew⟩ := Literal.digitBound_range hpos (by omega) hlow hup
    have hsame : BinaryFormat.double.round (p.coefficient * Nat.pow 10 e.toNat) (Nat.pow 10 (-e).toNat) = some b := by
      rw [← hround]
      refine BinaryFormat.round_congr _ (Nat.pow_pos (by decide)) hden ?_
      rw [Decimal.num_div_den, ← hvalue, ← hpvalue, Nat.cast_mul, mul_div_assoc, Decimal.ten_pow_div]
    rw [Literal.round, if_neg hpos.ne', if_neg (by omega), if_neg (by omega), hsame]

theorem isFinite_iff {x : Float} : isFinite x = true ↔ ∃ negative b, Double.ofFloat x = .finite negative b := by
  rw [isFinite]
  cases Double.ofFloat x <;> simp

/-- A finite double is written as a JSON number. -/
theorem isNumeral_write (l : Layout) {x : Float} (hx : isFinite x = true) : Json.isNumeral (l.write x).toList = true := by
  obtain ⟨negative, b, hb⟩ := isFinite_iff.mp hx
  obtain ⟨p, hp, htext, -⟩ := l.render_eq_text negative (Double.canonical_of_ofBits hb)
  rw [Layout.write, String.toList_ofList, hb, htext]
  exact Parts.isNumeral_text negative hp

/-- What is written of a finite double is read back as this double. -/
theorem read_write (l : Layout) {x : Float} (hx : isFinite x = true) : read (l.write x) = .ok x := by
  obtain ⟨negative, b, hb⟩ := isFinite_iff.mp hx
  obtain ⟨p, hp, htext, hround⟩ := l.render_eq_text negative (Double.canonical_of_ofBits hb)
  have hback : (Double.finite negative b).toFloat = x := by
    rw [← hb, Double.toFloat_ofFloat (by simp [hb])]
  rw [read, readAs, Layout.write, String.toList_ofList, hb, htext, Literal.parse?_text negative hp]
  dsimp only
  rw [hround, Except.map, hback]

/-- The words for the doubles without digits are read back too. -/
theorem Layout.read_write (l : Layout) (x : Float) : read (l.write x) = .ok x := by
  have hback := Double.leftInverse_toFloat x
  cases hx : Double.ofFloat x with
  | finite negative b => exact Number.read_write l (isFinite_iff.mpr ⟨negative, b, hx⟩)
  | infinite negative =>
    have hparse : Literal.parse? (if negative then "-Inf" else "+Inf").toList = some (.infinite negative) := by
      cases negative <;> decide
    rw [hx] at hback
    rw [read, readAs, write, hx, String.toList_ofList, render, hparse, ← hback]
    rfl
  | undefined =>
    have hparse : Literal.parse? "NaN".toList = some .undefined := by decide
    rw [hx] at hback
    rw [read, readAs, write, hx, String.toList_ofList, render, hparse, ← hback]
    rfl

end BinFleet.Number
