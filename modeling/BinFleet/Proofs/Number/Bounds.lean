import BinFleet.Proofs.Number.Order

namespace BinFleet.Number

namespace Double

/-- The float stands for this number. -/
def Denotes (x : Float) (q : ℚ) : Prop := ∃ a d, ofFloat x = .finite a d ∧ signed a d.value = q

/-- A number that a float stands for. -/
def Representable (q : ℚ) : Prop := ∃ a d, BinaryFormat.double.Canonical d ∧ signed a d.value = q

theorem signed_not (a : Bool) (q : ℚ) : signed (!a) q = -signed a q := by
  cases a <;> simp [signed]

theorem signed_mul (a b : Bool) (p q : ℚ) : signed (a ^^ b) (p * q) = signed a p * signed b q := by
  cases a <;> cases b <;> simp [signed]

theorem signed_div (a b : Bool) (p q : ℚ) : signed (a ^^ b) (p / q) = signed a p / signed b q := by
  cases a <;> cases b <;> simp [signed, neg_div, div_neg]

theorem abs_signed (a : Bool) (q : ℚ) : |signed a q| = |q| := by
  cases a <;> simp [signed]

/-- A number is its sign and its magnitude. -/
theorem signed_abs (q : ℚ) : signed (decide (q < 0)) |q| = q := by
  by_cases hneg : q < 0
  · rw [decide_eq_true hneg, abs_of_neg hneg]
    exact neg_neg q
  · rw [decide_eq_false hneg, abs_of_nonneg (not_lt.mp hneg)]
    rfl

theorem signed_natAbs (n : ℤ) : signed (decide (n < 0)) n.natAbs = n := by
  rw [Nat.cast_natAbs, Int.cast_abs]
  simpa using signed_abs (n : ℚ)

namespace Representable

theorem neg {q : ℚ} (h : Representable q) : Representable (-q) := by
  obtain ⟨a, d, hd, rfl⟩ := h
  exact ⟨!a, d, hd, signed_not a d.value⟩

/-- A number of up to 53 digits is shifted to full width; the next power of two is one step further. -/
theorem natCast {n : ℕ} (h : n ≤ 2 ^ 53) : Representable n := by
  rcases Nat.eq_zero_or_pos n with rfl | hpos
  · exact ⟨false, ⟨0, -1074⟩, ⟨by decide, le_rfl, by decide, .inl rfl⟩, by simp [signed, Scaled.value]⟩
  rcases h.eq_or_lt with rfl | hlt
  · exact ⟨false, ⟨2 ^ 52, 1⟩, ⟨by decide, by decide, by decide, .inr le_rfl⟩, by norm_num [signed, Scaled.value]⟩
  have hlog : n.log2 < 53 := (Nat.log2_lt hpos.ne').mpr hlt
  obtain ⟨k, hk⟩ := Nat.exists_eq_add_of_le (Nat.le_of_lt_succ hlog)
  refine ⟨false, ⟨n * 2 ^ k, -k⟩, ⟨?_, ?_, ?_, .inr ?_⟩, ?_⟩
  · calc n * 2 ^ k < 2 ^ (n.log2 + 1) * 2 ^ k :=
        Nat.mul_lt_mul_of_pos_right Nat.lt_log2_self (Nat.pow_pos Nat.two_pos)
      _ = 2 ^ 53 := by rw [← Nat.pow_add]; congr 1; omega
  · simp only [BinaryFormat.double]
    omega
  · simp only [BinaryFormat.double]
    omega
  · calc 2 ^ 52 = 2 ^ n.log2 * 2 ^ k := by rw [hk, Nat.pow_add]
      _ ≤ n * 2 ^ k := Nat.mul_le_mul_right _ (Nat.log2_self_le hpos.ne')
  · simp [signed, Scaled.value]

theorem magnitude {q : ℚ} (h : Representable q) : ∃ d, BinaryFormat.double.Canonical d ∧ d.value = |q| := by
  obtain ⟨a, d, hd, rfl⟩ := h
  exact ⟨d, hd, by rw [abs_signed, abs_of_nonneg (value_nonneg d)]⟩

theorem intCast {n : ℤ} (h : n.natAbs ≤ 2 ^ 53) : Representable n := by
  obtain ⟨d, hd, hvalue⟩ := (natCast h).magnitude
  rw [abs_of_nonneg (Nat.cast_nonneg _)] at hvalue
  exact ⟨decide (n < 0), d, hd, by rw [hvalue, signed_natAbs]⟩

theorem nearest_le {q u : ℚ} (hu : Representable u) (hq : 0 ≤ q) (hle : q ≤ u) (a : Bool) :
    ∃ d, nearest a q = .finite a d ∧ d.value ≤ u := by
  obtain ⟨e, he, hvalue⟩ := hu.magnitude
  rw [abs_of_nonneg (hq.trans hle)] at hvalue
  rw [← hvalue] at hle ⊢
  exact nearest_mono hq hle (nearest_value a he) a

theorem le_nearest {q l : ℚ} (hl : Representable l) (hle : l ≤ q) {a b : Bool} {d : Scaled}
    (hd : nearest a q = .finite b d) : l ≤ d.value := by
  rcases le_total l 0 with hneg | hpos
  · exact hneg.trans (value_nonneg d)
  · obtain ⟨e, he, hvalue⟩ := hl.magnitude
    rw [abs_of_nonneg hpos] at hvalue
    obtain ⟨e', he', hle'⟩ := nearest_mono hpos hle hd a
    rw [← hvalue, nearest_value a he] at he'
    obtain ⟨-, rfl⟩ := Double.finite.inj he'
    rwa [← hvalue]

end Representable

/-- The double was rounded from this number. -/
def Rounds (r : Double) (q : ℚ) : Prop := ∃ a, r = nearest a |q| ∧ signed a |q| = q

theorem Rounds.of_nearest (a : Bool) {q : ℚ} (hq : 0 ≤ q) : Rounds (nearest a q) (signed a q) :=
  ⟨a, by rw [abs_signed, abs_of_nonneg hq], by rw [abs_signed, abs_of_nonneg hq]⟩

/-- Rounding keeps the bounds that are doubles. -/
theorem Rounds.bounds {r : Double} {q l u : ℚ} (h : Rounds r q) (hl : Representable l) (hu : Representable u)
    (hlq : l ≤ q) (hqu : q ≤ u) : ∃ a d, r = .finite a d ∧ l ≤ signed a d.value ∧ signed a d.value ≤ u := by
  obtain ⟨a, rfl, hq⟩ := h
  cases a with
  | false =>
    have hq : |q| = q := hq
    rw [hq]
    obtain ⟨d, hd, hle⟩ := hu.nearest_le (hq ▸ abs_nonneg q) hqu false
    exact ⟨false, d, hd, hl.le_nearest hlq hd, hle⟩
  | true =>
    have hq : |q| = -q := by
      have : -|q| = q := hq
      linarith
    rw [hq]
    obtain ⟨d, hd, hle⟩ := hl.neg.nearest_le (hq ▸ abs_nonneg q) (neg_le_neg hlq) true
    have hge := hu.neg.le_nearest (neg_le_neg hqu) hd
    refine ⟨true, d, hd, ?_, ?_⟩ <;> simp only [signed, if_true] <;> linarith

variable {x y : Float} {p q : ℚ}

namespace Denotes

theorem unique (h : Denotes x p) (h' : Denotes x q) : p = q := by
  obtain ⟨a, d, hx, rfl⟩ := h
  obtain ⟨b, e, hx', rfl⟩ := h'
  obtain ⟨rfl, rfl⟩ := Double.finite.inj (hx.symm.trans hx')
  rfl

theorem le_iff (hx : Denotes x p) (hy : Denotes y q) : x ≤ y ↔ p ≤ q := by
  obtain ⟨a, d, hx, rfl⟩ := hx
  obtain ⟨b, e, hy, rfl⟩ := hy
  exact le_iff_of_finite hx hy

theorem lt_iff (hx : Denotes x p) (hy : Denotes y q) : x < y ↔ p < q := by
  obtain ⟨a, d, hx, rfl⟩ := hx
  obtain ⟨b, e, hy, rfl⟩ := hy
  exact lt_iff_of_finite hx hy

theorem beq_iff (hx : Denotes x p) (hy : Denotes y q) : (x == y) = true ↔ p = q := by
  obtain ⟨a, d, hx, rfl⟩ := hx
  obtain ⟨b, e, hy, rfl⟩ := hy
  exact beq_iff_of_finite hx hy

theorem mul (hx : Denotes x p) (hy : Denotes y q) : Rounds (ofFloat (x * y)) (p * q) := by
  obtain ⟨a, d, hx, rfl⟩ := hx
  obtain ⟨b, e, hy, rfl⟩ := hy
  rw [ofFloat_mul, hx, hy, ← signed_mul]
  exact .of_nearest _ (mul_nonneg (value_nonneg d) (value_nonneg e))

theorem div (hx : Denotes x p) (hy : Denotes y q) (hq : q ≠ 0) : Rounds (ofFloat (x / y)) (p / q) := by
  obtain ⟨a, d, hx, rfl⟩ := hx
  obtain ⟨b, e, hy, rfl⟩ := hy
  have he : e.significand ≠ 0 := by
    intro hzero
    apply hq
    cases b <;> simp [signed, Scaled.value, hzero]
  rw [ofFloat_div, hx, hy, Double.div, if_neg he, ← signed_div]
  exact .of_nearest _ (div_nonneg (value_nonneg d) (value_nonneg e))

theorem rounds_add (a b : Bool) (d e : Scaled) :
    Rounds ((Double.finite a d).add (.finite b e)) (signed a d.value + signed b e.value) := by
  simp only [Double.add]
  generalize signed a d.value + signed b e.value = sum
  split_ifs with hzero
  · refine ⟨a && b, ?_, ?_⟩
    · rw [hzero, abs_zero, nearest_zero]
    · rw [hzero]
      cases a && b <;> simp [signed]
  · exact ⟨decide (sum < 0), rfl, signed_abs sum⟩

theorem add (hx : Denotes x p) (hy : Denotes y q) : Rounds (ofFloat (x + y)) (p + q) := by
  obtain ⟨a, d, hx, rfl⟩ := hx
  obtain ⟨b, e, hy, rfl⟩ := hy
  rw [ofFloat_add, hx, hy]
  exact rounds_add a b d e

theorem sub (hx : Denotes x p) (hy : Denotes y q) : Rounds (ofFloat (x - y)) (p - q) := by
  obtain ⟨a, d, hx, rfl⟩ := hx
  obtain ⟨b, e, hy, rfl⟩ := hy
  rw [ofFloat_sub, hx, hy, sub_eq_add_neg (signed a d.value), ← signed_not]
  exact rounds_add a (!b) d e

/-- The root of what is not negative. -/
theorem sqrt (hx : Denotes x q) (hq : 0 ≤ q) : ∃ r, 0 ≤ r ∧ r ^ 2 ≤ q ∧ Rounds (ofFloat x.sqrt) r := by
  obtain ⟨a, d, hx, rfl⟩ := hx
  have hcanonical := canonical_of_ofBits hx
  rcases Nat.eq_zero_or_pos d.significand with hzero | hpos
  · obtain rfl : d = ⟨0, -1074⟩ := (value_eq_zero hcanonical).mp (by simp [Scaled.value, hzero])
    refine ⟨0, le_rfl, by simpa using hq, a, ?_, ?_⟩
    · rw [ofFloat_sqrt_zero hx, abs_zero, nearest_zero]
    · cases a <;> simp [signed]
  · obtain rfl : a = false := (signed_nonneg hq hcanonical).resolve_right fun h => by simp [h] at hpos
    obtain ⟨r, hr, hsquare, hroot⟩ := ofFloat_sqrt hx hpos
    refine ⟨r, hr.le, hsquare, ?_⟩
    rw [hroot]
    exact .of_nearest false hr.le

end Denotes

/-- Rounding keeps the sign; what overflows is a positive infinity then. -/
theorem Rounds.nonneg (h : Rounds (ofFloat x) q) (hq : 0 ≤ q) : 0.0 ≤ x := by
  have hzero : ofFloat 0.0 = .finite false ⟨0, -1074⟩ := by decide
  obtain ⟨a, hround, hsigned⟩ := h
  have hsign : a = false ∨ q = 0 := by
    cases a with
    | false => exact .inl rfl
    | true =>
      have hneg : -|q| = q := hsigned
      exact .inr (le_antisymm (hneg ▸ neg_nonpos.mpr (abs_nonneg q)) hq)
  rcases nearest_cases a |q| with ⟨d, hd⟩ | hinfinite
  · rw [hd] at hround
    rw [le_iff_of_finite hzero hround, signed_zero]
    rcases hsign with rfl | rfl
    · exact value_nonneg d
    · rw [abs_zero, nearest_zero] at hd
      obtain ⟨-, rfl⟩ := Double.finite.inj hd
      rw [signed_zero]
  · rcases hsign with rfl | rfl
    · rw [hinfinite] at hround
      rw [le_iff, hround]
      exact ⟨_, _, rank_of_eq hzero, rfl, le_top⟩
    · rw [abs_zero, nearest_zero] at hinfinite
      cases hinfinite

/-- The least positive double. -/
theorem Representable.least : Representable (2 ^ (-1074 : ℤ)) :=
  ⟨false, ⟨1, -1074⟩, ⟨by decide, le_rfl, by decide, .inl rfl⟩, by simp [signed, Scaled.value]⟩

/-- Every double is a multiple of the least one. -/
theorem Denotes.multiple (hx : Denotes x p) : ∃ k : ℤ, p = k * 2 ^ (-1074 : ℤ) := by
  obtain ⟨a, d, hx, rfl⟩ := hx
  obtain ⟨n, hn⟩ := exists_grid 1 (canonical_of_ofBits hx)
  rw [Nat.cast_one, one_mul] at hn
  cases a with
  | false => exact ⟨n, by rw [Int.cast_natCast, ← hn]; rfl⟩
  | true => exact ⟨-n, by rw [Int.cast_neg, Int.cast_natCast, neg_mul, ← hn]; rfl⟩

/-- Doubles that differ have a difference. -/
theorem Denotes.sub_of_lt (hx : Denotes x p) (hy : Denotes y q) (hlt : p < q) :
    ofFloat (x - y) = .infinite true ∨ ∃ d, ofFloat (x - y) = .finite true d ∧ 0 < d.significand := by
  obtain ⟨a, hround, hsigned⟩ := hx.sub hy
  have hneg : p - q < 0 := sub_neg.mpr hlt
  obtain rfl : a = true := by
    by_contra hne
    rw [Bool.not_eq_true] at hne
    rw [hne] at hsigned
    have hnonneg : |p - q| = p - q := hsigned
    exact absurd (abs_nonneg (p - q)) (by rw [hnonneg]; exact not_le.mpr hneg)
  rw [hround, abs_of_neg hneg, neg_sub]
  have hunit : (0 : ℚ) < 2 ^ (-1074 : ℤ) := by positivity
  have hstep : (2 : ℚ) ^ (-1074 : ℤ) ≤ q - p := by
    obtain ⟨j, rfl⟩ := hx.multiple
    obtain ⟨k, rfl⟩ := hy.multiple
    have hjk : j < k := by exact_mod_cast lt_of_mul_lt_mul_right hlt hunit.le
    rw [← sub_mul, ← Int.cast_sub]
    apply le_mul_of_one_le_left hunit.le
    exact_mod_cast Int.sub_pos_of_lt hjk
  rcases nearest_cases true (q - p) with ⟨d, hd⟩ | hinfinite
  · right
    refine ⟨d, hd, Nat.pos_of_ne_zero fun hzero => ?_⟩
    have hle := Representable.least.le_nearest hstep hd
    rw [Scaled.value, hzero, Nat.cast_zero, zero_mul] at hle
    exact absurd hle (not_le.mpr hunit)
  · exact .inl hinfinite

/-- What lies between finite floats is finite. -/
theorem exists_denotes_of_le {a b : Float} (ha : Denotes a p) (hb : Denotes b q) (hax : a ≤ x) (hxb : x ≤ b) :
    ∃ r, Denotes x r := by
  obtain ⟨_, _, ha, -⟩ := ha
  obtain ⟨_, _, hb, -⟩ := hb
  obtain ⟨ra, rx, hra, hrx, hle⟩ := le_iff.mp hax
  obtain ⟨rx', rb, hrx', hrb, hle'⟩ := le_iff.mp hxb
  obtain rfl : rx = rx' := Option.some.inj (hrx.symm.trans hrx')
  rw [rank_of_eq ha] at hra
  rw [rank_of_eq hb] at hrb
  obtain rfl := Option.some.inj hra
  obtain rfl := Option.some.inj hrb
  cases hx : ofFloat x with
  | finite c d => exact ⟨_, c, d, hx, rfl⟩
  | infinite c =>
    rw [hx] at hrx
    cases c <;> obtain rfl := Option.some.inj hrx <;> simp at hle hle'
  | undefined =>
    rw [hx] at hrx
    cases hrx

/-- Finite, and between two whole numbers. -/
def Within (x : Float) (l u : ℤ) : Prop := ∃ q, Denotes x q ∧ l ≤ q ∧ q ≤ u

theorem Rounds.within {l u : ℤ} (h : Rounds (ofFloat x) q) (hl : l.natAbs ≤ 2 ^ 53) (hu : u.natAbs ≤ 2 ^ 53)
    (hlq : l ≤ q) (hqu : q ≤ u) : Within x l u := by
  obtain ⟨a, d, hx, hlower, hupper⟩ := h.bounds (.intCast hl) (.intCast hu) hlq hqu
  exact ⟨signed a d.value, ⟨a, d, hx, rfl⟩, hlower, hupper⟩

def inside (l u : ℤ) : Double → Bool
  | .finite a d =>
    let n := if a then -(d.num : ℤ) else d.num
    decide (l * d.den ≤ n ∧ n ≤ u * d.den)
  | _ => false

theorem within_iff {l u : ℤ} : inside l u (ofFloat x) = true ↔ Within x l u := by
  have hsigned (a : Bool) (d : Scaled) : signed a d.value = (if a then -(d.num : ℤ) else d.num : ℤ) / d.den := by
    rw [← Scaled.num_div_den]
    cases a <;> simp [signed, neg_div]
  cases hx : ofFloat x with
  | finite a d =>
    have hden : (0 : ℚ) < d.den := by exact_mod_cast d.den_pos
    have hvalue : Within x l u ↔ l ≤ signed a d.value ∧ signed a d.value ≤ u := by
      constructor
      · rintro ⟨q, hq, hbounds⟩
        rwa [hq.unique ⟨a, d, hx, rfl⟩] at hbounds
      · intro hbounds
        exact ⟨_, ⟨a, d, hx, rfl⟩, hbounds⟩
    rw [hvalue, hsigned, le_div_iff₀ hden, div_le_iff₀ hden, inside, decide_eq_true_eq]
    norm_cast
  | infinite a => simp [inside, Within, Denotes, hx]
  | undefined => simp [inside, Within, Denotes, hx]

instance (x : Float) (l u : ℤ) : Decidable (Within x l u) := decidable_of_iff _ within_iff

namespace Within

variable {l u m n : ℤ}

theorem denotes (h : Within x n n) : Denotes x n := by
  obtain ⟨q, hx, hlower, hupper⟩ := h
  rwa [le_antisymm hupper hlower] at hx

theorem ne_undefined (h : Within x l u) : ofFloat x ≠ .undefined := by
  obtain ⟨q, ⟨a, d, hx, -⟩, -⟩ := h
  rw [hx]
  exact Double.noConfusion

theorem mono (h : Within x l u) (hl : m ≤ l) (hu : u ≤ n) : Within x m n := by
  obtain ⟨q, hx, hlower, hupper⟩ := h
  have hl : (m : ℚ) ≤ l := by exact_mod_cast hl
  have hu : (u : ℚ) ≤ n := by exact_mod_cast hu
  exact ⟨q, hx, hl.trans hlower, hupper.trans hu⟩

/-- What lies between two floats has the bounds of both. -/
theorem of_le {a b : Float} (ha : Within a l m) (hb : Within b n u) (hax : a ≤ x) (hxb : x ≤ b) : Within x l u := by
  obtain ⟨p, hp, hlower, -⟩ := ha
  obtain ⟨q, hq, -, hupper⟩ := hb
  obtain ⟨r, hr⟩ := exists_denotes_of_le hp hq hax hxb
  exact ⟨r, hr, hlower.trans ((hp.le_iff hr).mp hax), ((hr.le_iff hq).mp hxb).trans hupper⟩

theorem add (hx : Within x l u) (hy : Within y m n) (hl : (l + m).natAbs ≤ 2 ^ 53) (hu : (u + n).natAbs ≤ 2 ^ 53) :
    Within (x + y) (l + m) (u + n) := by
  obtain ⟨p, hp, hlp, hpu⟩ := hx
  obtain ⟨q, hq, hmq, hqn⟩ := hy
  apply (hp.add hq).within hl hu <;> push_cast <;> linarith

theorem sub (hx : Within x l u) (hy : Within y m n) (hl : (l - n).natAbs ≤ 2 ^ 53) (hu : (u - m).natAbs ≤ 2 ^ 53) :
    Within (x - y) (l - n) (u - m) := by
  obtain ⟨p, hp, hlp, hpu⟩ := hx
  obtain ⟨q, hq, hmq, hqn⟩ := hy
  apply (hp.sub hq).within hl hu <;> push_cast <;> linarith

theorem mul_of_nonneg (hx : Within x 0 u) (hy : Within y 0 n) (h : (u * n).natAbs ≤ 2 ^ 53) : Within (x * y) 0 (u * n) := by
  obtain ⟨p, hp, hp0, hpu⟩ := hx
  obtain ⟨q, hq, hq0, hqn⟩ := hy
  rw [Int.cast_zero] at hp0 hq0
  apply (hp.mul hq).within (by decide) h
  · rw [Int.cast_zero]
    exact mul_nonneg hp0 hq0
  · rw [Int.cast_mul]
    exact mul_le_mul hpu hqn hq0 (hp0.trans hpu)

theorem mul (hx : Within x (-u) u) (hy : Within y (-n) n) (h : (u * n).natAbs ≤ 2 ^ 53) :
    Within (x * y) (-(u * n)) (u * n) := by
  obtain ⟨p, hp, hp'⟩ := hx
  obtain ⟨q, hq, hq'⟩ := hy
  rw [Int.cast_neg, ← abs_le] at hp' hq'
  have hbound : |p * q| ≤ (u * n : ℤ) := by
    rw [abs_mul, Int.cast_mul]
    exact mul_le_mul hp' hq' (abs_nonneg q) ((abs_nonneg p).trans hp')
  obtain ⟨hlower, hupper⟩ := abs_le.mp hbound
  exact (hp.mul hq).within (by rwa [Int.natAbs_neg]) h (by rwa [Int.cast_neg]) hupper

theorem square (hx : Within x (-u) u) (h : (u * u).natAbs ≤ 2 ^ 53) : Within (x * x) 0 (u * u) := by
  obtain ⟨p, hp, hp'⟩ := hx
  rw [Int.cast_neg, ← abs_le] at hp'
  apply (hp.mul hp).within (by decide) h
  · rw [Int.cast_zero]
    exact mul_self_nonneg p
  · rw [Int.cast_mul, ← abs_mul_abs_self]
    exact mul_self_le_mul_self (abs_nonneg p) hp'

/-- A divisor of one or more does not make anything greater. -/
theorem div (hx : Within x (-u) u) (hy : Within y 1 n) (h : u.natAbs ≤ 2 ^ 53) : Within (x / y) (-u) u := by
  obtain ⟨p, hp, hp'⟩ := hx
  obtain ⟨q, hq, hq1, -⟩ := hy
  rw [Int.cast_neg, ← abs_le] at hp'
  rw [Int.cast_one] at hq1
  have hbound : |p / q| ≤ u := by
    rw [abs_div]
    exact (div_le_self (abs_nonneg p) (hq1.trans (le_abs_self q))).trans hp'
  obtain ⟨hlower, hupper⟩ := abs_le.mp hbound
  exact (hp.div hq (by linarith)).within (by rwa [Int.natAbs_neg]) h (by rwa [Int.cast_neg]) hupper

/-- The root of what is between zero and one. -/
theorem sqrt (hx : Within x 0 1) : Within x.sqrt 0 1 := by
  obtain ⟨q, hq, hq0, hq1⟩ := hx
  rw [Int.cast_zero] at hq0
  obtain ⟨r, hr, hsquare, hroot⟩ := hq.sqrt hq0
  apply hroot.within (by decide) (by decide)
  · rwa [Int.cast_zero]
  · rw [Int.cast_one] at hq1 ⊢
    exact (sq_le_one_iff₀ hr).mp (hsquare.trans hq1)

end Within

end Double

end BinFleet.Number
