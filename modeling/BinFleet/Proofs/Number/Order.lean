import BinFleet.Proofs.Number.Arithmetic

namespace BinFleet.Number

open Float.Model (UnpackedFloat Format)
open Float.Model.UnpackedFloat

namespace Double

/-- The place of a double in the order. -/
def rank : Double → Option (WithBot (WithTop ℚ))
  | .finite negative d => some ((signed negative d.value : ℚ) : WithTop ℚ)
  | .infinite true => some ⊥
  | .infinite false => some ⊤
  | .undefined => none

/-- A number of the format is less than any number with a greater exponent. -/
theorem value_lt_of_exponent_lt {x y : Scaled} (hx : BinaryFormat.double.Canonical x)
    (hy : BinaryFormat.double.Canonical y) (hlt : x.exponent < y.exponent) : x.value < y.value := by
  have hleast : -1074 ≤ x.exponent := hx.least
  have hfull : 2 ^ 52 ≤ y.significand := hy.full.resolve_left (by simp only [BinaryFormat.double]; omega)
  have hwidth : x.significand < 2 ^ 53 := hx.width
  calc x.value < 2 ^ 53 * 2 ^ x.exponent := by
        rw [Scaled.value]
        gcongr
        exact_mod_cast hwidth
    _ = 2 ^ 52 * 2 ^ (x.exponent + 1) := by
      rw [zpow_add₀ two_ne_zero]
      ring
    _ ≤ 2 ^ 52 * 2 ^ y.exponent := by
      gcongr
      · exact one_le_two
      · omega
    _ ≤ y.value := by
      rw [Scaled.value]
      gcongr
      exact_mod_cast hfull

/-- Two numbers of the format are compared by their exponents first. -/
theorem canonical_compares {x y : Scaled} (hx : BinaryFormat.double.Canonical x) (hy : BinaryFormat.double.Canonical y) :
    ((compare x.exponent y.exponent).then (compare x.significand y.significand)).Compares x.value y.value := by
  rcases lt_trichotomy x.exponent y.exponent with h | h | h
  · rw [Int.compare_eq_lt.mpr h]
    exact value_lt_of_exponent_lt hx hy h
  · have hpow : (0 : ℚ) < 2 ^ y.exponent := by positivity
    rw [Int.compare_eq_eq.mpr h]
    simp only [Scaled.value, h]
    rcases Nat.lt_trichotomy x.significand y.significand with hs | hs | hs
    · rw [Nat.compare_eq_lt.mpr hs]
      exact mul_lt_mul_of_pos_right (by exact_mod_cast hs) hpow
    · rw [Nat.compare_eq_eq.mpr hs, hs]
      exact rfl
    · rw [Nat.compare_eq_gt.mpr hs]
      exact mul_lt_mul_of_pos_right (by exact_mod_cast hs) hpow
  · rw [Int.compare_eq_gt.mpr h]
    exact value_lt_of_exponent_lt hy hx h

/-- A comparison says how two ranks stand to each other, where there are ranks. -/
def Tells (o : Option Ordering) (a b : Option (WithBot (WithTop ℚ))) : Prop :=
  match o, a, b with
  | some o, some a, some b => o.Compares a b
  | some _, _, _ => False
  | none, some _, some _ => False
  | none, _, _ => True

theorem compares_coe {o : Ordering} {p q : ℚ} :
    o.Compares ((p : WithTop ℚ) : WithBot (WithTop ℚ)) ((q : WithTop ℚ) : WithBot (WithTop ℚ)) ↔ o.Compares p q := by
  cases o <;> simp [Ordering.Compares]

theorem compares_neg {o : Ordering} {p q : ℚ} : o.swap.Compares (-p) (-q) ↔ o.Compares p q := by
  cases o <;> simp [Ordering.Compares]

theorem coe_lt {p q : ℚ} (h : p < q) : ((p : WithTop ℚ) : WithBot (WithTop ℚ)) < (q : WithTop ℚ) :=
  WithBot.coe_lt_coe.mpr (WithTop.coe_lt_coe.mpr h)

theorem coe_lt_top (q : ℚ) : ((q : WithTop ℚ) : WithBot (WithTop ℚ)) < ⊤ :=
  WithBot.coe_lt_coe.mpr (WithTop.coe_lt_top q)

theorem compare_spec {u w : UnpackedFloat} (hu : InRange u) (hw : InRange w) :
    Tells (u.compare w) (rank (ofUnpacked u)) (rank (ofUnpacked w)) := by
  cases u with
  | notANumber => cases w <;> trivial
  | infinity s =>
    cases w with
    | notANumber => cases s <;> trivial
    | infinity t =>
      cases s <;> cases t
      · exact rfl
      · exact WithBot.bot_lt_coe _
      · exact WithBot.bot_lt_coe _
      · exact rfl
    | zero t =>
      cases s
      · exact WithBot.bot_lt_coe _
      · exact coe_lt_top _
    | finite t n f hn =>
      rw [ofUnpacked_finite hw]
      cases s
      · exact WithBot.bot_lt_coe _
      · exact coe_lt_top _
  | zero s =>
    cases w with
    | notANumber => trivial
    | infinity t =>
      cases t
      · exact WithBot.bot_lt_coe _
      · exact coe_lt_top _
    | zero t =>
      simp only [UnpackedFloat.compare, ofUnpacked, rank, Tells, signed_zero, Ordering.Compares]
    | finite t n f hn =>
      have hpos := value_pos (d := ⟨n, f⟩) hn
      rw [ofUnpacked_finite hw]
      simp only [ofUnpacked, rank, signed_zero]
      cases t
      · exact coe_lt (neg_neg_of_pos hpos)
      · exact coe_lt hpos
  | finite s m e hm =>
    have hpos := value_pos (d := ⟨m, e⟩) hm
    rw [ofUnpacked_finite hu]
    cases w with
    | notANumber => trivial
    | infinity t =>
      cases s <;> cases t
      · exact WithBot.bot_lt_coe _
      · exact coe_lt_top _
      · exact WithBot.bot_lt_coe _
      · exact coe_lt_top _
    | zero t =>
      simp only [ofUnpacked, rank, signed_zero]
      cases s
      · exact coe_lt (neg_neg_of_pos hpos)
      · exact coe_lt hpos
    | finite t n f hn =>
      have hpos' := value_pos (d := ⟨n, f⟩) hn
      have hcompares := canonical_compares hu hw
      rw [ofUnpacked_finite hw]
      cases s <;> cases t
      · exact compares_coe.mpr (compares_neg.mpr hcompares)
      · exact coe_lt ((neg_neg_of_pos hpos).trans hpos')
      · exact coe_lt ((neg_neg_of_pos hpos').trans hpos)
      · exact compares_coe.mpr hcompares

variable {x y : Float}

theorem tells_compare (x y : Float) :
    Tells (x.toModel.unpack.compare y.toModel.unpack) (rank (ofFloat x)) (rank (ofFloat y)) := by
  rw [ofFloat_eq x, ofFloat_eq y]
  exact compare_spec (inRange_unpack _) (inRange_unpack _)

theorem Tells.iff {o : Option Ordering} {a b : Option (WithBot (WithTop ℚ))} (h : Tells o a b) {P : Ordering → Prop}
    {Q : WithBot (WithTop ℚ) → WithBot (WithTop ℚ) → Prop} (hPQ : ∀ {o a b}, Ordering.Compares o a b → (P o ↔ Q a b)) :
    (∃ o', o = some o' ∧ P o') ↔ ∃ a' b', a = some a' ∧ b = some b' ∧ Q a' b' := by
  rcases o with _ | o <;> rcases a with _ | a <;> rcases b with _ | b <;> simp [Tells] at h ⊢
  exact hPQ h

theorem lt_iff : x < y ↔ ∃ a b, rank (ofFloat x) = some a ∧ rank (ofFloat y) = some b ∧ a < b := by
  rw [← (tells_compare x y).iff Ordering.Compares.eq_lt]
  change decide ((x.toModel.unpack.compare y.toModel.unpack == some .lt) = true) = true ↔ _
  rw [decide_eq_true_eq, beq_iff_eq]
  simp

theorem le_iff : x ≤ y ↔ ∃ a b, rank (ofFloat x) = some a ∧ rank (ofFloat y) = some b ∧ a ≤ b := by
  rw [← (tells_compare x y).iff Ordering.Compares.ne_gt]
  change decide ((x.toModel.unpack.compare y.toModel.unpack).any (·.isLE) = true) = true ↔ _
  rw [decide_eq_true_eq, Option.any_eq_true]
  simp only [Ordering.isLE_iff_ne_gt]

theorem beq_iff : (x == y) = true ↔ ∃ a, rank (ofFloat x) = some a ∧ rank (ofFloat y) = some a := by
  have h := (tells_compare x y).iff Ordering.Compares.eq_eq
  have heq : (x == y) = true ↔ ∃ o, x.toModel.unpack.compare y.toModel.unpack = some o ∧ o = .eq := by
    change (x.toModel.unpack.compare y.toModel.unpack == some .eq) = true ↔ _
    rw [beq_iff_eq]
    simp
  rw [heq, h]
  constructor
  · rintro ⟨a, b, ha, hb, rfl⟩
    exact ⟨a, ha, hb⟩
  · rintro ⟨a, ha, hb⟩
    exact ⟨a, a, ha, hb, rfl⟩

/-- What can be compared is a number. -/
theorem ne_undefined_of_le (h : x ≤ y) : ofFloat x ≠ .undefined ∧ ofFloat y ≠ .undefined := by
  obtain ⟨a, b, ha, hb, -⟩ := le_iff.mp h
  constructor
  · intro hx
    rw [hx] at ha
    cases ha
  · intro hy
    rw [hy] at hb
    cases hb

theorem ne_undefined_of_lt (h : x < y) : ofFloat x ≠ .undefined ∧ ofFloat y ≠ .undefined := by
  obtain ⟨a, b, ha, hb, hlt⟩ := lt_iff.mp h
  exact ne_undefined_of_le (le_iff.mpr ⟨a, b, ha, hb, hlt.le⟩)

/-- A number is equal to itself. -/
theorem beq_self_iff : (x == x) = true ↔ ofFloat x ≠ .undefined := by
  rw [beq_iff]
  cases ofFloat x with
  | infinite negative => cases negative <;> simp [rank]
  | _ => simp [rank]

theorem bne_self_iff : (x != x) = true ↔ ofFloat x = .undefined := by
  rw [bne, Bool.not_eq_true', ← Bool.not_eq_true, beq_self_iff, not_not]

theorem bne_self (hx : ofFloat x ≠ .undefined) : (x != x) = false := by
  rw [← Bool.not_eq_true, bne_self_iff]
  exact hx

theorem le_of_not_lt (hx : ofFloat x ≠ .undefined) (hy : ofFloat y ≠ .undefined) (h : ¬ y < x) : x ≤ y := by
  have hrank : ∀ {r : Double}, r ≠ .undefined → ∃ a, rank r = some a := by
    rintro (⟨a, d⟩ | (_ | _) | _) hr
    · exact ⟨_, rfl⟩
    · exact ⟨_, rfl⟩
    · exact ⟨_, rfl⟩
    · exact absurd rfl hr
  obtain ⟨a, ha⟩ := hrank hx
  obtain ⟨b, hb⟩ := hrank hy
  rw [lt_iff] at h
  rw [le_iff]
  exact ⟨a, b, ha, hb, not_lt.mp fun hlt => h ⟨b, a, hb, ha, hlt⟩⟩

variable {a b : Bool} {d e : Scaled}

theorem rank_of_eq (h : ofFloat x = .finite a d) : rank (ofFloat x) = some ((signed a d.value : ℚ) : WithTop ℚ) := by
  rw [h]
  rfl

/-- Finite doubles are ordered by value. -/
theorem le_iff_of_finite (hx : ofFloat x = .finite a d) (hy : ofFloat y = .finite b e) :
    x ≤ y ↔ signed a d.value ≤ signed b e.value := by
  rw [le_iff, rank_of_eq hx, rank_of_eq hy]
  simp

theorem lt_iff_of_finite (hx : ofFloat x = .finite a d) (hy : ofFloat y = .finite b e) :
    x < y ↔ signed a d.value < signed b e.value := by
  rw [lt_iff, rank_of_eq hx, rank_of_eq hy]
  simp

theorem beq_iff_of_finite (hx : ofFloat x = .finite a d) (hy : ofFloat y = .finite b e) :
    (x == y) = true ↔ signed a d.value = signed b e.value := by
  rw [beq_iff, rank_of_eq hx, rank_of_eq hy]
  simp [eq_comm]

theorem signed_nonneg (h : 0 ≤ signed a d.value) (hd : BinaryFormat.double.Canonical d) : a = false ∨ d = ⟨0, -1074⟩ := by
  cases a with
  | false => exact .inl rfl
  | true =>
    right
    have hneg : 0 ≤ -d.value := h
    exact (value_eq_zero hd).mp (le_antisymm (by linarith) (value_nonneg d))

end Double

end BinFleet.Number
