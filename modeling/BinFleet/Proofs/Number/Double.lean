import BinFleet.Proofs.Number.Rounding

namespace BinFleet.Number

open Float.Model (UnpackedFloat Format)
open Float.Model.UnpackedFloat

section Fields

variable (b : BitVec Format.binary64.numBits)

theorem unpackMantissa_toNat : (unpackMantissa b).toNat = b.toNat % 2 ^ 52 := by
  simp [unpackMantissa, BitVec.extractLsb_toNat]

theorem unpackExponent_toNat : (unpackExponent b).toNat = b.toNat / 2 ^ 52 % 2048 := by
  simp [unpackExponent, BitVec.extractLsb_toNat, Nat.shiftRight_eq_div_pow]

theorem unpackSign_toNat : (unpackSign b).toNat = b.toNat / 2 ^ 63 := by
  have hlt : b.toNat < 2 ^ 64 := b.isLt
  simp [unpackSign, BitVec.extractLsb_toNat, Nat.shiftRight_eq_div_pow]
  omega

theorem packComponents_toNat (s : Sign) (e : BitVec Format.binary64.exponentBits)
    (m : BitVec Format.binary64.mantissaBitsWithoutImplicit) :
    (packComponents .binary64 s e m).toNat = s.toBitVec.toNat * 2 ^ 63 + e.toNat * 2 ^ 52 + m.toNat := by
  have he : e.toNat < 2 ^ 11 := e.isLt
  have hm : m.toNat < 2 ^ 52 := m.isLt
  rw [packComponents, BitVec.toNat_append, BitVec.toNat_append, ← Nat.shiftLeft_add_eq_or_of_lt hm,
    ← Nat.shiftLeft_add_eq_or_of_lt he, Nat.shiftLeft_eq, Nat.shiftLeft_eq]
  omega

end Fields

def isNegative : Sign → Bool
  | .negative => true
  | .positive => false

theorem isNegative_ofBitVec (b : BitVec 1) : isNegative (.ofBitVec b) = decide (1 ≤ b.toNat) := by
  revert b
  decide

namespace Double

/-- What an unpacked number stands for; an exponent that is too great makes it an infinity. -/
def ofUnpacked : UnpackedFloat → Double
  | .infinity s => .infinite (isNegative s)
  | .notANumber => .undefined
  | .zero s => .finite (isNegative s) ⟨0, -1074⟩
  | .finite s m e _ => if 971 < e then .infinite (isNegative s) else .finite (isNegative s) ⟨m, e⟩

theorem ofBits_toNat (b : BitVec Format.binary64.numBits) : ofBits b.toNat = ofUnpacked (unpack .binary64 b) := by
  have hlt : b.toNat < 2 ^ 64 := b.isLt
  have hsign : isNegative (.ofBitVec (unpackSign b)) = decide (Nat.pow 2 63 ≤ b.toNat) := by
    rw [isNegative_ofBitVec, unpackSign_toNat]
    apply decide_eq_decide.mpr
    simp only [Nat.pow_eq]
    omega
  have hexponent := unpackExponent_toNat b
  have hmantissa := unpackMantissa_toNat b
  have hall : unpackExponent b = -1#_ ↔ b.toNat / Nat.pow 2 52 % 2048 = 2047 := by
    rw [← BitVec.toNat_inj, hexponent]
    rfl
  have hnone : unpackExponent b = 0#_ ↔ b.toNat / Nat.pow 2 52 % 2048 = 0 := by
    rw [← BitVec.toNat_inj, hexponent]
    rfl
  have hzero : unpackMantissa b = 0#_ ↔ b.toNat % Nat.pow 2 52 = 0 := by
    rw [← BitVec.toNat_inj, hmantissa]
    rfl
  have hbias : (Format.binary64.exponentBias + Format.binary64.mantissaBitsWithoutImplicit : Int) = 1075 := rfl
  simp only [ofBits, unpack, hall, hnone, hzero]
  split_ifs with h1 h2 h3 h4
  · rw [ofUnpacked, hsign]
  · rfl
  · rw [ofUnpacked, hsign]
    simp [h4]
  · have hfield : b.toNat / 2 ^ 52 % 2048 = 0 := h3
    rw [ofUnpacked, hsign, hexponent, hmantissa, hbias, hfield, if_neg (by decide)]
    rfl
  · have hfull : (1#1 ++ unpackMantissa b).toNat = b.toNat % Nat.pow 2 52 + Nat.pow 2 52 := by
      rw [BitVec.toNat_append, ← Nat.shiftLeft_add_eq_or_of_lt (unpackMantissa b).isLt, hmantissa]
      exact Nat.add_comm _ _
    have hfield : b.toNat / 2 ^ 52 % 2048 < 2047 := Nat.lt_of_le_of_ne (by omega) h1
    rw [ofUnpacked, hsign, hexponent, hfull, hbias, if_neg (by omega)]
    rfl

theorem ofFloat_eq (x : Float) : ofFloat x = ofUnpacked x.toModel.unpack := ofBits_toNat x.toModel.toBits.toBitVec

/-- What a float stands for is a number of the double format. -/
theorem canonical_of_ofBits {bits : ℕ} {negative : Bool} {d : Scaled} (h : ofBits bits = .finite negative d) :
    BinaryFormat.double.Canonical d := by
  simp only [ofBits] at h
  have hfield : bits / Nat.pow 2 52 % 2048 < 2048 := Nat.mod_lt _ (by decide)
  have hfraction : bits % Nat.pow 2 52 < Nat.pow 2 52 := Nat.mod_lt _ (by decide)
  split_ifs at h with h1 h2 h3
  · obtain ⟨-, rfl⟩ := Double.finite.inj h
    exact ⟨hfraction.trans (Nat.pow_lt_pow_right (by decide) (by decide)), le_refl _, show (-1074 : ℤ) ≤ 971 by decide, .inl rfl⟩
  · obtain ⟨-, rfl⟩ := Double.finite.inj h
    refine ⟨?_, ?_, ?_, .inr (Nat.le_add_left _ _)⟩
    · simp only [BinaryFormat.double, Nat.pow_eq] at hfraction ⊢
      omega
    · simp only [BinaryFormat.double]
      omega
    · simp only [BinaryFormat.double]
      omega

/-- The bits of what bits stand for. -/
theorem toBits_ofBits {bits : ℕ} (h : bits < 2 ^ 64) (hnumber : ofBits bits ≠ .undefined) :
    toBits (ofBits bits) = bits := by
  simp only [ofBits] at hnumber ⊢
  have hfield : bits / Nat.pow 2 52 % 2048 < 2048 := Nat.mod_lt _ (by decide)
  have hfraction : bits % Nat.pow 2 52 < Nat.pow 2 52 := Nat.mod_lt _ (by decide)
  have hsign : (if decide (Nat.pow 2 63 ≤ bits) = true then Nat.pow 2 63 else 0) = bits / 2 ^ 63 * 2 ^ 63 := by
    simp only [decide_eq_true_eq, Nat.pow_eq]
    split_ifs <;> omega
  split_ifs at hnumber ⊢ with h1 h2 h3
  · rw [toBits, hsign]
    simp only [Nat.pow_eq] at *
    omega
  · exact absurd rfl hnumber
  · rw [toBits, hsign, magnitudeBits, if_pos hfraction]
    simp only [Nat.pow_eq] at *
    omega
  · rw [toBits, hsign, magnitudeBits, if_neg (by simp only []; omega)]
    simp only [Nat.pow_eq] at *
    omega

/-- The three fields of the bits of a double. -/
theorem ofBits_fields (negative : Bool) {field fraction : ℕ} (hfield : field < 2048) (hfraction : fraction < Nat.pow 2 52) :
    ofBits ((if negative then Nat.pow 2 63 else 0) + (field * Nat.pow 2 52 + fraction)) =
      if field = 2047 then if fraction = 0 then .infinite negative else .undefined
      else if field = 0 then .finite negative ⟨fraction, -1074⟩
      else .finite negative ⟨fraction + Nat.pow 2 52, (field : Int) - 1075⟩ := by
  simp only [Nat.pow_eq] at hfraction ⊢
  generalize hbits : (if negative then 2 ^ 63 else 0) + (field * 2 ^ 52 + fraction) = bits
  have hsign : decide (2 ^ 63 ≤ bits) = negative := by
    cases negative
    · simp only [Bool.false_eq_true, if_false] at hbits
      exact decide_eq_false (by omega)
    · simp only [if_true] at hbits
      exact decide_eq_true (by omega)
  have hlow : bits % 2 ^ 52 = fraction := by
    cases negative <;> simp only [Bool.false_eq_true, if_false, if_true] at hbits <;> omega
  have hhigh : bits / 2 ^ 52 % 2048 = field := by
    cases negative <;> simp only [Bool.false_eq_true, if_false, if_true] at hbits <;> omega
  simp only [ofBits, Nat.pow_eq, hsign, hlow, hhigh]

theorem ofBits_toBits_finite {negative : Bool} {d : Scaled} (h : BinaryFormat.double.Canonical d) :
    ofBits (toBits (.finite negative d)) = .finite negative d := by
  obtain ⟨m, e⟩ := d
  obtain ⟨hwidth, hleast, hgreatest, hfull⟩ := h
  simp only [BinaryFormat.double] at hwidth hleast hgreatest hfull
  rw [toBits, magnitudeBits]
  dsimp only
  by_cases hsmall : m < Nat.pow 2 52
  · rw [if_pos hsmall]
    have hfields := ofBits_fields negative (show 0 < 2048 by decide) hsmall
    rw [Nat.zero_mul, Nat.zero_add] at hfields
    have he : e = -1074 := hfull.resolve_right (not_le.mpr hsmall)
    rw [hfields, he]
    rfl
  · rw [if_neg hsmall]
    have hnormal : 2 ^ 52 ≤ m := not_lt.mp hsmall
    have hfraction : m - Nat.pow 2 52 < Nat.pow 2 52 := by
      simp only [Nat.pow_eq]
      omega
    rw [ofBits_fields negative (by omega) hfraction, if_neg (by omega), if_neg (by omega)]
    simp only [Nat.pow_eq]
    congr 2 <;> omega

theorem ofBits_toBits_infinite (negative : Bool) : ofBits (toBits (.infinite negative)) = .infinite negative := by
  cases negative <;> decide

/-- The number has the width and the least exponent of a double. -/
def Rounded : UnpackedFloat → Prop
  | .finite _ m e _ => m < 2 ^ 53 ∧ -1074 ≤ e ∧ (e = -1074 ∨ 2 ^ 52 ≤ m)
  | _ => True

theorem packComponents_eq_toBits (s : Sign) (d : Scaled) (e : BitVec Format.binary64.exponentBits)
    (m : BitVec Format.binary64.mantissaBitsWithoutImplicit)
    (h : magnitudeBits d = e.toNat * 2 ^ 52 + m.toNat) :
    (packComponents .binary64 s e m).toNat = toBits (.finite (isNegative s) d) := by
  rw [packComponents_toNat, toBits, h]
  cases s <;> simp [isNegative, Sign.toBitVec, Nat.add_assoc]

theorem pack_toNat {u : UnpackedFloat} (h : Rounded u) (hnumber : u ≠ .notANumber) :
    (pack .binary64 u).toNat = toBits (ofUnpacked u) := by
  cases u with
  | notANumber => exact absurd rfl hnumber
  | infinity s => cases s <;> decide
  | zero s => cases s <;> decide
  | finite s m e hm =>
    obtain ⟨hwidth, hleast, hfull⟩ := h
    have hbiased : e + Format.binary64.exponentBias + Format.binary64.mantissaBitsWithoutImplicit = e + 1075 := by
      simp only [Format.exponentBias]
      omega
    simp only [pack, ofUnpacked, hbiased]
    have hover : 2 ^ Format.binary64.exponentBits ≤ (e + 1075).toNat + 1 ↔ 971 < e := by
      simp only
      omega
    have hnormal : m.log2 + 1 = Format.binary64.mantissaBits ↔ 2 ^ 52 ≤ m := by
      have hlog : m.log2 < 53 := (Nat.log2_lt hm.ne').mpr hwidth
      rw [← Nat.le_log2 hm.ne', show Format.binary64.mantissaBits = 53 from rfl]
      omega
    simp only [hover, hnormal]
    split_ifs with h1 h2
    · cases s <;> decide
    · apply packComponents_eq_toBits
      rw [magnitudeBits, if_neg (by simpa using h2)]
      simp only [BitVec.toNat_ofNat, Nat.pow_eq]
      omega
    · apply packComponents_eq_toBits
      rw [magnitudeBits, if_pos (by simpa using h2)]
      simp only [BitVec.toNat_ofNat]
      omega

/-- What a packed number stands for. -/
theorem ofBits_pack {u : UnpackedFloat} (h : Rounded u) : ofBits (pack .binary64 u).toNat = ofUnpacked u := by
  cases u with
  | notANumber => decide
  | infinity s => cases s <;> decide
  | zero s => cases s <;> decide
  | finite s m e hm =>
    rw [pack_toNat h (by simp), ofUnpacked]
    split_ifs with hover
    · exact ofBits_toBits_infinite _
    · exact ofBits_toBits_finite ⟨h.1, h.2.1, not_lt.mp hover, h.2.2⟩

theorem ofFloat_ofModel_pack {u : UnpackedFloat} (h : Rounded u) : ofFloat (.ofModel (.pack u)) = ofUnpacked u :=
  ofBits_pack h

theorem rounded_unpack (b : BitVec Format.binary64.numBits) : Rounded (unpack .binary64 b) := by
  have hmantissa : (unpackMantissa b).toNat < 2 ^ 52 := (unpackMantissa b).isLt
  have hbias : (Format.binary64.exponentBias + Format.binary64.mantissaBitsWithoutImplicit : Int) = 1075 := rfl
  simp only [unpack, hbias]
  split_ifs with h1 h2 h3 h4
  · trivial
  · trivial
  · trivial
  · rw [h3]
    exact ⟨by omega, by decide, .inl rfl⟩
  · have hexponent : (unpackExponent b).toNat ≠ 0 := by simpa [← BitVec.toNat_inj] using h3
    have hfull : (1#1 ++ unpackMantissa b).toNat = 2 ^ 52 + (unpackMantissa b).toNat := by
      rw [BitVec.toNat_append, ← Nat.shiftLeft_add_eq_or_of_lt (unpackMantissa b).isLt]
      rfl
    refine ⟨?_, ?_, .inr ?_⟩ <;> omega

/-- Packing undoes unpacking, but for the spellings of not-a-number. -/
theorem pack_unpack_toNat {b : BitVec Format.binary64.numBits} (h : ofBits b.toNat ≠ .undefined) :
    (pack .binary64 (unpack .binary64 b)).toNat = b.toNat := by
  have hnumber : unpack .binary64 b ≠ .notANumber := by
    intro hnan
    rw [ofBits_toNat, hnan] at h
    exact h rfl
  rw [pack_toNat (rounded_unpack b) hnumber, ← ofBits_toNat]
  exact toBits_ofBits b.isLt h

theorem ofBits_toUInt64 {x : Float} (h : ofFloat x ≠ .undefined) : Float.ofBits x.toBits = x := by
  obtain ⟨⟨bits, valid⟩⟩ := x
  have hpack : (pack .binary64 (unpack .binary64 bits.toBitVec)).toNat = bits.toBitVec.toNat := pack_unpack_toNat h
  simp only [Float.ofBits, Float.toBits, Float.Model.ofBits, Float.Model.pack, BitVec.eq_of_toNat_eq hpack]

/-- A number is told by what it stands for. -/
theorem toFloat_ofFloat {x : Float} (h : ofFloat x ≠ .undefined) : (ofFloat x).toFloat = x := by
  have hbits : (ofFloat x).toBits = x.toBits.toNat := toBits_ofBits x.toBits.toNat_lt h
  rw [toFloat, hbits, Nat.toUInt64_eq, UInt64.ofNat_toNat, ofBits_toUInt64 h]

theorem ofFloat_ofBits (b : UInt64) : ofFloat (Float.ofBits b) = ofBits b.toNat := by
  have hpack : ofBits (pack .binary64 (unpack .binary64 b.toBitVec)).toNat = ofUnpacked (unpack .binary64 b.toBitVec) :=
    ofBits_pack (rounded_unpack b.toBitVec)
  exact hpack.trans (ofBits_toNat b.toBitVec).symm

theorem ofFloat_toFloat {r : Double} (hlt : r.toBits < 2 ^ 64) (h : ofBits r.toBits = r) : ofFloat r.toFloat = r := by
  rw [toFloat, ofFloat_ofBits, Nat.toUInt64_eq, UInt64.toNat_ofNat_of_lt' hlt, h]

theorem magnitudeBits_lt {d : Scaled} (h : BinaryFormat.double.Canonical d) : magnitudeBits d < 2 ^ 63 := by
  obtain ⟨hwidth, hleast, hgreatest, -⟩ := h
  simp only [BinaryFormat.double] at hwidth hleast hgreatest
  simp only [magnitudeBits, Nat.pow_eq]
  split_ifs <;> omega

theorem ofFloat_toFloat_finite {negative : Bool} {d : Scaled} (h : BinaryFormat.double.Canonical d) :
    ofFloat (toFloat (.finite negative d)) = .finite negative d := by
  have hlt := magnitudeBits_lt h
  refine ofFloat_toFloat ?_ (ofBits_toBits_finite h)
  cases negative <;> simp only [toBits, Nat.pow_eq, Bool.false_eq_true, if_false, if_true] <;> omega

theorem ofUnpacked_eq_undefined {u : UnpackedFloat} (h : ofUnpacked u = .undefined) : u = .notANumber := by
  cases u with
  | notANumber => rfl
  | infinity s => cases h
  | zero s => cases h
  | finite s m e hm =>
    rw [ofUnpacked] at h
    split_ifs at h

/-- There is only one not-a-number. -/
theorem eq_of_undefined {x y : Float} (hx : ofFloat x = .undefined) (hy : ofFloat y = .undefined) : x = y := by
  have hnan (z : Float) (hz : ofFloat z = .undefined) : z.toModel.toBits.toBitVec = packedNaN .binary64 := by
    have hunpack : unpack .binary64 z.toModel.toBits.toBitVec = .notANumber := by
      rw [ofFloat_eq] at hz
      exact ofUnpacked_eq_undefined hz
    have hpack := pack_unpack_of_valid z.toModel.valid
    rw [hunpack] at hpack
    exact hpack.symm
  have hbits : x.toModel.toBits = y.toModel.toBits := UInt64.toBitVec_inj.mp ((hnan x hx).trans (hnan y hy).symm)
  obtain ⟨⟨a, va⟩⟩ := x
  obtain ⟨⟨b, vb⟩⟩ := y
  cases hbits
  rfl

/-- Every float is told by what it stands for. -/
theorem leftInverse_toFloat : Function.LeftInverse toFloat ofFloat := by
  intro x
  by_cases hx : ofFloat x = .undefined
  · have hundefined : ofFloat (toFloat .undefined) = .undefined := ofFloat_toFloat (by decide) (by decide)
    rw [hx]
    exact eq_of_undefined hundefined hx
  · exact toFloat_ofFloat hx

end Double

end BinFleet.Number
