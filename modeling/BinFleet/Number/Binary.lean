namespace BinFleet.Number

/-- The number `significand * 2 ^ exponent`. -/
structure Scaled where
  significand : Nat
  exponent : Int
  deriving DecidableEq, Repr

/-- Significands below `2 ^ precision`, exponents between the two bounds. -/
structure BinaryFormat where
  precision : Nat
  least : Int
  greatest : Int
  deriving DecidableEq, Repr

namespace BinaryFormat

def double : BinaryFormat := ⟨53, -1074, 971⟩

def single : BinaryFormat := ⟨24, -149, 104⟩

end BinaryFormat

/-- The quotient to the nearest integer, a half to the even one. -/
def roundDiv (num den : Nat) : Nat :=
  let q := num / den
  let r := num % den
  if den < 2 * r ∨ (2 * r = den ∧ q % 2 = 1) then q + 1 else q

namespace Scaled

/-- The value as a ratio of natural numbers. -/
def num (d : Scaled) : Nat := d.significand * Nat.pow 2 d.exponent.toNat

def den (d : Scaled) : Nat := Nat.pow 2 (-d.exponent).toNat

end Scaled

namespace BinaryFormat

/-- The ratio `num / den` in units of `2 ^ e`, as a ratio. -/
def inUnits (num den : Nat) (e : Int) : Nat × Nat :=
  (num * Nat.pow 2 (-e).toNat, den * Nat.pow 2 e.toNat)

/-- The exponent with which `num / den` has a significand of full width, or the least one. -/
def exponentFor (f : BinaryFormat) (num den : Nat) : Int :=
  let e := max f.least ((Nat.log2 num : Int) - Nat.log2 den - f.precision)
  let (n, d) := inUnits num den e
  if Nat.pow 2 f.precision ≤ n / d then e + 1 else e

/-- The number of the format nearest to `num / den`; `none` when that is out of range. -/
def round (f : BinaryFormat) (num den : Nat) : Option Scaled :=
  if num = 0 then some ⟨0, f.least⟩
  else
    let e := f.exponentFor num den
    let (n, d) := inUnits num den e
    let m := roundDiv n d
    let r : Scaled := if m = Nat.pow 2 f.precision then ⟨Nat.pow 2 (f.precision - 1), e + 1⟩ else ⟨m, e⟩
    if f.greatest < r.exponent then none else some r

end BinaryFormat

/-- What a double stands for. -/
inductive Double where
  | finite (negative : Bool) (magnitude : Scaled)
  | infinite (negative : Bool)
  | undefined
  deriving DecidableEq, Repr

namespace Double

def ofBits (bits : Nat) : Double :=
  let negative := decide (Nat.pow 2 63 ≤ bits)
  let field : Nat := bits / Nat.pow 2 52 % 2048
  let fraction : Nat := bits % Nat.pow 2 52
  if field = 2047 then if fraction = 0 then .infinite negative else .undefined
  else if field = 0 then .finite negative ⟨fraction, -1074⟩
  else .finite negative ⟨fraction + Nat.pow 2 52, (field : Int) - 1075⟩

def ofFloat (x : Float) : Double := ofBits x.toBits.toNat

/-- The bits of a number of the double format. -/
def magnitudeBits (d : Scaled) : Nat :=
  if d.significand < Nat.pow 2 52 then d.significand
  else (d.exponent + 1075).toNat * Nat.pow 2 52 + (d.significand - Nat.pow 2 52)

def toBits : Double → Nat
  | .finite negative d => (if negative then Nat.pow 2 63 else 0) + magnitudeBits d
  | .infinite negative => (if negative then Nat.pow 2 63 else 0) + 2047 * Nat.pow 2 52
  | .undefined => 2047 * Nat.pow 2 52 + Nat.pow 2 51 + 1

def toFloat (r : Double) : Float := Float.ofBits r.toBits.toUInt64

/-- The double nearest to `num / den`, an infinity when that is out of range. -/
def ofRatio (negative : Bool) (num den : Nat) : Double :=
  match BinaryFormat.double.round num den with
  | some d => .finite negative d
  | none => .infinite negative

end Double

end BinFleet.Number
