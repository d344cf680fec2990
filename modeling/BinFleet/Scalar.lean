import BinFleet.Number.Whole

namespace BinFleet

/-- The arithmetic of the fill and coordinate rules, which run on doubles and on exact numbers. -/
class Scalar (α : Type) extends Add α, Sub α, Mul α, Div α where
  ofNat : Nat → α
  /-- Toward negative infinity. -/
  floor : α → α
  /-- Toward zero. -/
  trunc : α → α
  /-- To the nearest integer, a half away from zero. -/
  round : α → α
  /-- The remainder of the division toward zero. -/
  remainder : α → α → α
  lesser : α → α → α
  greater : α → α → α
  le : α → α → Bool
  lt : α → α → Bool
  isNumber : α → Bool
  /-- The natural number toward zero; zero for what is not positive. -/
  toNat : α → Nat

namespace Scalar

/-- The sign bit, which tells the two zeros apart. -/
def hasSign (x : Float) : Bool := x.toBits.toNat ≥ Nat.pow 2 63

/-- The lesser of two doubles: negative infinity first, then not-a-number, and the negative
zero below the positive one. -/
def lesserFloat (x y : Float) : Float :=
  if x == -1.0 / 0.0 || y == -1.0 / 0.0 then -1.0 / 0.0
  else if x != x || y != y then 0.0 / 0.0
  else if x == 0.0 && x == y then if hasSign x then x else y
  else if x < y then x else y

/-- The greater of two doubles, with the same rules turned around. -/
def greaterFloat (x y : Float) : Float :=
  if x == 1.0 / 0.0 || y == 1.0 / 0.0 then 1.0 / 0.0
  else if x != x || y != y then 0.0 / 0.0
  else if x == 0.0 && x == y then if hasSign x then y else x
  else if x > y then x else y

instance : Scalar Float where
  ofNat := Float.ofNat
  floor := Number.floor
  trunc := Number.trunc
  round := Number.round
  remainder := Number.remainder
  lesser := lesserFloat
  greater := greaterFloat
  le x y := x <= y
  lt x y := x < y
  isNumber x := x == x
  toNat x := ((Number.Double.ofFloat x).toInt?.getD 0).toNat

end Scalar

end BinFleet
