import BinFleet.Number.Binary

namespace BinFleet.Number

/-- The number `coefficient * 10 ^ exponent`. -/
structure Decimal where
  coefficient : Nat
  exponent : Int
  deriving DecidableEq, Repr

namespace Decimal

def num (d : Decimal) : Nat := d.coefficient * Nat.pow 10 d.exponent.toNat

def den (d : Decimal) : Nat := Nat.pow 10 (-d.exponent).toNat

/-- Every digit of a binary number. -/
def exact (b : Scaled) : Decimal :=
  if 0 ≤ b.exponent then ⟨b.num, 0⟩
  else ⟨b.significand * Nat.pow 5 (-b.exponent).toNat, b.exponent⟩

/-- The number is the nearest one of the double format to this decimal. -/
def readsBack (b : Scaled) (d : Decimal) : Bool :=
  BinaryFormat.double.round d.num d.den == some b

/-- The ratio `b / 10 ^ e`. -/
def gridRatio (b : Scaled) (e : Int) : Nat × Nat :=
  (b.num * Nat.pow 10 (-e).toNat, b.den * Nat.pow 10 e.toNat)

/-- The two points of the grid `10 ^ e` beside a number, the nearer one first. -/
def neighbours (b : Scaled) (e : Int) : List Decimal :=
  let (n, d) := gridRatio b e
  let near := roundDiv n d
  [⟨near, e⟩, ⟨if near = n / d then near + 1 else near - 1, e⟩]

/-- An exponent of ten above the leading digit, by at most three. -/
def ceiling (b : Scaled) : Int :=
  ((Nat.log2 b.num : Int) - Nat.log2 b.den + 1) * 30103 / 100000 + 2

/-- The grids on which a double can have its shortest digits, coarsest first. -/
def grids (b : Scaled) : List Int := (List.range 24).map fun (i : Nat) => ceiling b - (i : Int)

/-- The fewest digits that read back, and of these the nearest. -/
def shortest (b : Scaled) : Decimal :=
  ((grids b).findSome? fun e => (neighbours b e).find? (readsBack b)).getD (exact b)

/-- Rounded to `count` significant digits, a half to the even neighbour. -/
def significant (b : Scaled) (count : Nat) : Decimal :=
  match (grids b).find? fun e =>
      let (n, d) := gridRatio b e
      Nat.pow 10 (count - 1) ≤ n / d with
  | some e =>
    let (n, d) := gridRatio b e
    ⟨roundDiv n d, e⟩
  | none => exact b

/-- Rounded to `places` places after the point, a half to the even neighbour. -/
def fixed (b : Scaled) (places : Nat) : Decimal :=
  ⟨roundDiv (b.num * Nat.pow 10 places) b.den, -(places : Int)⟩

end Decimal

end BinFleet.Number
