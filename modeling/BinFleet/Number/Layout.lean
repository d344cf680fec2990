import BinFleet.Number.Shortest

namespace BinFleet.Number

/-- Significant digits without trailing zeros; the value is `0.d₁d₂… * 10 ^ point`. -/
structure Digits where
  digits : List Char
  point : Int
  deriving DecidableEq, Repr

namespace Digits

def ofDecimal (d : Decimal) : Digits :=
  let all := Nat.toDigits 10 d.coefficient
  let kept := (all.reverse.dropWhile (· == '0')).reverse
  if kept.isEmpty then ⟨['0'], 1⟩ else ⟨kept, all.length + d.exponent⟩

/-- Without an exponent. -/
def positional (d : Digits) : List Char :=
  if d.point ≤ 0 then '0' :: '.' :: (List.replicate (-d.point).toNat '0' ++ d.digits)
  else
    let k := d.point.toNat
    if d.digits.length ≤ k then d.digits ++ List.replicate (k - d.digits.length) '0'
    else d.digits.take k ++ '.' :: d.digits.drop k

/-- A natural number, padded with zeros to a least width. -/
def padded (width n : Nat) : List Char :=
  let ds := Nat.toDigits 10 n
  List.replicate (width - ds.length) '0' ++ ds

/-- One digit before the point, and an exponent of at least `width` digits. -/
def scientific (width : Nat) (d : Digits) : List Char :=
  let mantissa :=
    match d.digits with
    | c :: [] => [c]
    | c :: rest => c :: '.' :: rest
    | [] => []
  let e := d.point - 1
  mantissa ++ 'e' :: (if e < 0 then '-' else '+') :: padded width e.natAbs

end Digits

/-- A way of writing numbers: exponents are used for a leading digit below the first bound
or from the second one on, with at least `width` digits. -/
structure Layout where
  below : Option Int
  above : Option Int
  width : Nat
  deriving DecidableEq, Repr

namespace Layout

/-- Never an exponent. -/
def plain : Layout := ⟨none, none, 1⟩

/-- As numbers stand in JSON: positional from `1e-6` up to `1e21`. -/
def json : Layout := ⟨some (-6), some 21, 1⟩

/-- For people: positional from `0.0001` up to a million. -/
def compact : Layout := ⟨some (-4), some 6, 2⟩

def magnitude (l : Layout) (d : Digits) : List Char :=
  let e := d.point - 1
  if l.below.any (e < ·) || l.above.any (· ≤ e) then d.scientific l.width else d.positional

/-- The fewest digits that read back, with the words for the other doubles. -/
def render (l : Layout) (x : Double) : List Char :=
  match x with
  | .finite negative b =>
    (if negative then ['-'] else []) ++
      (if b.significand = 0 then ['0'] else l.magnitude (Digits.ofDecimal (Decimal.shortest b)))
  | .infinite negative => (if negative then "-Inf" else "+Inf").toList
  | .undefined => "NaN".toList

def write (l : Layout) (x : Float) : String := String.ofList (l.render (Double.ofFloat x))

end Layout

def isFinite (x : Float) : Bool :=
  match Double.ofFloat x with
  | .finite _ _ => true
  | _ => false

/-- Nine significant digits and an exponent; numbers below `1e-9` count as zero. -/
def approximate (x : Float) : String :=
  match Double.ofFloat x with
  | .finite negative b =>
    if b.num * Nat.pow 10 9 < b.den then "0"
    else
      let d := Decimal.significant b 9
      let all := Nat.toDigits 10 d.coefficient
      let nine := (all ++ List.replicate 9 '0').take 9
      let sign := if negative then ['-'] else []
      String.ofList (sign ++ Digits.scientific 2 ⟨nine, all.length + d.exponent⟩)
  | .infinite negative => if negative then "-Inf" else "+Inf"
  | .undefined => "NaN"

/-- A given number of places after the point; the sign of a zero is kept. -/
def writeFixed (places : Nat) (x : Float) : String :=
  match Double.ofFloat x with
  | .finite negative b =>
    let n := (Decimal.fixed b places).coefficient
    let ds := Digits.padded (places + 1) n
    let k := ds.length - places
    String.ofList ((if negative then ['-'] else []) ++ ds.take k ++ '.' :: ds.drop k)
  | .infinite negative => if negative then "-Inf" else "+Inf"
  | .undefined => "NaN"

end BinFleet.Number
