import BinFleet.Number.Binary

namespace BinFleet.Number

namespace Scaled

def whole (d : Scaled) : Nat := d.num / d.den

def isWhole (d : Scaled) : Bool := d.num % d.den == 0

end Scaled

namespace Double

/-- Toward zero; a result of zero keeps the sign. -/
def trunc : Double → Double
  | .finite negative d => ofRatio negative d.whole 1
  | r => r

/-- Toward negative infinity. -/
def floor : Double → Double
  | .finite negative d =>
    ofRatio negative (if negative && !d.isWhole then d.whole + 1 else d.whole) 1
  | r => r

/-- To the nearest integer, a half away from zero. -/
def round : Double → Double
  | .finite negative d => ofRatio negative ((2 * d.num + d.den) / (2 * d.den)) 1
  | r => r

/-- The remainder of the division toward zero: it has the sign of the dividend. -/
def remainder : Double → Double → Double
  | .finite negative x, .finite _ y =>
    if y.significand = 0 then .undefined
    else ofRatio negative ((x.num * y.den) % (y.num * x.den)) (x.den * y.den)
  | .finite negative x, .infinite _ => .finite negative x
  | _, _ => .undefined

/-- The integer toward zero of a finite number. -/
def toInt? : Double → Option Int
  | .finite negative d => some (if negative then -(d.whole : Int) else d.whole)
  | _ => none

end Double

def floor (x : Float) : Float := (Double.ofFloat x).floor.toFloat

def trunc (x : Float) : Float := (Double.ofFloat x).trunc.toFloat

def round (x : Float) : Float := (Double.ofFloat x).round.toFloat

def remainder (x y : Float) : Float := ((Double.ofFloat x).remainder (Double.ofFloat y)).toFloat

end BinFleet.Number
