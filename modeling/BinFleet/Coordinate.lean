import BinFleet.Scalar

namespace BinFleet

/-- A position in decimal degrees. -/
structure Position where
  lat : Float
  lng : Float
  deriving Inhabited

namespace Coordinate

open Scalar

variable {α : Type} [Scalar α]

/-- Whole degrees rounded down, and the remainder as minutes of `minutesScale`. -/
def decodeWith (value scale minutesScale : α) : α :=
  floor (value / (ofNat 100 * scale)) +
    remainder value (ofNat 100 * scale) / (ofNat 60 * minutesScale)

def decode (value scale : α) : α := decodeWith value scale scale

/-- The scaled integer that a position sensor reports for these degrees. -/
def encode (degrees scale : α) : α :=
  let whole := floor degrees
  round ((whole * ofNat 100 + (degrees - whole) * ofNat 60) * scale)

end Coordinate

end BinFleet
