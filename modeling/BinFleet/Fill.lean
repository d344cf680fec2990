import BinFleet.Scalar
import BinFleet.Text.Hex

namespace BinFleet

namespace Fill

open Scalar

variable {α : Type} [Scalar α]

/-- The distance clamped to the sensor range, in hundredths of it; zero without a range. -/
def percentage (distance range : α) : α :=
  if le range (ofNat 0) then ofNat 0
  else ofNat 100 * lesser range (greater (ofNat 0) distance) / range

end Fill

/-- A colour; channels beyond `[0, 255]` count as the nearer end. -/
structure Rgb where
  red : Int
  green : Int
  blue : Int
  deriving DecidableEq, Repr

namespace Rgb

def channelHex (v : Int) : List Char := Text.Hex.digits 2 (min 255 v.toNat)

def hexChars (c : Rgb) : List Char :=
  '#' :: (channelHex c.red ++ channelHex c.green ++ channelHex c.blue)

/-- Written as `#rrggbb`. -/
def hex (c : Rgb) : String := String.ofList c.hexChars

end Rgb

namespace Fill

open Scalar

variable {α : Type} [Scalar α]

/-- A channel cut to an integer and clamped to its range. -/
def channel (v : α) : Nat :=
  if isNumber v then toNat (greater (ofNat 0) (lesser (ofNat 255) (trunc v))) else 0

/-- Red to yellow to green: green grows by five a hundredth, red falls once green is full. -/
def color (p : α) : Rgb :=
  let i := ofNat 5 * p
  let red := if lt (ofNat 255) i then ofNat 500 - i else ofNat 255
  ⟨channel red, channel (lesser (ofNat 255) i), 0⟩

end Fill

end BinFleet
