import BinFleet.Number.Literal

namespace BinFleet.Number.Integer

/-- Digits of a number up to `greatest`; the first digit too many or the first character that
is no digit decides about the error. -/
def digits (greatest : Nat) (cs : List Char) : Except LiteralError Nat :=
  if cs.isEmpty then .error .malformed
  else
    cs.foldlM
      (fun n c =>
        match Literal.decimalDigit? c with
        | none => .error .malformed
        | some d => if greatest < n * 10 + d then .error .outOfRange else .ok (n * 10 + d))
      0

/-- Without a sign. -/
def readUnsigned (bits : Nat) (s : String) : Except LiteralError Nat :=
  digits (Nat.pow 2 bits - 1) s.toList

def negative (s : String) : Bool := s.toList.head? == some '-'

def unsignedPart (s : String) : List Char :=
  match s.toList with
  | '+' :: r => r
  | '-' :: r => r
  | r => r

/-- With an optional sign. -/
def readSigned (bits : Nat) (s : String) : Except LiteralError Int :=
  match digits (Nat.pow 2 bits - 1) (unsignedPart s) with
  | .error e => .error e
  | .ok n =>
    if negative s then if Nat.pow 2 (bits - 1) < n then .error .outOfRange else .ok (-(n : Int))
    else if Nat.pow 2 (bits - 1) ≤ n then .error .outOfRange
    else .ok n

/-- As `readSigned`, with the nearest number for one out of range and zero for no number. -/
def readClamped (bits : Nat) (s : String) : Int :=
  match readSigned bits s with
  | .ok n => n
  | .error .malformed => 0
  | .error .outOfRange => if negative s then -(Int.pow 2 (bits - 1)) else Int.pow 2 (bits - 1) - 1

end BinFleet.Number.Integer
