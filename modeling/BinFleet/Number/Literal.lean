import BinFleet.Number.Binary

namespace BinFleet.Number

/-- The exact value that a literal names. -/
inductive Literal where
  | decimal (negative : Bool) (digits : Nat) (exponent : Int)
  | binary (negative : Bool) (digits : Nat) (exponent : Int)
  | infinite (negative : Bool)
  | undefined
  deriving DecidableEq, Repr

inductive LiteralError where
  | malformed
  | outOfRange
  deriving DecidableEq, Repr

namespace LiteralError

def message : LiteralError → String
  | malformed => "invalid syntax"
  | outOfRange => "value out of range"

end LiteralError

namespace Literal

def decimalDigit? (c : Char) : Option Nat :=
  if '0' ≤ c ∧ c ≤ '9' then some (c.toNat - '0'.toNat) else none

def hexDigit? (c : Char) : Option Nat :=
  if '0' ≤ c ∧ c ≤ '9' then some (c.toNat - '0'.toNat)
  else if 'a' ≤ c ∧ c ≤ 'f' then some (c.toNat - 'a'.toNat + 10)
  else if 'A' ≤ c ∧ c ≤ 'F' then some (c.toNat - 'A'.toNat + 10)
  else none

/-- Digits read so far, with how many of them stand after the point. -/
structure Mantissa where
  value : Nat := 0
  digits : Nat := 0
  fraction : Nat := 0
  pointed : Bool := false
  deriving DecidableEq, Repr

/-- Reads digits, at most one point and underscores; stops at anything else. -/
def mantissa (digit? : Char → Option Nat) (base : Nat) :
    Mantissa → List Char → Mantissa × List Char
  | m, [] => (m, [])
  | m, c :: rest =>
    if c = '_' then mantissa digit? base m rest
    else if c = '.' then
      if m.pointed then (m, c :: rest)
      else mantissa digit? base { m with pointed := true } rest
    else
      match digit? c with
      | some d =>
        mantissa digit? base
          { m with value := m.value * base + d, digits := m.digits + 1
                   fraction := if m.pointed then m.fraction + 1 else m.fraction } rest
      | none => (m, c :: rest)

/-- Digits of an exponent, underscores left out; the value stops growing above 10000. -/
def exponentDigits : Nat → List Char → Nat × List Char
  | e, [] => (e, [])
  | e, c :: rest =>
    if c = '_' then exponentDigits e rest
    else
      match decimalDigit? c with
      | some d => exponentDigits (if e < 10000 then e * 10 + d else e) rest
      | none => (e, c :: rest)

/-- A signed exponent that fills the rest of the text and starts with a digit. -/
def exponent? (cs : List Char) : Option Int :=
  let (negative, ds) : Bool × List Char :=
    match cs with
    | '+' :: r => (false, r)
    | '-' :: r => (true, r)
    | r => (false, r)
  match ds with
  | [] => none
  | c :: _ =>
    if (decimalDigit? c).isNone then none
    else
      match exponentDigits 0 ds with
      | (e, []) => some (if negative then -(e : Int) else e)
      | _ => none

/-- What the last character was when the underscores of a literal are checked. -/
inductive Seen where
  | digit
  | underscore
  | other
  deriving DecidableEq, Repr

/-- An underscore stands only between digits, a base mark counting as a digit. -/
def underscoresFrom (hex : Bool) : Seen → List Char → Bool
  | seen, [] => seen != .underscore
  | seen, c :: rest =>
    if (if hex then hexDigit? c else decimalDigit? c).isSome then underscoresFrom hex .digit rest
    else if c = '_' then seen == .digit && underscoresFrom hex .underscore rest
    else seen != .underscore && underscoresFrom hex .other rest

def underscoresOk (unsigned : List Char) : Bool :=
  match unsigned with
  | '0' :: c :: rest =>
    if c = 'x' ∨ c = 'X' then underscoresFrom true .digit rest
    else if c ∈ ['b', 'B', 'o', 'O'] then underscoresFrom false .digit rest
    else underscoresFrom false .other unsigned
  | _ => underscoresFrom false .other unsigned

def decimal? (negative : Bool) (cs : List Char) : Option Literal :=
  let (m, rest) := mantissa decimalDigit? 10 {} cs
  if m.digits = 0 then none
  else
    match rest with
    | [] => some (.decimal negative m.value (-(m.fraction : Int)))
    | c :: r =>
      if c = 'e' ∨ c = 'E' then
        (exponent? r).map fun e => .decimal negative m.value (e - m.fraction)
      else none

/-- After the mark `0x`; the binary exponent is required. -/
def hexadecimal? (negative : Bool) (cs : List Char) : Option Literal :=
  let (m, rest) := mantissa hexDigit? 16 {} cs
  if m.digits = 0 then none
  else
    match rest with
    | c :: r =>
      if c = 'p' ∨ c = 'P' then
        (exponent? r).map fun e => .binary negative m.value (e - 4 * m.fraction)
      else none
    | [] => none

def unsigned? (negative : Bool) (cs : List Char) : Option Literal :=
  match cs with
  | '0' :: x :: c :: rest =>
    if x = 'x' ∨ x = 'X' then hexadecimal? negative (c :: rest) else decimal? negative cs
  | _ => decimal? negative cs

def word (cs : List Char) : String := String.ofList (cs.map Char.toLower)

/-- The literal that a whole text is. -/
def parse? (cs : List Char) : Option Literal :=
  let (signed, negative, body) : Bool × Bool × List Char :=
    match cs with
    | '+' :: r => (true, false, r)
    | '-' :: r => (true, true, r)
    | r => (false, false, r)
  let w := word body
  if w = "inf" ∨ w = "infinity" then some (.infinite negative)
  else if w = "nan" then if signed then none else some .undefined
  else if body.contains '_' && !underscoresOk body then none
  else unsigned? negative body

/-- The number of decimal digits of a positive number, or one more. -/
def digitBound (n : Nat) : Nat := Nat.log2 n * 30103 / 100000 + 1

/-- The value rounded to a format; a decimal far outside every format is settled by its
size, before any power of ten is formed. -/
def round (f : BinaryFormat) : Literal → Except LiteralError Double
  | .infinite negative => .ok (.infinite negative)
  | .undefined => .ok .undefined
  | .decimal negative digits e =>
    if digits = 0 then .ok (.finite negative ⟨0, f.least⟩)
    else if (400 : Int) < digitBound digits + e then .error .outOfRange
    else if (digitBound digits : Int) + e < -400 then .ok (.finite negative ⟨0, f.least⟩)
    else
      match f.round (digits * Nat.pow 10 e.toNat) (Nat.pow 10 (-e).toNat) with
      | some d => .ok (.finite negative d)
      | none => .error .outOfRange
  | .binary negative digits e =>
    if digits = 0 then .ok (.finite negative ⟨0, f.least⟩)
    else if (2000 : Int) < Nat.log2 digits + e then .error .outOfRange
    else if (Nat.log2 digits : Int) + e < -2000 then .ok (.finite negative ⟨0, f.least⟩)
    else
      match f.round (digits * Nat.pow 2 e.toNat) (Nat.pow 2 (-e).toNat) with
      | some d => .ok (.finite negative d)
      | none => .error .outOfRange

def negative : Literal → Bool
  | .decimal n _ _ => n
  | .binary n _ _ => n
  | .infinite n => n
  | .undefined => false

end Literal

/-- The number of format `f` that a text names. -/
def readAs (f : BinaryFormat) (s : String) : Except LiteralError Double :=
  match Literal.parse? s.toList with
  | none => .error .malformed
  | some l => l.round f

def read (s : String) : Except LiteralError Float :=
  (readAs .double s).map Double.toFloat

/-- A single-precision number, widened. -/
def readSingle (s : String) : Except LiteralError Float :=
  (readAs .single s).map fun
    | .finite negative d => (Double.ofRatio negative d.num d.den).toFloat
    | r => r.toFloat

/-- As `read`, with the infinity of its sign for a number out of range. -/
def readSaturating (s : String) : Except LiteralError Float :=
  match Literal.parse? s.toList with
  | none => .error .malformed
  | some l =>
    match l.round .double with
    | .ok r => .ok r.toFloat
    | .error _ => .ok (Double.infinite l.negative).toFloat

end BinFleet.Number
