import BinFleet.Number.Whole
import BinFleet.Text.Hex
import BinFleet.Text.Utf8

namespace BinFleet.Time

structure Span where
  nanos : Int
  deriving DecidableEq, Repr, Inhabited

namespace Span

def nanosecond : Nat := 1
def microsecond : Nat := 1000
def millisecond : Nat := 1000000
def second : Nat := 1000000000
def minute : Nat := 60 * second
def hour : Nat := 60 * minute

/-- The greatest number of nanoseconds that may be added up. -/
def limit : Nat := Nat.pow 2 63

/-- Digits after the point without trailing zeros, for a part below `10 ^ width`. -/
def fraction (width part : Nat) : List Char :=
  let ds := Nat.toDigits 10 part
  let all := List.replicate (width - ds.length) '0' ++ ds
  let kept := (all.reverse.dropWhile (· == '0')).reverse
  if kept.isEmpty then [] else '.' :: kept

def renderMagnitude (n : Nat) : List Char :=
  if n = 0 then ['0', 's']
  else if n < microsecond then Nat.toDigits 10 n ++ ['n', 's']
  else if n < millisecond then
    Nat.toDigits 10 (n / microsecond) ++ fraction 3 (n % microsecond) ++ ['µ', 's']
  else if n < second then
    Nat.toDigits 10 (n / millisecond) ++ fraction 6 (n % millisecond) ++ ['m', 's']
  else
    let seconds := n / second
    let tail := Nat.toDigits 10 (seconds % 60) ++ fraction 9 (n % second) ++ ['s']
    if seconds < 60 then tail
    else
      let minutes := seconds / 60
      let tail := Nat.toDigits 10 (minutes % 60) ++ 'm' :: tail
      if minutes < 60 then tail else Nat.toDigits 10 (minutes / 60) ++ 'h' :: tail

/-- For instance `1h0m0s`, `1.5s`, `2µs`, `0s`. -/
def render (s : Span) : String :=
  String.ofList ((if s.nanos < 0 then ['-'] else []) ++ renderMagnitude s.nanos.natAbs)

inductive Error where
  | invalid
  | missingUnit
  | unknownUnit (unit : Octets)
  deriving DecidableEq, Repr

/-- Quoted with octets above ASCII and control characters in hexadecimal. -/
def quoteOctet (b : UInt8) : List Char :=
  if b ≥ 0x80 ∨ b < 0x20 then '\\' :: 'x' :: Text.Hex.ofByte b
  else if b = 0x22 ∨ b = 0x5c then ['\\', Char.ofNat b.toNat]
  else [Char.ofNat b.toNat]

def quote (bytes : Octets) : String := String.ofList ('"' :: (bytes.flatMap quoteOctet ++ ['"']))

def Error.message (whole : Octets) : Error → String
  | .invalid => "time: invalid duration " ++ quote whole
  | .missingUnit => "time: missing unit in duration " ++ quote whole
  | .unknownUnit unit => "time: unknown unit " ++ quote unit ++ " in duration " ++ quote whole

def units : List (String × Nat) :=
  [("ns", nanosecond), ("us", microsecond), ("µs", microsecond), ("μs", microsecond),
    ("ms", millisecond), ("s", second), ("m", minute), ("h", hour)]

def unit? (name : Octets) : Option Nat :=
  (units.find? fun (n, _) => Text.Utf8.ofString n == name).map (·.2)

def isPoint (b : UInt8) : Bool := b == 0x2e

def isDigit (b : UInt8) : Bool := 0x30 ≤ b && b ≤ 0x39

def digitValue (b : UInt8) : Nat := b.toNat - 0x30

/-- The digits before the point, refused above the limit. -/
def whole? (ds : Octets) : Option Nat :=
  ds.foldlM
    (fun n c =>
      if limit / 10 < n then none
      else
        let n' := n * 10 + digitValue c
        if limit < n' then none else some n')
    0

/-- Digits after the point with their power of ten; digits that no longer fit are dropped. -/
structure Fraction where
  value : Nat := 0
  places : Nat := 0
  full : Bool := false

def fractionDigits (ds : Octets) : Fraction :=
  ds.foldl
    (fun f c =>
      if f.full then f
      else if (limit - 1) / 10 < f.value then { f with full := true }
      else
        let v := f.value * 10 + digitValue c
        if limit < v then { f with full := true } else { f with value := v, places := f.places + 1 })
    {}

/-- A fraction of a unit in nanoseconds, computed with doubles and cut to an integer. -/
def fractionOf (f : Fraction) (unit : Nat) : Nat :=
  if f.value = 0 then 0
  else
    let nanos := Float.ofNat f.value * (Float.ofNat unit / Float.ofNat (Nat.pow 10 f.places))
    ((Number.Double.ofFloat nanos).toInt?.getD 0).toNat

/-- One number with its unit at the front: its nanoseconds and what follows. -/
def component (cs : Octets) : Except Error (Nat × Octets) :=
  let pre := cs.takeWhile isDigit
  let rest := cs.dropWhile isDigit
  let (post, rest) : Octets × Octets :=
    match rest with
    | c :: r => if isPoint c then (r.takeWhile isDigit, r.dropWhile isDigit) else ([], rest)
    | [] => ([], [])
  match whole? pre with
  | none => .error .invalid
  | some v =>
    if pre.isEmpty && post.isEmpty then .error .invalid
    else
      let name := rest.takeWhile fun c => !(isPoint c || isDigit c)
      let rest := rest.dropWhile fun c => !(isPoint c || isDigit c)
      if name.isEmpty then .error .missingUnit
      else
        match unit? name with
        | none => .error (.unknownUnit name)
        | some unit =>
          if limit / unit < v then .error .invalid
          else
            let n := v * unit + fractionOf (fractionDigits post) unit
            if limit < n then .error .invalid else .ok (n, rest)

/-- The sum of the components; `fuel` bounds their number. -/
def components : Nat → Nat → Octets → Except Error Nat
  | _, total, [] => .ok total
  | 0, _, _ => .error .invalid
  | fuel + 1, total, cs =>
    match component cs with
    | .error e => .error e
    | .ok (n, rest) =>
      if limit < total + n then .error .invalid else components fuel (total + n) rest

/-- A sign and what follows it. -/
def splitSign : Octets → Bool × Octets
  | 0x2d :: rest => (true, rest)
  | 0x2b :: rest => (false, rest)
  | rest => (false, rest)

/-- Reads octets such as `90s`, `-1.5h`, `0`. -/
def parse (text : Octets) : Except Error Span :=
  let (negative, body) := splitSign text
  if body = [0x30] then .ok ⟨0⟩
  else if body.isEmpty then .error .invalid
  else
    match components body.length 0 body with
    | .error e => .error e
    | .ok n =>
      if negative then .ok ⟨-(n : Int)⟩ else if limit ≤ n then .error .invalid else .ok ⟨n⟩

end Span

end BinFleet.Time
