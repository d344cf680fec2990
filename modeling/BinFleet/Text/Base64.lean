namespace BinFleet.Text.Base64

inductive Alphabet where
  | standard
  | url
  deriving DecidableEq, Repr

def digit (a : Alphabet) (n : Nat) : Char :=
  if n < 26 then Char.ofNat ('A'.toNat + n)
  else if n < 52 then Char.ofNat ('a'.toNat + (n - 26))
  else if n < 62 then Char.ofNat ('0'.toNat + (n - 52))
  else
    match a with
    | .standard => if n = 62 then '+' else '/'
    | .url => if n = 62 then '-' else '_'

def value? (a : Alphabet) (c : Char) : Option Nat :=
  if 'A' ≤ c ∧ c ≤ 'Z' then some (c.toNat - 'A'.toNat)
  else if 'a' ≤ c ∧ c ≤ 'z' then some (c.toNat - 'a'.toNat + 26)
  else if '0' ≤ c ∧ c ≤ '9' then some (c.toNat - '0'.toNat + 52)
  else
    match a with
    | .standard => if c = '+' then some 62 else if c = '/' then some 63 else none
    | .url => if c = '-' then some 62 else if c = '_' then some 63 else none

/-- Groups of three octets as four digits, without padding. -/
def encode (a : Alphabet) : List UInt8 → List Char
  | x :: y :: z :: rest =>
    let n := (x.toNat * 256 + y.toNat) * 256 + z.toNat
    digit a (n / 262144) :: digit a (n / 4096 % 64) :: digit a (n / 64 % 64) :: digit a (n % 64)
      :: encode a rest
  | [x, y] =>
    let n := (x.toNat * 256 + y.toNat) * 4
    [digit a (n / 4096), digit a (n / 64 % 64), digit a (n % 64)]
  | [x] =>
    let n := x.toNat * 16
    [digit a (n / 64), digit a (n % 64)]
  | [] => []

/-- Groups of four digits as three octets; a last group may have two or three digits. -/
def ofValues? : List Nat → Option (List UInt8)
  | p :: q :: r :: s :: rest => do
    let n := ((p * 64 + q) * 64 + r) * 64 + s
    return UInt8.ofNat (n / 65536) :: UInt8.ofNat (n / 256 % 256) :: UInt8.ofNat (n % 256)
      :: (← ofValues? rest)
  | [p, q, r] =>
    let n := ((p * 64 + q) * 64 + r) / 4
    some [UInt8.ofNat (n / 256), UInt8.ofNat (n % 256)]
  | [p, q] => some [UInt8.ofNat ((p * 64 + q) / 16)]
  | [_] => none
  | [] => some []

def skipBreaks (cs : List Char) : List Char := cs.filter fun c => c != '\n' && c != '\r'

/-- Line breaks are skipped, and the unused low bits of a last group are ignored. -/
def decode? (a : Alphabet) (cs : List Char) : Option (List UInt8) := do
  ofValues? (← (skipBreaks cs).mapM (value? a))

/-- With padding to a multiple of four digits. -/
def decodePadded? (a : Alphabet) (cs : List Char) : Option (List UInt8) :=
  let ds := skipBreaks cs
  let bare := (ds.reverse.dropWhile (· == '=')).reverse
  if ds.length % 4 = 0 ∧ ds.length - bare.length ≤ 2 then do ofValues? (← bare.mapM (value? a))
  else none

end BinFleet.Text.Base64
