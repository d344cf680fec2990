import BinFleet.Text.Blank
import BinFleet.Text.Hex
import BinFleet.Text.Utf8

namespace BinFleet.Url

/-- The octets of a percent-encoded text, after those already found (last one first). A percent
sign that starts no pair of hexadecimal digits is an error, which shows what stands there. With
`plusIsBlank` a plus sign stands for a blank. -/
def decodeInto (plusIsBlank : Bool) (found : List UInt8) : List UInt8 → Except (List UInt8) (List UInt8)
  | [] => .ok found.reverse
  | 0x25 :: a :: b :: rest =>
    match Text.Hex.value? (Char.ofNat a.toNat), Text.Hex.value? (Char.ofNat b.toNat) with
    | some high, some low => decodeInto plusIsBlank (UInt8.ofNat (high * 16 + low) :: found) rest
    | _, _ => .error [0x25, a, b]
  | c :: rest =>
    if c = 0x25 then .error (c :: rest)
    else if plusIsBlank && c = 0x2b then decodeInto plusIsBlank (0x20 :: found) rest
    else decodeInto plusIsBlank (c :: found) rest

def decode (bytes : List UInt8) : Except (List UInt8) (List UInt8) := decodeInto false [] bytes

def decodeQuery? (s : String) : Option String :=
  (decodeInto true [] (Text.Utf8.ofString s)).toOption.map Text.Utf8.toString

/-- Letters, digits and `-_.~`. -/
def isUnreserved (b : UInt8) : Bool :=
  (0x30 ≤ b && b ≤ 0x39) || (0x41 ≤ b && b ≤ 0x5a) || (0x61 ≤ b && b ≤ 0x7a) ||
    b == 0x2d || b == 0x5f || b == 0x2e || b == 0x7e

def escapeByte (b : UInt8) : List Char :=
  ['%', Text.Hex.upperDigit (b.toNat / 16), Text.Hex.upperDigit (b.toNat % 16)]

/-- Octets outside a set are percent-encoded. -/
def encodeWith (keep : UInt8 → Bool) (bytes : List UInt8) : List Char :=
  bytes.flatMap fun b => if keep b then [Char.ofNat b.toNat] else escapeByte b

/-- For a value in a query: a blank becomes a plus sign. -/
def encodeQuery (s : String) : String :=
  String.ofList ((Text.Utf8.ofString s).flatMap fun b =>
    if b = 0x20 then ['+'] else if isUnreserved b then [Char.ofNat b.toNat] else escapeByte b)

/-- Octets that a path keeps: besides the unreserved ones `$&+,/:;=@`. -/
def keptInPath (b : UInt8) : Bool :=
  isUnreserved b || [0x24, 0x26, 0x2b, 0x2c, 0x2f, 0x3a, 0x3b, 0x3d, 0x40].contains b

/-- Octets that may stand in a path as it was sent, besides percent signs. -/
def allowedInPath (b : UInt8) : Bool :=
  keptInPath b || [0x21, 0x27, 0x28, 0x29, 0x2a, 0x5b, 0x5d].contains b

/-- The pairs of a query. A pair with a semicolon or a bad percent sign is left out, and
`clean` tells that there was none. -/
structure Query where
  pairs : List (String × String)
  clean : Bool
  deriving DecidableEq, Repr

/-- One pair; `none` when it is bad. -/
def pair? (piece : List Char) : Option (String × String) :=
  if piece.contains ';' then none
  else
    let (key, value) := (Text.cut? '=' piece).getD (piece, [])
    match decodeQuery? (String.ofList key), decodeQuery? (String.ofList value) with
    | some k, some v => some (k, v)
    | _, _ => none

/-- A query has at most this many pieces. -/
def Query.greatestLength : Nat := 10000

/-- The pairs of a text; a text of too many pieces gives none. -/
def Query.parse (s : String) : Query :=
  let pieces := Text.splitList '&' s.toList
  if greatestLength < pieces.length then ⟨[], false⟩
  else
    let pieces := pieces.filter fun p => !p.isEmpty
    ⟨pieces.filterMap pair?, pieces.all fun p => (pair? p).isSome⟩

/-- The first value of a key, empty when there is none. -/
def Query.get (q : Query) (key : String) : String :=
  ((q.pairs.find? (·.1 == key)).map (·.2)).getD ""

end BinFleet.Url
