import BinFleet.Text.Hex
import BinFleet.Text.Utf8

namespace BinFleet

/-- Sixteen octets, written as five groups of hexadecimal digits. -/
structure Uuid where
  bytes : List UInt8
  length_eq : bytes.length = 16 := by decide
  deriving DecidableEq, Repr

namespace Uuid

def zero : Uuid := ⟨List.replicate 16 0, rfl⟩

def isZero (u : Uuid) : Bool := u == zero

inductive Error where
  | invalidFormat
  /-- The source of random octets ran dry, after at least one octet or at once. -/
  | noRandomness (started : Bool)
  deriving DecidableEq, Repr

def Error.message : Error → String
  | .invalidFormat => "invalid uuid format"
  | .noRandomness true => "unexpected EOF"
  | .noRandomness false => "EOF"

/-- The first sixteen octets, filled up with zeros. -/
def ofLeading (bs : List UInt8) : Uuid :=
  ⟨(bs ++ List.replicate 16 0).take 16, by simp⟩

def renderChars (u : Uuid) : List Char :=
  let group := fun (start count : Nat) => Text.Hex.ofBytes ((u.bytes.drop start).take count)
  group 0 4 ++ '-' :: (group 4 2 ++ '-' :: (group 6 2 ++ '-' :: (group 8 2 ++ '-' :: group 10 6)))

def render (u : Uuid) : String := String.ofList u.renderChars

def hex (u : Uuid) : String := String.ofList (Text.Hex.ofBytes u.bytes)

/-- Octets as the characters with these codes. -/
def letters (text : Octets) : List Char := text.map fun b => Char.ofNat b.toNat

/-- Thirty-six octets with dashes after the first four groups; dashes elsewhere are
skipped, and the octets they leave out at the end are zero. A text that is refused gives zero. -/
def parseOctets (text : Octets) : Uuid × Option Error :=
  if text.length = 36 ∧ text[8]? = some 0x2d ∧ text[13]? = some 0x2d ∧ text[18]? = some 0x2d ∧
      text[23]? = some 0x2d then
    match Text.Hex.toBytes? (letters (text.filter (· != 0x2d))) with
    | some bs => (ofLeading bs, none)
    | none => (zero, some .invalidFormat)
  else (zero, some .invalidFormat)

/-- Reading into a variable: a text that is refused leaves it as it was. -/
def readInto (old : Uuid) (text : Octets) : Uuid × Option Error :=
  match parseOctets text with
  | (u, none) => (u, none)
  | (_, some e) => (old, some e)

def parse (s : String) : Uuid × Option Error := parseOctets (Text.Utf8.ofString s)

def parseInto (old : Uuid) (s : String) : Uuid × Option Error := readInto old (Text.Utf8.ofString s)

theorem length_stamped {bs : List UInt8} (h : 16 ≤ bs.length) (f g : UInt8 → UInt8) :
    (((bs.take 16).modify 6 f).modify 8 g).length = 16 := by
  simp only [List.length_modify, List.length_take]
  omega

/-- Version 4: the octet at the start of the third group begins with 4, the next group with
the bits 10; all other bits are taken from the random octets. -/
def ofRandom (bs : List UInt8) : Except Error Uuid :=
  if h : 16 ≤ bs.length then
    .ok ⟨((bs.take 16).modify 6 fun b => (b &&& 0x0f) ||| 0x40).modify 8
      fun b => (b &&& 0x3f) ||| 0x80, length_stamped h _ _⟩
  else .error (.noRandomness (!bs.isEmpty))

/-- A new identifier from a source of random octets; when that runs dry, zero and the reason. -/
def generate (bs : List UInt8) : Uuid × Option Error :=
  match ofRandom bs with
  | .ok u => (u, none)
  | .error e => (zero, some e)

end Uuid

end BinFleet
