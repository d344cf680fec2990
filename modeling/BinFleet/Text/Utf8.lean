namespace BinFleet

/-- A text from outside, which need not be well-formed. -/
abbrev Octets := List UInt8

end BinFleet

namespace BinFleet.Text.Utf8

/-- The character that stands for an octet that cannot be read. -/
def replacement : Char := '�'

def encode (cs : List Char) : List UInt8 := cs.flatMap String.utf8EncodeChar

def ofString (s : String) : List UInt8 := encode s.toList

/-- The payload bits of a continuation octet. -/
def tail? (b : UInt8) : Option Nat :=
  if 0x80 ≤ b ∧ b ≤ 0xBF then some (b.toNat - 0x80) else none

/-- The character with this code point, unless it is written with fewer octets or is a surrogate. -/
def checked? (least code : Nat) : Option Char :=
  if least ≤ code ∧ code.isValidChar then some (Char.ofNat code) else none

/-- One well-formed sequence at the front: its character and its length. -/
def sequence? : List UInt8 → Option (Char × Nat)
  | [] => none
  | a :: rest =>
    if a < 0x80 then some (Char.ofNat a.toNat, 1)
    else if 0xC2 ≤ a ∧ a ≤ 0xDF then do
      let b ← tail? (← rest[0]?)
      return (← checked? 0x80 ((a.toNat - 0xC0) * 64 + b), 2)
    else if 0xE0 ≤ a ∧ a ≤ 0xEF then do
      let b ← tail? (← rest[0]?)
      let c ← tail? (← rest[1]?)
      return (← checked? 0x800 (((a.toNat - 0xE0) * 64 + b) * 64 + c), 3)
    else if 0xF0 ≤ a ∧ a ≤ 0xF4 then do
      let b ← tail? (← rest[0]?)
      let c ← tail? (← rest[1]?)
      let d ← tail? (← rest[2]?)
      return (← checked? 0x10000 ((((a.toNat - 0xF0) * 64 + b) * 64 + c) * 64 + d), 4)
    else none

/-- What octets are made of. -/
inductive Symbol where
  | char (c : Char)
  /-- An octet that belongs to no character. -/
  | stray (octet : UInt8)
  deriving DecidableEq, Repr

namespace Symbol

def toChar : Symbol → Char
  | char c => c
  | stray _ => replacement

/-- How many octets it was read from. -/
def length : Symbol → Nat
  | char c => c.utf8Size
  | stray _ => 1

def isStray : Symbol → Bool
  | char _ => false
  | stray _ => true

def octets : Symbol → Octets
  | char c => String.utf8EncodeChar c
  | stray octet => [octet]

end Symbol

/-- The symbols after those already read (last one first); `skip` octets at the front belong to
the character before. -/
def symbolsInto (read : List Symbol) : Nat → List UInt8 → List Symbol
  | _, [] => read.reverse
  | skip + 1, _ :: rest => symbolsInto read skip rest
  | 0, a :: rest =>
    match sequence? (a :: rest) with
    | some (c, n) => symbolsInto (.char c :: read) (n - 1) rest
    | none => symbolsInto (.stray a :: read) 0 rest

def symbols (bytes : List UInt8) : List Symbol := symbolsInto [] 0 bytes

/-- The octets that symbols were read from. -/
def ofSymbols (symbols : List Symbol) : Octets := symbols.flatMap Symbol.octets

/-- An octet that starts no well-formed sequence is read as U+FFFD. -/
def decode (bytes : List UInt8) : List Char := (symbols bytes).map Symbol.toChar

def toString (bytes : List UInt8) : String := String.ofList (decode bytes)

/-- No octet stands alone. -/
def isValid (bytes : List UInt8) : Bool := (symbols bytes).all fun s => !s.isStray

/-- The text that octets are, unless one of them stands alone. -/
def valid? (bytes : List UInt8) : Option String :=
  if isValid bytes then some (toString bytes) else none

/-- How many octets the first `count` characters take. -/
def offset (bytes : List UInt8) (count : Nat) : Nat :=
  (((symbols bytes).take count).map Symbol.length).foldr (· + ·) 0

end BinFleet.Text.Utf8
