import BinFleet.Json.Basic
import BinFleet.Text.Hex
import BinFleet.Text.Utf8

namespace BinFleet.Json

/-- Which characters are escaped beyond those that must be. -/
inductive Escaping where
  | web
  | plain
  deriving DecidableEq, Repr

def unicodeEscape (c : Char) : List Char := '\\' :: 'u' :: Text.Hex.digits 4 c.toNat

/-- Escapes what JSON requires and the two line separators, and for pages also what means something in HTML. -/
def escapeChar (e : Escaping) (c : Char) : List Char :=
  match c with
  | '"' => ['\\', '"']
  | '\\' => ['\\', '\\']
  | '\x08' => ['\\', 'b']
  | '\x0c' => ['\\', 'f']
  | '\n' => ['\\', 'n']
  | '\r' => ['\\', 'r']
  | '\t' => ['\\', 't']
  | c =>
    if c.toNat < 0x20 ∨ c = '\u2028' ∨ c = '\u2029' then unicodeEscape c
    else if e = .web ∧ (c = '<' ∨ c = '>' ∨ c = '&') then unicodeEscape c
    else [c]

def escape (e : Escaping) (s : String) : String :=
  String.ofList (s.toList.flatMap (escapeChar e))

/-- The character that a one-letter escape stands for. -/
def unescapeLetter : Char → Char
  | 'b' => '\x08'
  | 'f' => '\x0c'
  | 'n' => '\n'
  | 'r' => '\r'
  | 't' => '\t'
  | c => c

/-- A piece of a string body: a character as it is, or a 16-bit unit. -/
inductive Piece where
  | char (c : Char)
  | code (n : Nat)
  deriving DecidableEq, Repr

def hexCode (a b c d : Char) : Nat :=
  [a, b, c, d].foldl (fun n x => n * 16 + (Text.Hex.value? x).getD 0) 0

/-- Pieces of a string body, after those already found (last one first). -/
def piecesInto (found : List Piece) : List Char → List Piece
  | '\\' :: 'u' :: a :: b :: c :: d :: rest => piecesInto (.code (hexCode a b c d) :: found) rest
  | '\\' :: c :: rest => piecesInto (.char (unescapeLetter c) :: found) rest
  | c :: rest => piecesInto (.char c :: found) rest
  | [] => found.reverse

def isHighHalf (n : Nat) : Bool := 0xD800 ≤ n && n < 0xDC00

def isLowHalf (n : Nat) : Bool := 0xDC00 ≤ n && n < 0xE000

def ofHalves (high low : Nat) : Char :=
  Char.ofNat (0x10000 + (high - 0xD800) * 0x400 + (low - 0xDC00))

def ofCode (n : Nat) : Char :=
  if isHighHalf n || isLowHalf n then Text.Utf8.replacement else Char.ofNat n

/-- The characters of the pieces, after those already found (last one first). -/
def joinInto (found : List Char) : List Piece → List Char
  | .code high :: .code low :: rest =>
    if isHighHalf high && isLowHalf low then joinInto (ofHalves high low :: found) rest
    else joinInto (ofCode high :: found) (.code low :: rest)
  | .code n :: rest => joinInto (ofCode n :: found) rest
  | .char c :: rest => joinInto (c :: found) rest
  | [] => found.reverse

/-- Surrogate pairs are joined; half a pair alone is read as U+FFFD. -/
def unescapeChars (body : List Char) : List Char := joinInto [] (piecesInto [] body)

/-- The text that a string body stands for. -/
def unescape (body : String) : String := String.ofList (unescapeChars body.toList)

def ofText (s : String) : Json := .string (escape .web s)

def ofPlainText (s : String) : Json := .string (escape .plain s)

def ofNat (n : Nat) : Json := .number (toString n)

def ofInt (n : Int) : Json := .number (toString n)

def text? : Json → Option String
  | .string body => some (unescape body)
  | _ => none

end BinFleet.Json
