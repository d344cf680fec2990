import BinFleet.Text.Hex
import BinFleet.Text.Printable
import BinFleet.Text.Utf8

namespace BinFleet.Text.Quoted

def escapeChar (c : Char) : List Char :=
  match c with
  | '"' => ['\\', '"']
  | '\\' => ['\\', '\\']
  | '\x07' => ['\\', 'a']
  | '\x08' => ['\\', 'b']
  | '\x0c' => ['\\', 'f']
  | '\n' => ['\\', 'n']
  | '\r' => ['\\', 'r']
  | '\t' => ['\\', 't']
  | '\x0b' => ['\\', 'v']
  | c =>
    if isPrintable c then [c]
    else if c.toNat < 0x20 ∨ c.toNat = 0x7f then '\\' :: 'x' :: Hex.digits 2 c.toNat
    else if c.toNat < 0x10000 then '\\' :: 'u' :: Hex.digits 4 c.toNat
    else '\\' :: 'U' :: Hex.digits 8 c.toNat

/-- An octet that belongs to no character is written in hexadecimal. -/
def escapeSymbol : Utf8.Symbol → List Char
  | .char c => escapeChar c
  | .stray octet => '\\' :: 'x' :: Hex.digits 2 octet.toNat

def encodeOctets (bytes : List UInt8) : String :=
  String.ofList ('"' :: ((Utf8.symbols bytes).flatMap escapeSymbol ++ ['"']))

def encode (s : String) : String :=
  String.ofList ('"' :: (s.toList.flatMap escapeChar ++ ['"']))

end BinFleet.Text.Quoted
