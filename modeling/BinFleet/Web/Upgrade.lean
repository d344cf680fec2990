import BinFleet.Text.Base64
import BinFleet.Web.Handler

namespace BinFleet.Web.Upgrade

def isTokenChar (c : Char) : Bool := c.isAlphanum || "!#$%&'*+-.^_`|~".toList.contains c

def skipBlanks (cs : List Char) : List Char := cs.dropWhile fun c => c == ' ' || c == '\t'

/-- The tokens of a list divided by commas, up to the first place that is no such list. The fuel is
the length of the text. -/
def tokensWith : Nat → List Char → List String
  | 0, _ => []
  | fuel + 1, cs =>
    let cs := skipBlanks cs
    let token := cs.takeWhile isTokenChar
    let rest := skipBlanks (cs.dropWhile isTokenChar)
    if token.isEmpty then []
    else
      match rest with
      | [] => [String.ofList token]
      | ',' :: rest => String.ofList token :: tokensWith fuel rest
      | _ => []

def tokens (header : String) : List String := tokensWith (header.length + 1) header.toList

/-- The list has a token; letter case does not matter. -/
def lists (header token : String) : Bool := (tokens header).any fun t => t.toLower == token

/-- The key of a handshake is 16 octets. -/
def isKey (s : String) : Bool := (Text.Base64.decodePadded? .standard s.toList).any (·.length == 16)

/-- Why a handshake is refused. -/
structure Refusal where
  status : Int
  message : String
  deriving DecidableEq, Repr

def notUsing (what : String) : String :=
  "websocket: the client is not using the websocket protocol: " ++ what

/-- The first rule of the handshake that a request breaks. -/
def refusal? (r : Request) : Option Refusal :=
  if !lists (r.header "Connection") "upgrade" then
    some ⟨400, notUsing "'upgrade' token not found in 'Connection' header"⟩
  else if !lists (r.header "Upgrade") "websocket" then
    some ⟨400, notUsing "'websocket' token not found in 'Upgrade' header"⟩
  else if r.method ≠ "GET" then some ⟨405, notUsing "request method is not GET"⟩
  else if !lists (r.header "Sec-Websocket-Version") "13" then
    some ⟨400, "websocket: unsupported version: 13 not found in 'Sec-Websocket-Version' header"⟩
  else if !isKey (r.header "Sec-Websocket-Key") then
    some ⟨400, "websocket: not a websocket handshake: 'Sec-WebSocket-Key' header must be Base64 encoded value of 16-byte in length"⟩
  else none

/-- The answer to a refused handshake names the version that is understood. -/
def Refusal.writes (r : Refusal) : List Write :=
  .header "Sec-Websocket-Version" "13" :: plainError r.status (reason r.status)

end BinFleet.Web.Upgrade
