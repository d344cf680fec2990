import BinFleet.Text.Quoted
import BinFleet.Url

namespace BinFleet.Web

structure Target where
  /-- As it was sent. -/
  text : String
  /-- With its percent signs resolved. -/
  path : List UInt8
  /-- As it was sent, or encoded anew when it was not encoded as it should be. -/
  encodedPath : String
  query : String
  deriving DecidableEq, Repr

/-- Why a target cannot be read. -/
inductive TargetError where
  | empty
  | controlCharacter
  | missingScheme
  /-- Neither a path nor an address with a scheme. -/
  | noPath
  | userinfo
  | port (text : String)
  | escape (text : List UInt8)
  /-- Behind a blank, a request names its version. -/
  | version (text : String)
  deriving DecidableEq, Repr

def TargetError.message : TargetError → String
  | empty => "empty url"
  | controlCharacter => "net/url: invalid control character in URL"
  | missingScheme => "missing protocol scheme"
  | noPath => "invalid URI for request"
  | userinfo => "net/url: invalid userinfo"
  | port text => "invalid port " ++ Text.Quoted.encode text ++ " after host"
  | escape text => "invalid URL escape " ++ Text.Quoted.encodeOctets text
  | version text => "malformed HTTP version " ++ Text.Quoted.encode text

/-- The message about a target. -/
def TargetError.messageFor (target : String) : TargetError → String
  | version text => (version text).message
  | e => "parse " ++ Text.Quoted.encode target ++ ": " ++ e.message

namespace Target

def isSchemeChar (c : Char) : Bool := c.isAlphanum || c == '+' || c == '-' || c == '.'

/-- The target behind a scheme and its colon, and whether there is one. -/
def afterScheme (cs : List Char) : Except TargetError (Bool × List Char) :=
  match cs, cs.dropWhile isSchemeChar with
  | ':' :: _, _ => .error .missingScheme
  | c :: _, ':' :: rest => .ok (c.isAlpha, if c.isAlpha then rest else cs)
  | _, _ => .ok (false, cs)

/-- Nothing, or a colon and digits. -/
def isPort : List Char → Bool
  | [] => true
  | c :: rest => c == ':' && rest.all Char.isDigit

def isUserinfoChar (c : Char) : Bool := c.isAlphanum || "-._:~!$&'()*+,;=%@".toList.contains c

/-- A host with a port behind it, after a user's name. -/
def checkAuthority (cs : List Char) : Except TargetError Unit := do
  let host := (cs.reverse.takeWhile (· ≠ '@')).reverse
  let user := cs.take (cs.length - host.length)
  let port :=
    if host.head? = some '[' then (host.reverse.takeWhile (· ≠ ']')).reverse
    else if host.contains ':' then ':' :: (host.reverse.takeWhile (· ≠ ':')).reverse
    else []
  if !isPort port then throw (.port (String.ofList port))
  if !user.all isUserinfoChar then throw .userinfo

/-- Leaves out the host. -/
def afterAuthority (cs : List Char) : Except TargetError (List Char) :=
  match cs with
  | '/' :: '/' :: rest => do
    checkAuthority (rest.takeWhile (· ≠ '/'))
    return rest.dropWhile (· ≠ '/')
  | cs => .ok cs

/-- The path as it is matched: kept when all of it may stand in a path. -/
def encodePath (raw decoded : List UInt8) : String :=
  if raw.all fun b => Url.allowedInPath b || b == 0x25 then Text.Utf8.toString raw
  else String.ofList (Url.encodeWith Url.keptInPath decoded)

def ofPath (text : String) (path query : List Char) : Except TargetError Target :=
  let raw := Text.Utf8.encode path
  match Url.decode raw with
  | .error bad => .error (.escape bad)
  | .ok decoded => .ok ⟨text, decoded, encodePath raw decoded, String.ofList query⟩

/-- Reads a target such as `/path?query` or `http://host/path?query`. An address without slashes
behind its scheme has no path. -/
def read (text : String) : Except TargetError Target := do
  let cs := text.toList
  if cs.contains ' ' then
    throw (.version (String.ofList ((cs.dropWhile (· ≠ ' ')).drop 1) ++ " HTTP/1.0"))
  if cs.any fun c => c.toNat < 0x20 || c.toNat == 0x7f then throw .controlCharacter
  if cs = [] then throw .empty
  if cs = ['*'] then return ⟨text, Text.Utf8.encode cs, text, ""⟩
  let (hasScheme, rest) ← afterScheme cs
  let (rest, query) := (Text.cut? '?' rest).getD (rest, [])
  if rest.head? = some '/' then
    let path ← if hasScheme then afterAuthority rest else pure rest
    ofPath text path query
  else if hasScheme then ofPath text [] query
  else throw .noPath

end Target

end BinFleet.Web
