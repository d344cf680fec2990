import BinFleet.Access.Token
import BinFleet.Web.Target

namespace BinFleet.Web

structure Request where
  method : String
  target : Target
  headers : List (String × String)
  body : List UInt8
  remote : String
  deriving Repr

namespace Request

/-- The path that is asked for, as octets. -/
def path (r : Request) : List UInt8 := r.target.path

/-- The path as far as it can be read. -/
def shownPath (r : Request) : String := Text.Utf8.toString r.path

/-- The path is this one. -/
def isFor (r : Request) (path : String) : Bool := r.path == Text.Utf8.ofString path

/-- The first value of a header, empty when there is none; letter case does not matter. -/
def header (r : Request) (name : String) : String :=
  ((r.headers.find? fun (k, _) => k.toLower == name.toLower).map (·.2)).getD ""

/-- The target of a tunnel may be the name of a host alone. -/
def completeTarget (method text : String) : String :=
  if method = "CONNECT" ∧ text.toList.head? ≠ some '/' then "http://" ++ text else text

def readTarget (method text : String) : Except TargetError Target :=
  (Target.read (completeTarget method text)).map fun t => { t with text }

/-- A request for a target. -/
def ofTarget (method target : String) (headers : List (String × String)) (body : List UInt8)
    (remote : String) : Except TargetError Request := do
  let method := if method = "" then "GET" else method
  return { method, target := ← readTarget method target, headers, body, remote }

end Request

/-- A request on its way through the service: its log context, and who sent it once that is
known. -/
structure Visit where
  request : Request
  log : LogContext := {}
  operator : Option Access.Operator := none

/-- No operator, or one without a name. -/
def Visit.isAnonymous (v : Visit) : Bool := v.operator.all (·.isAnonymous)

end BinFleet.Web
