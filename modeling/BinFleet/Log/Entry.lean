import BinFleet.Json.Value
import BinFleet.Log.Context
import BinFleet.Text.Blank
import BinFleet.Text.Case

namespace BinFleet

inductive LogLevel where
  | debug
  | info
  | warn
  | error
  deriving DecidableEq, Repr

namespace LogLevel

def name : LogLevel → String
  | debug => "DEBUG"
  | info => "INFO"
  | warn => "WARN"
  | error => "ERROR"

def rank : LogLevel → Nat
  | debug => 0
  | info => 1
  | warn => 2
  | error => 3

/-- The level that a text names in any letter case, blanks at its ends apart. -/
def parse? (s : String) : Option LogLevel :=
  [debug, info, warn, error].find? fun l => Text.upper (Text.trim s) == l.name

/-- The level of a logger; a text that names none means all lines. -/
def ofText (s : String) : LogLevel := (parse? s).getD debug

end LogLevel

/-- What an attribute holds. -/
inductive LogValue where
  | text (s : String)
  | int (n : Int)
  | float (x : Float)
  | bool (b : Bool)
  | json (j : Json)
  | group (attributes : List (String × LogValue))
  deriving Inhabited

structure LogEntry where
  level : LogLevel
  message : String
  attributes : List (String × LogValue) := []
  context : LogContext := {}

namespace LogValue

/-- A number that JSON cannot hold is replaced by a complaint. -/
def ofFloat (x : Float) : Json :=
  match Json.ofFloat x with
  | .ok j => j
  | .error e => .ofPlainText ("!ERROR:" ++ e.message)

mutual

/-- The fields of an attribute. An empty group, and a null without a key, are left out; outside
of groups the key of the message is taken for the message. -/
def fieldsOf (outermost : Bool) (key : String) : LogValue → List (String × Json)
  | .text s => [(shownKey outermost key, .ofPlainText s)]
  | .int n => [(shownKey outermost key, .ofInt n)]
  | .float x => [(shownKey outermost key, ofFloat x)]
  | .bool b => [(shownKey outermost key, .bool b)]
  | .json .null => if key = "" then [] else [(shownKey outermost key, .null)]
  | .json j => [(shownKey outermost key, j)]
  | .group attributes =>
    match attributeFields (outermost && key == "") attributes with
    | [] => []
    | inner => if key = "" then inner else [(Json.escape .plain key, .object inner)]

def attributeFields (outermost : Bool) : List (String × LogValue) → List (String × Json)
  | [] => []
  | (key, value) :: rest => fieldsOf outermost key value ++ attributeFields outermost rest

def shownKey (outermost : Bool) (key : String) : String :=
  Json.escape .plain (if outermost && key == "msg" then "message" else key)

end

/-- Attributes from a list of keys and values in turn. A value where a key should stand, and a key
without a value, go under a key that says so. -/
def pairUp : List LogValue → List (String × LogValue)
  | [] => []
  | [.text s] => [("!BADKEY", .text s)]
  | .text key :: value :: rest => (key, value) :: pairUp rest
  | value :: rest => ("!BADKEY", value) :: pairUp rest

end LogValue

namespace LogContext

/-- The fields that are set. -/
def attributes (c : LogContext) : List (String × LogValue) :=
  [("action", c.action), ("request_id", c.requestId), ("device_id", c.deviceId),
    ("subject", c.subject)].filterMap fun (k, v) => if v = "" then none else some (k, .text v)

end LogContext

/-- Where log lines go: the service and host they name, and the least level that is written. -/
structure Logger where
  service : String
  hostname : String
  level : LogLevel
  /-- Attributes of every line. -/
  preset : List (String × LogValue) := []
  /-- A group that takes in the attributes of the line and its context. -/
  group : String := ""

namespace Logger

def enabled (l : Logger) (level : LogLevel) : Bool := l.level.rank ≤ level.rank

/-- The record's own keys first, then the attributes, then the log context. -/
def fields (l : Logger) (timestamp : String) (e : LogEntry) : List (String × Json) :=
  let own := e.attributes ++ e.context.attributes
  [("timestamp", .ofPlainText timestamp), ("level", .string e.level.name),
    ("message", .ofPlainText e.message)] ++
    LogValue.attributeFields true
      ([("service", .text l.service), ("hostname", .text l.hostname)] ++ l.preset) ++
    (if l.group = "" then LogValue.attributeFields true own
    else LogValue.fieldsOf true l.group (.group own))

/-- The line of an entry, unless its level is below the logger's. -/
def line? (l : Logger) (timestamp : String) (e : LogEntry) : Option String :=
  if l.enabled e.level then some (Json.object (l.fields timestamp e)).compact else none

end Logger

namespace LogEntry

def debug (c : LogContext) (message : String) (attributes : List (String × LogValue) := []) :
    LogEntry :=
  ⟨.debug, message, attributes, c⟩

def info (c : LogContext) (message : String) (attributes : List (String × LogValue) := []) :
    LogEntry :=
  ⟨.info, message, attributes, c⟩

def warn (c : LogContext) (message : String) (attributes : List (String × LogValue) := []) :
    LogEntry :=
  ⟨.warn, message, attributes, c⟩

/-- An error line names what went wrong first. -/
def error (c : LogContext) (message : String) (cause : Option String)
    (attributes : List (String × LogValue) := []) : LogEntry :=
  ⟨.error, message, ("error", .group [("msg", .text (cause.getD "<nil>"))]) :: attributes, c⟩

end LogEntry

end BinFleet
