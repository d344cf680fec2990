import BinFleet.Settings.Environment
import BinFleet.Text.Case
import BinFleet.Text.Utf8

namespace BinFleet.Settings

open Text.Utf8 (Symbol)

/-- A text as symbols. -/
def marks (s : String) : List Symbol := s.toList.map .char

def isQuote (s : Symbol) : Bool := s == .char '"' || s == .char '\''

/-- A plain value ends before a blank and a number sign; a value that starts with a quote has no
comment. -/
def stripComment (value : List Symbol) : List Symbol :=
  if value.head?.any isQuote then value
  else
    match Text.cutAt? (marks " #") value with
    | some (before, _) => Text.trimSymbols before
    | none => value

/-- The inside of `${NAME:-default}`. -/
def placeholder? (value : List Symbol) : Option (List Symbol) :=
  match value with
  | .char '$' :: .char '\x7b' :: rest =>
    if rest.getLast? = some (.char '\x7d') then some rest.dropLast else none
  | _ => none

/-- The name and the default inside a placeholder. -/
def placeholderParts (inner : List Symbol) : List Symbol × List Symbol :=
  let (name, fallback) := (Text.cutAt? (marks ":-") inner).getD (inner, [])
  (Text.trimSymbols name, Text.trimSymbols fallback)

/-- The variable that symbols name; octets that are no text name none. -/
def named? (e : Environment) (name : List Symbol) : Option Octets :=
  (Text.Utf8.valid? (Text.Utf8.ofSymbols name)).bind e.get?

/-- A placeholder stands for the named variable, or for its default when the variable has no text;
all else stands for itself. -/
def substitute (e : Environment) (value : List Symbol) : Octets :=
  match placeholder? value with
  | none => Text.Utf8.ofSymbols value
  | some inner =>
    let (name, fallback) := placeholderParts inner
    match named? e name with
    | some text => if text.isEmpty then Text.Utf8.ofSymbols fallback else text
    | none => Text.Utf8.ofSymbols fallback

/-- What a line says. -/
inductive Statement where
  /-- Blank lines and comments: they do not even end a section. -/
  | silent
  /-- A line that ends deeper sections and sets nothing. -/
  | idle (indent : Nat)
  | heading (indent : Nat) (name : List Symbol)
  | leaf (indent : Nat) (key value : List Symbol)
  deriving DecidableEq, Repr

namespace Statement

/-- A trimmed line as a leaf; its value has no comment and no quotes at its ends. -/
def ofLeaf (indent : Nat) (content : List Symbol) : Statement :=
  match Text.cut? (.char ':') content with
  | none => idle indent
  | some (key, rest) =>
    let value := stripComment (Text.trimSymbols rest)
    if value.isEmpty then idle indent
    else leaf indent (Text.trimSymbols key) (Text.stripWhere isQuote value)

def ofLine (line : List Symbol) : Statement :=
  let content := Text.trimSymbols line
  let indent := (line.takeWhile (· == .char ' ')).length
  if content.isEmpty || content.head? == some (.char '#') then silent
  else if content.getLast? == some (.char ':') && (Text.cutAt? (marks ": ") content).isNone then
    heading indent content.dropLast
  else ofLeaf indent content

end Statement

structure Heading where
  indent : Nat
  name : List Symbol
  deriving DecidableEq, Repr

inductive LoadError where
  | lineTooLong
  | notSettable (name : String)
  deriving DecidableEq, Repr

def LoadError.message : LoadError → String
  | lineTooLong => "error reading YAML file: bufio.Scanner: token too long"
  | notSettable name => "could not set env var " ++ name ++ ": setenv: invalid argument"

/-- The message about a file that does not exist. -/
def missingFile (path : String) : String :=
  "could not open YAML file: open " ++ path ++ ": no such file or directory"

/-- The open sections, innermost first, and the environment so far. -/
structure Loader where
  sections : List Heading := []
  environment : Environment
  deriving Repr

namespace Loader

/-- A section ends at a line that is not indented deeper. -/
def leave (l : Loader) (indent : Nat) : Loader :=
  { l with sections := l.sections.dropWhile fun h => indent ≤ h.indent }

def variableName (l : Loader) (key : List Symbol) : String :=
  let path := (l.sections.map (·.name)).reverse ++ [key]
  Text.upper ("_".intercalate (path.map fun part => String.ofList (part.map Symbol.toChar)))

/-- A variable that is set, even to nothing, stays as it is. -/
def define (l : Loader) (name : String) (value : Octets) : Except LoadError Loader :=
  match l.environment.get? name with
  | some _ => .ok l
  | none =>
    match l.environment.set? name value with
    | some e => .ok { l with environment := e }
    | none => .error (.notSettable name)

def step (l : Loader) : Statement → Except LoadError Loader
  | .silent => .ok l
  | .idle indent => .ok (l.leave indent)
  | .heading indent name =>
    let l := l.leave indent
    .ok { l with sections := ⟨indent, name⟩ :: l.sections }
  | .leaf indent key value =>
    let l := l.leave indent
    l.define (l.variableName key) (substitute l.environment value)

end Loader

/-- Lines of this many octets or more are refused. -/
def lineLimit : Nat := 65536

/-- A line of a file, or nothing when it is too long. -/
def lineSymbols? (line : Octets) : Option (List Symbol) :=
  if line.length ≥ lineLimit then none
  else some (Text.Utf8.symbols (if line.getLast? == some 0x0d then line.dropLast else line))

/-- What stands in the environment when loading ends, and why it ended early if it did. -/
def loadLines (l : Loader) : List Octets → Environment × Option LoadError
  | [] => (l.environment, none)
  | line :: rest =>
    match lineSymbols? line with
    | none => (l.environment, some .lineTooLong)
    | some symbols =>
      match l.step (Statement.ofLine symbols) with
      | .ok l => loadLines l rest
      | .error e => (l.environment, some e)

/-- A file is an indented outline of sections (`name:`) and leaves (`name: value`). Each leaf becomes the
variable named by its path, in capitals and joined by underscores, unless that variable is already set. -/
def load (e : Environment) (file : Octets) : Environment × Option LoadError :=
  loadLines ⟨[], e⟩ (Text.splitList 0x0a file)

end BinFleet.Settings
