import BinFleet.Settings.Config
import BinFleet.Text.Utf8

namespace BinFleet

structure Options where
  mode : String := ""
  configPath : String := "config.yaml"
  help : Bool := false
  deriving DecidableEq, Repr

namespace Options

/-- The name of an option and the value after its equals sign; `none` for other arguments. -/
def name? (argument : String) : Option (String × Option String) :=
  let body? : Option (List Char) :=
    match argument.toList with
    | '-' :: '-' :: rest => some rest
    | '-' :: rest => some rest
    | _ => none
  match body? with
  | none => none
  | some [] => none
  | some body =>
    match Text.cut? '=' body with
    | some (name, value) => some (String.ofList name, some (String.ofList value))
    | none => some (String.ofList body, none)

def unknown (name : String) : String := "flag provided but not defined: -" ++ name

def lacksValue (name : String) : String := "flag needs an argument: -" ++ name

/-- The option that is given a text. -/
def set? (o : Options) (name value : String) : Option Options :=
  match name with
  | "mode" => some { o with mode := value }
  | "config-path" => some { o with configPath := value }
  | _ => none

/-- Reads options up to the first argument that is none. -/
def read (o : Options) : List String → Except String Options
  | [] => .ok o
  | argument :: rest =>
    match name? argument with
    | none => .ok o
    | some ("help", value) => read { o with help := value != some "false" } rest
    | some (name, some value) =>
      match o.set? name value with
      | some o => read o rest
      | none => .error (unknown name)
    | some (name, none) =>
      match o.set? name "" with
      | none => .error (unknown name)
      | some _ =>
        match rest with
        | [] => .error (lacksValue name)
        | value :: rest => read ((o.set? name value).getD o) rest

end Options

/-- The variables that a configuration may depend on: those of its settings and those that the
file refers to. -/
def Config.variableNames (file : Option Octets) : List String :=
  let lines := (Text.splitList 0x0a (file.getD [])).map fun line =>
    Settings.Statement.ofLine (Text.Utf8.symbols line)
  let referred := lines.filterMap fun
    | .leaf _ _ value => (Settings.placeholder? value).bind fun inner =>
      Text.Utf8.valid? (Text.Utf8.ofSymbols (Settings.placeholderParts inner).1)
    | _ => none
  (Config.schema.map (·.name) ++ referred).eraseDups

end BinFleet
