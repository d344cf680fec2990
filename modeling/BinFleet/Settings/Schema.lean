import BinFleet.Number.Integer
import BinFleet.Settings.File
import BinFleet.Text.Quoted
import BinFleet.Time.Span

namespace BinFleet.Settings

/-- Kinds of values; `unsupported` names a kind that no text can be read as. -/
inductive Kind where
  | text
  | switch
  | signed (bits : Nat)
  | unsigned (bits : Nat)
  | single
  | double
  | span
  | unsupported (name : String)
  deriving DecidableEq, Repr

/-- The values of a kind. -/
def Kind.Value : Kind → Type
  | text => Octets
  | switch => Bool
  | signed _ => Int
  | unsigned _ => Nat
  | single => Float
  | double => Float
  | span => Time.Span
  | unsupported _ => Empty

/-- Why a text is no value of a kind. -/
inductive ReadError where
  | switch (text : Octets)
  | signed (text : Octets) (why : Number.LiteralError)
  | unsigned (text : Octets) (why : Number.LiteralError)
  | number (text : Octets) (why : Number.LiteralError)
  | span (text : Octets) (why : Time.Span.Error)
  | unsupported (kind : String)

/-- Texts about a number name the reader, the text and the reason. -/
def numberMessage (reader : String) (text : Octets) (why : String) : String :=
  "strconv." ++ reader ++ ": parsing " ++ Text.Quoted.encodeOctets text ++ ": " ++ why

def ReadError.message : ReadError → String
  | switch text => numberMessage "ParseBool" text Number.LiteralError.malformed.message
  | signed text why => numberMessage "ParseInt" text why.message
  | unsigned text why => numberMessage "ParseUint" text why.message
  | number text why => numberMessage "ParseFloat" text why.message
  | span text why => why.message text
  | unsupported kind => "unsupported field kind " ++ kind

def readSwitch? (text : String) : Option Bool :=
  if ["1", "t", "T", "TRUE", "true", "True"].contains text then some true
  else if ["0", "f", "F", "FALSE", "false", "False"].contains text then some false
  else none

/-- Reads octets as a value. Numbers and switches have only ASCII characters, so nothing that
stands for other octets is one. -/
def Kind.read : (k : Kind) → Octets → Except ReadError k.Value
  | text, s => .ok s
  | switch, s =>
    match readSwitch? (Text.Utf8.toString s) with
    | some b => .ok b
    | none => .error (.switch s)
  | signed bits, s => (Number.Integer.readSigned bits (Text.Utf8.toString s)).mapError (.signed s)
  | unsigned bits, s => (Number.Integer.readUnsigned bits (Text.Utf8.toString s)).mapError (.unsigned s)
  | single, s => (Number.readSingle (Text.Utf8.toString s)).mapError (.number s)
  | double, s => (Number.read (Text.Utf8.toString s)).mapError (.number s)
  | span, s => (Time.Span.parse s).mapError (.span s)
  | unsupported name, _ => .error (.unsupported name)

/-- A setting of a record `σ`. -/
structure Setting (σ : Type) where
  name : String
  fallback : Option String
  kind : Kind
  assign : kind.Value → σ → σ

/-- A text that could not be read, and the variable it is for. -/
structure SettingError where
  name : String
  error : ReadError

def SettingError.message (e : SettingError) : String := "env " ++ e.name ++ ": " ++ e.error.message

namespace Setting

/-- The text of the variable, or the default when the variable is not set or empty. -/
def chosen? {σ : Type} (s : Setting σ) (e : Environment) : Option Octets :=
  let fallback := s.fallback.map Text.Utf8.ofString
  match e.get? s.name with
  | some text => if text.isEmpty then fallback else some text
  | none => fallback

def fill {σ : Type} (s : Setting σ) (e : Environment) (target : σ) : Except SettingError σ :=
  match s.chosen? e with
  | none => .ok target
  | some text =>
    match s.kind.read text with
    | .ok v => .ok (s.assign v target)
    | .error why => .error ⟨s.name, why⟩

/-- A setting of a part of a record. -/
def within {σ τ : Type} (modify : (τ → τ) → σ → σ) (s : Setting τ) : Setting σ :=
  ⟨s.name, s.fallback, s.kind, fun v => modify (s.assign v)⟩

end Setting

/-- The settings of a record in the order in which they are filled. -/
abbrev Schema (σ : Type) := List (Setting σ)

namespace Schema

def within {σ τ : Type} (modify : (τ → τ) → σ → σ) (schema : Schema τ) : Schema σ :=
  schema.map (Setting.within modify)

/-- The record with the settings before the first failure filled, and that failure. -/
def fill {σ : Type} (schema : Schema σ) (e : Environment) (target : σ) : σ × Option SettingError :=
  match schema with
  | [] => (target, none)
  | s :: rest =>
    match s.fill e target with
    | .ok target => fill rest e target
    | .error error => (target, some error)

end Schema

end BinFleet.Settings
