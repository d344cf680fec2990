import BinFleet.Text.Blank

namespace BinFleet

structure Environment where
  entries : List (String × Octets) := []
  deriving DecidableEq, Repr, Inhabited

namespace Environment

def get? (e : Environment) (name : String) : Option Octets :=
  (e.entries.find? (·.1 == name)).map (·.2)

/-- A name is not empty and has neither an equals sign nor a NUL; a value has no NUL. -/
def isSettable (name : String) (value : Octets) : Bool :=
  name != "" && name.toList.all (fun c => c != '=' && c != '\x00') && value.all (· != 0)

def insert (e : Environment) (name : String) (value : Octets) : Environment :=
  if e.entries.any (·.1 == name) then
    ⟨e.entries.map fun v => if v.1 == name then (name, value) else v⟩
  else ⟨e.entries ++ [(name, value)]⟩

def set? (e : Environment) (name : String) (value : Octets) : Option Environment :=
  if isSettable name value then some (e.insert name value) else none

/-- The environment with the pairs of a list that can be set. -/
def ofList (pairs : List (String × Octets)) : Environment :=
  pairs.foldl (fun e (name, value) => (e.set? name value).getD e) {}

/-- One line `NAME=value` for each variable, in ascending order of its octets. -/
def lines (e : Environment) : List Octets :=
  (e.entries.map fun (name, value) => Text.Utf8.ofString (name ++ "=") ++ value).mergeSort fun a b => a ≤ b

end Environment

end BinFleet
