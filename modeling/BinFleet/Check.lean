namespace BinFleet

/-- The messages found so far, in the order they were found. -/
structure Checks where
  errors : List (String × String) := []
  deriving DecidableEq, Repr, Inhabited

namespace Checks

def isValid (c : Checks) : Bool := c.errors.isEmpty

def count (c : Checks) : Nat := c.errors.length

def add (c : Checks) (key message : String) : Checks :=
  if c.errors.any (·.1 == key) then c else ⟨c.errors ++ [(key, message)]⟩

def check (c : Checks) (ok : Bool) (key message : String) : Checks :=
  if ok then c else c.add key message

/-- The messages in the order of the field names. -/
def sorted (c : Checks) : List (String × String) := c.errors.mergeSort fun a b => a.1 ≤ b.1

end Checks

/-- The value is one of the permitted ones. -/
def isPermitted {α : Type} [BEq α] (value : α) (permitted : List α) : Bool := permitted.contains value

end BinFleet
