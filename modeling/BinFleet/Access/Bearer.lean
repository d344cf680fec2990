import BinFleet.Text.Blank
import BinFleet.Text.Case

namespace BinFleet.Access.Bearer

def malformed : String := "invalid Authorization header format"

/-- The token of a header whose scheme is `Bearer` in any letter case. -/
def token? (header : String) : Option String :=
  match Text.cut? ' ' header.toList with
  | none => none
  | some (scheme, token) =>
    if scheme.map Char.toLower = "bearer".toList ∧ token ≠ [] then some (String.ofList token)
    else none

end BinFleet.Access.Bearer
