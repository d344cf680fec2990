import BinFleet.Fault

namespace BinFleet.Queue

/-- How many attempts were made, and why the last of them failed. -/
structure Attempts where
  made : Nat
  failure : Option Fault
  deriving DecidableEq, Repr

/-- Attempts from number `i` on, as long as there are some left. -/
def retryFrom (attempt : Nat → Option Fault) (givenUp : Nat → Option Fault) (i : Nat) : Nat → Attempts
  | 0 => ⟨i, none⟩
  | left + 1 =>
    match attempt i with
    | none => ⟨i + 1, none⟩
    | some failure =>
      if left = 0 then ⟨i + 1, some failure⟩
      else
        match givenUp i with
        | some reason => ⟨i + 1, some (.paired "" failure "\n" reason "")⟩
        | none => retryFrom attempt givenUp (i + 1) left

/-- Up to `limit` attempts; none for a limit that is not positive. -/
def retry (limit : Int) (attempt : Nat → Option Fault) (givenUp : Nat → Option Fault) : Attempts :=
  retryFrom attempt givenUp 0 limit.toNat

/-- The reason of a caller that was told to stop. -/
def cancelled : Fault := .other "context canceled"

end BinFleet.Queue
