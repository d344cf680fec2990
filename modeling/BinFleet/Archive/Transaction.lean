import BinFleet.Ending
import BinFleet.Fault

namespace BinFleet.Archive

/-- What can be done with transactions on a state. Each operation may fail. -/
structure Transactions (σ : Type) where
  start (readOnly : Bool) : σ → σ × Option Fault
  commit : σ → σ × Option Fault
  rollback : σ → σ × Option Fault

/-- What the surroundings of a call carry: no transaction, an open one, or something else in its
place. -/
inductive Carried where
  | nothing
  | transaction
  | foreign
  deriving DecidableEq, Repr

/-- Where a statement runs: in the open transaction, or on a connection of the pool, where it is a
transaction of its own. -/
inductive Route where
  | transaction
  | pool
  deriving DecidableEq, Repr

/-- Statements run in the transaction that the surroundings carry, and on the pool if there is none. -/
def Carried.route : Carried → Route
  | .transaction => .transaction
  | .nothing => .pool
  | .foreign => .pool

/-- Work that knows what its surroundings carry. -/
abbrev Work (σ α : Type) := Carried → σ → σ × Ending (Except Fault α)

def startFault (why : Fault) : Fault := .wrapped "failed to start new transaction: " why ""

def commitFault (why : Fault) : Fault := .wrapped "failed to commit tx: " why ""

/-- A failed rollback is told in words; the failure of the work stays the cause. -/
def rollbackFault (why failure : Fault) : Fault :=
  .wrapped ("failed to rollback tx: " ++ why.message ++ " (original error: ") failure ")"

/-- Ends a transaction as the work in it ended. -/
def settle {σ α : Type} (t : Transactions σ) : σ × Ending (Except Fault α) → σ × Ending (Except Fault α)
  | (s, .crashed text) => ((t.rollback s).1, .crashed text)
  | (s, .returned (.error failure)) =>
    match t.rollback s with
    | (s, none) => (s, .returned (.error failure))
    | (s, some why) => (s, .returned (.error (rollbackFault why failure)))
  | (s, .returned (.ok v)) =>
    match t.commit s with
    | (s, none) => (s, .returned (.ok v))
    | (s, some why) => (s, .returned (.error (commitFault why)))

/-- Runs work in the transaction that is open, which the call that opened it ends, or in one of its own. -/
def within {σ α : Type} (t : Transactions σ) (readOnly : Bool) (work : Work σ α) : Work σ α
  | .foreign, s => (s, .returned (.error (.known .invalidTransaction)))
  | .transaction, s => work .transaction s
  | .nothing, s =>
    match t.start readOnly s with
    | (s, some why) => (s, .returned (.error (startFault why)))
    | (s, none) => settle t (work .transaction s)

end BinFleet.Archive
