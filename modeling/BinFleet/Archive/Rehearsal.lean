import BinFleet.Archive.Database

namespace BinFleet.Archive

/-- What a database is asked to do. -/
inductive Request where
  | start (readOnly : Bool)
  | run (route : Route) (statement : Statement)
  | commit
  | rollback
  | closeRows

/-- How a database behaves: what fails and what it gives back. -/
structure Script where
  start : Option Fault := none
  commit : Option Fault := none
  rollback : Option Fault := none
  execute : Option Fault := none
  insert : Option Fault := none
  insertId : Int := 0
  find : Option Fault := none
  found : Bool := false
  query : Option Fault := none
  /-- Comes with the last row. -/
  scan : Option Fault := none
  /-- Comes after the rows. -/
  last : Option Fault := none
  devices : List ArchivedDevice := []
  readings : List ArchivedReading := []

/-- A script, and what was asked so far, latest first. -/
structure Rehearsal where
  script : Script := {}
  asked : List Request := []

namespace Rehearsal

def ask (r : Rehearsal) (q : Request) : Rehearsal := { r with asked := q :: r.asked }

/-- The result of an operation that may fail. -/
def result {α : Type} (failure : Option Fault) (value : α) : Except Fault α :=
  match failure with
  | some f => .error f
  | none => .ok value

def rows {α : Type} (r : Rehearsal) (items : List α) : Rows α :=
  let good := items.map fun x => (.ok x : Except Fault α)
  match r.script.scan with
  | some f => ⟨if items.isEmpty then [] else good.dropLast ++ [.error f], r.script.last⟩
  | none => ⟨good, r.script.last⟩

def database : Database Rehearsal where
  start readOnly r := (r.ask (.start readOnly), r.script.start)
  commit r := (r.ask .commit, r.script.commit)
  rollback r := (r.ask .rollback, r.script.rollback)
  execute route s r := (r.ask (.run route s), r.script.execute)
  insert route s r := (r.ask (.run route s), result r.script.insert r.script.insertId)
  find route s r := (r.ask (.run route s), result r.script.find r.script.found)
  devices route s r := (r.ask (.run route s), result r.script.query (r.rows r.script.devices))
  readings route s r := (r.ask (.run route s), result r.script.query (r.rows r.script.readings))
  closeRows r := r.ask .closeRows

end Rehearsal

end BinFleet.Archive
