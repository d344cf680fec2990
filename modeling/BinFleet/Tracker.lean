import BinFleet.Marker

namespace BinFleet

def Tracker.keys {α : Type} (l : List (String × α)) : List String := l.map (·.1)

/-- The state of the map: for every device its visible marker and the readings it has sent. Both are kept
in ascending order of the device ids, each id once. -/
structure Tracker where
  shown : List (String × Marker) := []
  /-- In arrival order for each device. -/
  sent : List (String × List Reading) := []
  /-- A device is visible exactly if it has a history. -/
  agree : Tracker.keys shown = Tracker.keys sent := by rfl

namespace Tracker

def empty : Tracker := {}

section

variable {α : Type}

def find? (id : String) : List (String × α) → Option α
  | [] => none
  | (k, a) :: rest => if k = id then some a else find? id rest

/-- Puts an entry at its place. -/
def insert (id : String) (a : α) : List (String × α) → List (String × α)
  | [] => [(id, a)]
  | (k, b) :: rest =>
    if id < k then (id, a) :: (k, b) :: rest
    else if id = k then (id, a) :: rest
    else (k, b) :: insert id a rest

def drop (id : String) (l : List (String × α)) : List (String × α) := l.filter fun (k, _) => k ≠ id

end

section

variable {α β : Type} {l : List (String × α)} {l' : List (String × β)}

theorem keys_insert (id : String) (a : α) (b : β) (h : keys l = keys l') :
    keys (insert id a l) = keys (insert id b l') := by
  -- The place of an entry depends on the keys alone, so both lists are gone through in step.
  induction l generalizing l' with
  | nil =>
    cases l' with
    | nil => rfl
    | cons q rest' => cases h
  | cons p rest ih =>
    cases l' with
    | nil => cases h
    | cons q rest' =>
      obtain ⟨hk, hrest⟩ := List.cons.inj h
      simp only [insert, ← hk]
      split
      · simpa [keys, hk] using hrest
      · split
        · simpa [keys] using hrest
        · simpa [keys, hk] using ih hrest

theorem keys_drop (id : String) (l : List (String × α)) : keys (drop id l) = (keys l).filter (· ≠ id) := by
  simp only [keys, drop, List.filter_map]
  rfl

end

def marker? (t : Tracker) (id : String) : Option Marker := find? id t.shown

def history? (t : Tracker) (id : String) : Option (List Reading) := find? id t.sent

/-- All visible markers, by device id. -/
def markers (t : Tracker) : List Marker := t.shown.map (·.2)

def size (t : Tracker) : Nat := t.shown.length

/-- What applying a reading gives. -/
structure Applied where
  tracker : Tracker
  marker : Marker
  replaced : Bool

/-- Makes `marker` the visible one of the reading's device and adds the reading to its
history. -/
def apply (t : Tracker) (reading : Reading) (marker : Marker) : Applied :=
  let replaced := (t.marker? reading.id).isSome
  let history := (t.history? reading.id).getD [] ++ [reading]
  let marker := { marker with deviceId := reading.id, readings := history.length }
  ⟨⟨insert reading.id marker t.shown, insert reading.id history t.sent, keys_insert _ _ _ t.agree⟩, marker, replaced⟩

/-- Drops the marker and the history of a device, and tells whether it was on the map. -/
def forget (t : Tracker) (id : String) : Tracker × Bool :=
  (⟨drop id t.shown, drop id t.sent, by rw [keys_drop, keys_drop, t.agree]⟩, (t.marker? id).isSome)

end Tracker

end BinFleet
