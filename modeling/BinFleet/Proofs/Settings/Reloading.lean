import BinFleet.Proofs.Settings.Precedence

namespace BinFleet.Settings

open Text.Utf8 (ofString)

/-- How leaves become variables, one after the other. -/
inductive Exports : Environment → List Leaf → Environment → Option LoadError → Prop where
  | done (e : Environment) : Exports e [] e none
  | skipped {e e' : Environment} {leaf : Leaf} {rest : List Leaf} {failure : Option LoadError}
      (hset : e.get? leaf.name ≠ none) (hrest : Exports e rest e' failure) : Exports e (leaf :: rest) e' failure
  | added {e e' : Environment} {leaf : Leaf} {rest : List Leaf} {failure : Option LoadError}
      (hnew : e.get? leaf.name = none) (hvalue : Environment.isSettable leaf.name (substitute e leaf.value) = true)
      (hrest : Exports ⟨e.entries ++ [(leaf.name, substitute e leaf.value)]⟩ rest e' failure) :
      Exports e (leaf :: rest) e' failure
  | stopped {e : Environment} {leaf : Leaf} (rest : List Leaf) (hnew : e.get? leaf.name = none)
      (hvalue : Environment.isSettable leaf.name (substitute e leaf.value) = false) :
      Exports e (leaf :: rest) e (some (.notSettable leaf.name))

theorem exportAll_of_unsettable {e : Environment} {leaf : Leaf} (hnew : e.get? leaf.name = none)
    (hvalue : Environment.isSettable leaf.name (substitute e leaf.value) = false) (rest : List Leaf) :
    exportAll e (leaf :: rest) = (e, some (.notSettable leaf.name)) := by
  have hset : e.set? leaf.name (substitute e leaf.value) = none := by
    rw [Environment.set?, hvalue]
    rfl
  rw [exportAll, hnew, hset]

theorem exports_exportAll (e : Environment) (all : List Leaf) :
    Exports e all (exportAll e all).1 (exportAll e all).2 := by
  induction all generalizing e with
  | nil => exact .done e
  | cons leaf rest ih =>
    by_cases hnew : e.get? leaf.name = none
    · cases hvalue : Environment.isSettable leaf.name (substitute e leaf.value) with
      | true =>
        rw [exportAll_of_settable rest hnew hvalue]
        exact .added hnew hvalue (ih _)
      | false =>
        rw [exportAll_of_unsettable hnew hvalue]
        exact .stopped rest hnew hvalue
    · rw [exportAll_of_set rest hnew]
      exact .skipped hnew (ih e)

namespace Exports

variable {e e' : Environment} {all : List Leaf} {failure : Option LoadError}

theorem exportAll_eq (h : Exports e all e' failure) : exportAll e all = (e', failure) := by
  induction h with
  | done e => rfl
  | skipped hset _ ih => rw [exportAll_of_set _ hset, ih]
  | added hnew hvalue _ ih => rw [exportAll_of_settable _ hnew hvalue, ih]
  | stopped rest hnew hvalue => exact exportAll_of_unsettable hnew hvalue rest

theorem keeps (h : Exports e all e' failure) {name : String} {value : Octets} (hset : e.get? name = some value) :
    e'.get? name = some value := by
  induction h with
  | done e => exact hset
  | skipped _ _ ih => exact ih hset
  | added _ _ _ ih =>
    apply ih
    rw [Environment.get?_concat, hset, Option.some_or]
  | stopped _ _ _ => exact hset

theorem keeps_set (h : Exports e all e' failure) {name : String} (hset : e.get? name ≠ none) : e'.get? name ≠ none := by
  obtain ⟨value, hvalue⟩ := Option.ne_none_iff_exists'.mp hset
  rw [h.keeps hvalue]
  exact Option.some_ne_none value

/-- A leaf that is added has its variable from then on. -/
theorem get?_added {leaf : Leaf} (hnew : e.get? leaf.name = none)
    (h : Exports ⟨e.entries ++ [(leaf.name, substitute e leaf.value)]⟩ all e' failure) :
    e'.get? leaf.name = some (substitute e leaf.value) := by
  apply h.keeps
  rw [Environment.get?_concat, hnew, if_pos rfl, Option.none_or]

/-- From where the leaves have led, they lead nowhere else. -/
theorem again (h : Exports e all e' failure) : Exports e' all e' failure := by
  induction h with
  | done e => exact .done e
  | skipped hset hrest ih => exact .skipped (hrest.keeps_set hset) ih
  | added hnew _ hrest ih =>
    have hset := get?_added hnew hrest
    exact .skipped (hset ▸ Option.some_ne_none _) ih
  | stopped rest hnew hvalue => exact .stopped rest hnew hvalue

theorem added_text (h : Exports e all e' failure) {name : String} {value : Octets} (hnone : e.get? name = none)
    (hset : e'.get? name = some value) : leafText? e all name = some value := by
  induction h with
  | done e =>
    rw [hnone] at hset
    cases hset
  | @skipped e e' leaf rest _ hold hrest ih =>
    have hne : leaf.name ≠ name := by
      rintro rfl
      exact hold hnone
    rw [leafText?_cons_of_ne hne fun rest => exportAll_of_set rest hold]
    exact ih hnone hset
  | @added e e' leaf rest _ hnew hvalue hrest ih =>
    by_cases hname : leaf.name = name
    · subst hname
      rw [leafText?_cons_self, ← get?_added hnew hrest]
      exact hset
    · rw [leafText?_cons_of_ne hname fun rest => exportAll_of_settable rest hnew hvalue]
      refine ih ?_ hset
      rw [Environment.get?_concat, hnone, if_neg (Ne.symm hname), Option.none_or]
  | stopped _ _ _ =>
    rw [hnone] at hset
    cases hset

theorem complete (h : Exports e all e' none) : ∀ leaf ∈ all, e'.get? leaf.name ≠ none := by
  generalize hfailure : (none : Option LoadError) = failure at h
  induction h with
  | done e => exact fun _ hleaf => absurd hleaf List.not_mem_nil
  | skipped hset hrest ih => exact List.forall_mem_cons.mpr ⟨hrest.keeps_set hset, ih hfailure⟩
  | added hnew _ hrest ih =>
    refine List.forall_mem_cons.mpr ⟨?_, ih hfailure⟩
    rw [get?_added hnew hrest]
    exact Option.some_ne_none _
  | stopped _ _ _ => cases hfailure

/-- Where the leaves were left. -/
theorem stopped_at {why : LoadError} (h : Exports e all e' (some why)) :
    ∃ before leaf after, all = before ++ leaf :: after ∧ why = .notSettable leaf.name ∧
      (∀ l ∈ before, e'.get? l.name ≠ none) ∧ e'.get? leaf.name = none ∧
      Environment.isSettable leaf.name (substitute e' leaf.value) = false := by
  generalize hfailure : some why = failure at h
  induction h with
  | done e => cases hfailure
  | @skipped e e' first rest _ hset hrest ih =>
    obtain ⟨before, leaf, after, rfl, hwhy, hbefore, hleft⟩ := ih hfailure
    exact ⟨first :: before, leaf, after, rfl, hwhy, List.forall_mem_cons.mpr ⟨hrest.keeps_set hset, hbefore⟩, hleft⟩
  | @added e e' first rest _ hnew hvalue hrest ih =>
    obtain ⟨before, leaf, after, rfl, hwhy, hbefore, hleft⟩ := ih hfailure
    refine ⟨first :: before, leaf, after, rfl, hwhy, List.forall_mem_cons.mpr ⟨?_, hbefore⟩, hleft⟩
    rw [get?_added hnew hrest]
    exact Option.some_ne_none _
  | @stopped e leaf rest hnew hvalue =>
    exact ⟨[], leaf, rest, rfl, Option.some.inj hfailure, fun _ hl => absurd hl List.not_mem_nil, hnew, hvalue⟩

end Exports

/-- What loading a file makes of an environment. -/
structure Loaded (e : Environment) (file : Octets) (e' : Environment) (failure : Option LoadError) : Prop where
  kept (name : String) (value : Octets) (h : e.get? name = some value) : e'.get? name = some value
  added (name : String) (value : Octets) (hnone : e.get? name = none) (h : e'.get? name = some value) :
    leafText? e (leaves file) name = some value
  complete (h : ∀ name, failure ≠ some (.notSettable name)) : ∀ leaf ∈ leaves file, e'.get? leaf.name ≠ none
  stopped (name : String) (h : failure = some (.notSettable name)) :
    ∃ before leaf after, leaves file = before ++ leaf :: after ∧ leaf.name = name ∧
      (∀ l ∈ before, e'.get? l.name ≠ none) ∧ e'.get? name = none ∧
      Environment.isSettable name (substitute e' leaf.value) = false
  long (h : failure = some .lineTooLong) : (Text.splitList 0x0a file).all fits = false
  whole (h : failure = none) : (Text.splitList 0x0a file).all fits = true
  again : load e' file = (e', failure)

namespace Exports

variable {e e' : Environment} {file : Octets}

/-- All leaves are exported, up to the first line that is too long. -/
theorem loaded_to_end (h : Exports e (leaves file) e' none) :
    Loaded e file e' (if (Text.splitList 0x0a file).all fits then none else some .lineTooLong) where
  kept _ _ := h.keeps
  added _ _ := h.added_text
  complete _ := h.complete
  stopped name hfailure := by
    split_ifs at hfailure
    cases hfailure
  long hfailure := by
    by_contra hfits
    rw [if_pos (eq_true_of_ne_false hfits)] at hfailure
    cases hfailure
  whole hfailure := by
    by_contra hfits
    rw [if_neg hfits] at hfailure
    cases hfailure
  again := by rw [load_eq, h.again.exportAll_eq, Option.none_or]

/-- The leaves are exported up to one that cannot be set. -/
theorem loaded_in_part {why : LoadError} (h : Exports e (leaves file) e' (some why)) : Loaded e file e' (some why) := by
  obtain ⟨before, leaf, after, hsplit, rfl, hbefore, hnone, hvalue⟩ := h.stopped_at
  refine ⟨fun _ _ => h.keeps, fun _ _ => h.added_text, ?_, ?_, ?_, ?_, ?_⟩
  · exact fun hfailure => absurd rfl (hfailure leaf.name)
  · intro name hfailure
    cases hfailure
    exact ⟨before, leaf, after, hsplit, rfl, hbefore, hnone, hvalue⟩
  · exact fun hfailure => nomatch hfailure
  · exact fun hfailure => nomatch hfailure
  · rw [load_eq, h.again.exportAll_eq, Option.some_or]

end Exports

/-- Whatever a file says and wherever loading it stops, what was set stays, what is new is as the first
leaf for it says, and loading the file once more changes nothing and ends in the same way. -/
theorem loading_again_changes_nothing (e : Environment) (file : Octets) :
    Loaded e file (load e file).1 (load e file).2 := by
  have hexports := exports_exportAll e (leaves file)
  rw [load_eq]
  cases hleft : (exportAll e (leaves file)).2 with
  | none =>
    rw [hleft] at hexports
    rw [Option.none_or]
    exact hexports.loaded_to_end
  | some why =>
    rw [hleft] at hexports
    rw [Option.some_or]
    exact hexports.loaded_in_part

namespace Relapse

def surroundings : Environment := ⟨[("REALM", ofString "north")]⟩

/-- The third variable has no possible name, and the second reads what the first has set. -/
def file : Octets := ofString "flag: 1\nauth:\n  open: $\x7bFLAG:-0\x7d\nflag: 2\n=x: 3\nrealm: south\nlate: 4\n"

def half : Environment :=
  ⟨[("REALM", ofString "north"), ("FLAG", ofString "1"), ("AUTH_OPEN", ofString "1")]⟩

/-- Loading stops half way, in the same place each time. -/
theorem half_loaded_again :
    load surroundings file = (half, some (.notSettable "=X")) ∧ load half file = (half, some (.notSettable "=X")) ∧
      leafText? surroundings (leaves file) "AUTH_OPEN" = some (ofString "1") ∧ half.get? "LATE" = none := by
  have hload : load surroundings file = (half, some (.notSettable "=X")) := by decide +kernel
  have hloaded := loading_again_changes_nothing surroundings file
  rw [hload] at hloaded
  exact ⟨hload, hloaded.again, hloaded.added "AUTH_OPEN" _ (by decide) (by decide +kernel), by decide⟩

end Relapse

end BinFleet.Settings
