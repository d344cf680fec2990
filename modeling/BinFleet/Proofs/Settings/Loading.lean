import BinFleet.Proofs.Symbols
import BinFleet.Settings.File

namespace BinFleet.Text

/-- Pieces without the mark are those between the marks that are put between them. -/
theorem splitList_intercalate {α : Type} [DecidableEq α] {mark : α} {pieces : List (List α)} (hne : pieces ≠ [])
    (h : ∀ piece ∈ pieces, mark ∉ piece) : splitList mark ([mark].intercalate pieces) = pieces := by
  induction pieces with
  | nil => exact absurd rfl hne
  | cons piece rest ih =>
    obtain ⟨hpiece, hrest⟩ := List.forall_mem_cons.mp h
    cases rest with
    | nil => rw [List.intercalate_singleton, splitList_of_not_mem hpiece]
    | cons next rest =>
      rw [List.intercalate_cons_cons, List.append_assoc, List.singleton_append, splitList_append hpiece,
        ih (List.cons_ne_nil _ _) hrest]

theorem cutAtInto_eq_none_iff {α : Type} [BEq α] [LawfulBEq α] {mark xs : List α} (found : List α) :
    cutAtInto mark found xs = none ↔ ¬ mark <:+: xs := by
  induction xs generalizing found with
  | nil => simp [cutAtInto]
  | cons x xs ih =>
    rw [cutAtInto, List.infix_cons_iff, ← List.isPrefixOf_iff_prefix]
    split_ifs with hfirst
    · simp [hfirst]
    · rw [ih]
      simp [hfirst]

theorem cutAt?_eq_none_iff {α : Type} [BEq α] [LawfulBEq α] {mark xs : List α} :
    cutAt? mark xs = none ↔ ¬ mark <:+: xs := cutAtInto_eq_none_iff []

end BinFleet.Text

namespace BinFleet.Environment

variable {e : Environment} {name : String}

theorem insert_of_get?_none (h : e.get? name = none) (value : Octets) :
    e.insert name value = ⟨e.entries ++ [(name, value)]⟩ := by
  have hnot : ¬ e.entries.any (·.1 == name) := by
    rw [get?, Option.map_eq_none_iff, List.find?_eq_none] at h
    simpa [List.any_eq_true] using fun value hmem => h (name, value) hmem
  rw [insert, if_neg hnot]

theorem get?_concat (e : Environment) (name other : String) (value : Octets) :
    (⟨e.entries ++ [(name, value)]⟩ : Environment).get? other =
      (e.get? other).or (if other = name then some value else none) := by
  simp only [get?, List.find?_append]
  cases e.entries.find? (·.1 == other) with
  | some v => rfl
  | none =>
    by_cases h : other = name
    · simp [h]
    · simp [h, Ne.symm h]

end BinFleet.Environment

namespace BinFleet.Settings

open Text.Utf8 (Symbol symbols)

/-- A carriage return at the end of a line says nothing. -/
theorem Statement.ofLine_return (line : List Symbol) : ofLine (line ++ [.char '\r']) = ofLine line := by
  have htrim : Text.trimSymbols (line ++ [.char '\r']) = Text.trimSymbols line := Text.stripWhere_concat rfl line
  have hindent : (line ++ [Symbol.char '\r']).takeWhile (· == .char ' ') = line.takeWhile (· == .char ' ') := by
    rw [List.takeWhile_append]
    split_ifs with hall
    · simpa using (( List.takeWhile_prefix _).eq_of_length hall).symm
    · rfl
  rw [ofLine, htrim, hindent, ofLine]

/-- What a line of a file says. -/
def statement (line : Octets) : Statement := Statement.ofLine (symbols line)

def fits (line : Octets) : Bool := line.length < lineLimit

theorem lineSymbols?_of_long {line : Octets} (h : fits line = false) : lineSymbols? line = none := by
  rw [lineSymbols?, if_pos (by simpa [fits] using h)]

theorem lineSymbols?_of_fits {line : Octets} (h : fits line) :
    ∃ read, lineSymbols? line = some read ∧ Statement.ofLine read = statement line := by
  rw [lineSymbols?, if_neg (by simpa [fits] using h)]
  refine ⟨_, rfl, ?_⟩
  split_ifs with hreturn
  · obtain ⟨front, rfl⟩ := List.getLast?_eq_some_iff.mp (by simpa using hreturn)
    have hread : symbols (front ++ [0x0d]) = symbols front ++ [.char '\r'] :=
      Text.Utf8.symbols_around front (c := '\r') (by decide) []
    rw [statement, hread, Statement.ofLine_return, List.dropLast_concat]
  · rfl

/-- A leaf with the variable it is for. -/
structure Leaf where
  name : String
  value : List Symbol
  deriving DecidableEq, Repr

/-- The sections that a line with this indent stands in. -/
def around (sections : List Heading) (indent : Nat) : List Heading :=
  sections.dropWhile fun h => indent ≤ h.indent

/-- The leaves among statements that follow the headings of open sections. -/
def leavesFrom (sections : List Heading) : List Statement → List Leaf
  | [] => []
  | .silent :: rest => leavesFrom sections rest
  | .idle indent :: rest => leavesFrom (around sections indent) rest
  | .heading indent name :: rest => leavesFrom (⟨indent, name⟩ :: around sections indent) rest
  | .leaf indent key value :: rest =>
    ⟨Loader.variableName ⟨around sections indent, {}⟩ key, value⟩ :: leavesFrom (around sections indent) rest

/-- Leaves become variables in turn, until one cannot be set. -/
def exportAll (e : Environment) : List Leaf → Environment × Option LoadError
  | [] => (e, none)
  | leaf :: rest =>
    match e.get? leaf.name with
    | some _ => exportAll e rest
    | none =>
      match e.set? leaf.name (substitute e leaf.value) with
      | some e => exportAll e rest
      | none => (e, some (.notSettable leaf.name))

section Exports

variable {e : Environment} {leaf : Leaf} (rest : List Leaf)

theorem exportAll_of_set (h : e.get? leaf.name ≠ none) : exportAll e (leaf :: rest) = exportAll e rest := by
  obtain ⟨old, hold⟩ := Option.ne_none_iff_exists'.mp h
  rw [exportAll, hold]

theorem exportAll_of_settable (h : e.get? leaf.name = none)
    (hset : Environment.isSettable leaf.name (substitute e leaf.value)) :
    exportAll e (leaf :: rest) = exportAll ⟨e.entries ++ [(leaf.name, substitute e leaf.value)]⟩ rest := by
  rw [exportAll, h, Environment.set?, if_pos hset, Environment.insert_of_get?_none h]

end Exports

theorem loadLines_eq (sections : List Heading) (e : Environment) (lines : List Octets) :
    loadLines ⟨sections, e⟩ lines =
      ((exportAll e (leavesFrom sections ((lines.takeWhile fits).map statement))).1,
        (exportAll e (leavesFrom sections ((lines.takeWhile fits).map statement))).2.or
          (if lines.all fits then none else some .lineTooLong)) := by
  induction lines generalizing sections e with
  | nil => rfl
  | cons line rest ih =>
    cases hfits : fits line with
    | false => simp [loadLines, lineSymbols?_of_long hfits, hfits, leavesFrom, exportAll]
    | true =>
      obtain ⟨read, hread, hmeaning⟩ := lineSymbols?_of_fits hfits
      rw [loadLines, hread, List.takeWhile_cons_of_pos hfits, List.map_cons, List.all_cons, hfits, Bool.true_and]
      simp only [hmeaning]
      cases statement line with
      | silent => exact ih sections e
      | idle indent => exact ih _ e
      | heading indent name => exact ih _ e
      | leaf indent key value =>
        simp only [leavesFrom, exportAll]
        -- the name depends on the open sections only
        have hstep : Loader.step ⟨sections, e⟩ (.leaf indent key value) = Loader.define ⟨around sections indent, e⟩
          (Loader.variableName ⟨around sections indent, {}⟩ key) (substitute e value) := rfl
        rw [hstep]
        generalize Loader.variableName ⟨around sections indent, {}⟩ key = name
        unfold Loader.define
        cases e.get? name with
        | some old => exact ih _ e
        | none =>
          cases hset : e.set? name (substitute e value) with
          | some e' => exact ih _ e'
          | none => rfl

/-- The leaves of a file, up to a line that is too long. -/
def leaves (file : Octets) : List Leaf :=
  leavesFrom [] (((Text.splitList 0x0a file).takeWhile fits).map statement)

theorem load_eq (e : Environment) (file : Octets) :
    load e file =
      ((exportAll e (leaves file)).1,
        (exportAll e (leaves file)).2.or
          (if (Text.splitList 0x0a file).all fits then none else some .lineTooLong)) :=
  loadLines_eq [] e _

end BinFleet.Settings
