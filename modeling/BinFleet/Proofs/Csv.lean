import BinFleet.Csv
import Mathlib.Data.List.Basic

namespace BinFleet.Csv

/-- Where a reader stands. -/
inductive Place where
  /-- Before the first character of a field. -/
  | start
  | plain
  | quoted
  /-- Behind a quote in a quoted field: the field is over unless another quote follows. -/
  | closing
  /-- Behind a carriage return outside quotes: the line has to end. -/
  | returned
  deriving DecidableEq, Repr

/-- What a reader has read: the field it stands in, the fields before it in its record, and the
records before that one, each with the last item first. -/
structure Reader where
  place : Place := .start
  field : List Char := []
  record : List String := []
  records : List (List String) := []
  deriving DecidableEq, Repr

namespace Reader

def endField (r : Reader) : Reader :=
  { r with place := .start, field := [], record := String.ofList r.field.reverse :: r.record }

def endRecord (r : Reader) : Reader := { records := r.endField.record.reverse :: r.records }

/-- What a character that ends a field outside quotes does. -/
def delimit? (r : Reader) (c : Char) : Option Reader :=
  if c = ',' then some r.endField
  else if c = '\n' then some r.endRecord
  else if c = '\r' then some { r with place := .returned }
  else none

/-- One character outside quotes that is no quote. -/
def pass (r : Reader) (c : Char) : Reader :=
  (r.delimit? c).getD { r with place := .plain, field := c :: r.field }

def step (r : Reader) (c : Char) : Option Reader :=
  match r.place with
  | .start => some (if c = '"' then { r with place := .quoted } else r.pass c)
  | .plain => if c = '"' then none else some (r.pass c)
  | .quoted => some (if c = '"' then { r with place := .closing } else { r with field := c :: r.field })
  | .closing => if c = '"' then some { r with place := .quoted, field := c :: r.field } else r.delimit? c
  | .returned => if c = '\n' then some r.endRecord else none

/-- The records when the text ends; the last line may lack its end. -/
def finish? (r : Reader) : Option (List (List String)) :=
  match r.place with
  | .quoted => none
  | .returned => none
  | .start => some (if r.record = [] then r.records else r.endRecord.records).reverse
  | _ => some r.endRecord.records.reverse

end Reader

/-- The records that a text holds. -/
def read? (text : String) : Option (List (List String)) :=
  (text.toList.foldlM Reader.step {}).bind Reader.finish?

/-- A character that stands for itself outside quotes. -/
def IsText (c : Char) : Prop := c ≠ ',' ∧ c ≠ '"' ∧ c ≠ '\r' ∧ c ≠ '\n'

theorem isText_of_needsQuotes {field : List Char} (h : needsQuotes field = false) : ∀ c ∈ field, IsText c := by
  intro c hc
  cases field with
  | nil => exact absurd hc List.not_mem_nil
  | cons first rest =>
    simp only [needsQuotes, Bool.or_eq_false_iff, List.any_eq_false] at h
    have hplain := h.1.2 c hc
    simp only [Bool.or_eq_true, beq_iff_eq, not_or] at hplain
    exact ⟨hplain.1.1.1, hplain.1.1.2, hplain.1.2, hplain.2⟩

namespace Reader

variable {r : Reader}

theorem delimit?_of_isText {c : Char} (h : IsText c) : r.delimit? c = none := by
  rw [delimit?, if_neg h.1, if_neg h.2.2.2, if_neg h.2.2.1]

theorem step_of_isText {c : Char} (hc : IsText c) (hplace : r.place = .start ∨ r.place = .plain) :
    r.step c = some { r with place := .plain, field := c :: r.field } := by
  have hpass : r.pass c = { r with place := .plain, field := c :: r.field } := by
    rw [pass, delimit?_of_isText hc, Option.getD_none]
  rcases hplace with hplace | hplace
  · rw [step, hplace]
    simp only [if_neg hc.2.1, hpass]
  · rw [step, hplace]
    simp only [if_neg hc.2.1, hpass]

/-- Text is collected as it is. -/
theorem foldlM_text {cs : List Char} (h : ∀ c ∈ cs, IsText c) (hplace : r.place = .plain) :
    cs.foldlM step r = some { r with field := cs.reverse ++ r.field } := by
  induction cs generalizing r with
  | nil => rfl
  | cons c rest ih =>
    obtain ⟨hc, hrest⟩ := List.forall_mem_cons.mp h
    rw [List.foldlM_cons, step_of_isText hc (.inr hplace), Option.bind_eq_bind, Option.bind_some, ih hrest rfl,
      ← hplace]
    simp

/-- Inside quotes everything is collected, and a doubled quote as one. -/
theorem foldlM_quoted (cs : List Char) (hplace : r.place = .quoted) :
    (cs.flatMap fun c => if c = '"' then ['"', '"'] else [c]).foldlM step r =
      some { r with field := cs.reverse ++ r.field } := by
  induction cs generalizing r with
  | nil => rfl
  | cons c rest ih =>
    have hchar : (if c = '"' then ['"', '"'] else [c]).foldlM step r = some { r with field := c :: r.field } := by
      by_cases hc : c = '"'
      · subst hc
        simp [step, hplace]
      · simp [step, hplace, hc]
    have hrest := @ih { r with field := c :: r.field } hplace
    rw [List.flatMap_cons, List.foldlM_append, hchar, Option.bind_eq_bind, Option.bind_some, hrest]
    simp

/-- A delimiter ends a field wherever the reader stands in it, unless that is between quotes. -/
theorem step_of_delimit? {r' : Reader} {c : Char} (hplace : r.place ∈ [.start, .plain, .closing])
    (h : r.delimit? c = some r') : r.step c = some r' := by
  have hc : c ≠ '"' := by
    rintro rfl
    cases h
  simp only [List.mem_cons, List.not_mem_nil, or_false] at hplace
  rcases hplace with hplace | hplace | hplace
  · simp [step, hplace, hc, pass, h]
  · simp [step, hplace, hc, pass, h]
  · simp [step, hplace, hc, h]

end Reader

open Reader

section Written

variable (fields : List String) (records : List (List String))

/-- A written field is collected, and a delimiter may follow. -/
theorem foldlM_renderField (field : String) :
    ∃ place ∈ [Place.start, .plain, .closing],
      (renderField field).foldlM step ⟨.start, [], fields, records⟩ =
        some ⟨place, field.toList.reverse, fields, records⟩ := by
  rw [renderField]
  split_ifs with hquotes
  · refine ⟨.closing, by simp, ?_⟩
    have hinside := @foldlM_quoted ⟨.quoted, [], fields, records⟩ field.toList rfl
    have hopen : step ⟨.start, [], fields, records⟩ '"' = some ⟨.quoted, [], fields, records⟩ := rfl
    rw [quote, List.foldlM_cons, hopen, Option.bind_eq_bind, Option.bind_some, List.foldlM_append, hinside]
    simp [step]
  · have htext := isText_of_needsQuotes (Bool.eq_false_iff.mpr hquotes)
    generalize field.toList = cs at htext
    cases cs with
    | nil => exact ⟨.start, by simp, rfl⟩
    | cons c rest =>
      obtain ⟨hc, hrest⟩ := List.forall_mem_cons.mp htext
      refine ⟨.plain, by simp, ?_⟩
      rw [List.foldlM_cons, step_of_isText hc (.inl rfl), Option.bind_eq_bind, Option.bind_some, foldlM_text hrest rfl]
      simp

/-- A written field and the delimiter behind it. -/
theorem foldlM_delimited (field : String) {c : Char} {r : Reader}
    (h : ∀ place, delimit? ⟨place, field.toList.reverse, fields, records⟩ c = some r) (rest : List Char) :
    (renderField field ++ c :: rest).foldlM step ⟨.start, [], fields, records⟩ = rest.foldlM step r := by
  obtain ⟨place, hplace, hfield⟩ := foldlM_renderField fields records field
  rw [List.foldlM_append, hfield, Option.bind_eq_bind, Option.bind_some, List.foldlM_cons,
    step_of_delimit? hplace (h place), Option.bind_eq_bind, Option.bind_some]

theorem foldlM_renderFields {row : List String} (hrow : row ≠ []) (rest : List Char) :
    (renderFields row ++ '\n' :: rest).foldlM step ⟨.start, [], fields, records⟩ =
      rest.foldlM step ⟨.start, [], [], (fields.reverse ++ row) :: records⟩ := by
  induction row generalizing fields with
  | nil => exact absurd rfl hrow
  | cons field others ih =>
    cases others with
    | nil =>
      refine foldlM_delimited fields records field (fun place => ?_) rest
      simp [delimit?, endRecord, endField]
    | cons next others =>
      have hcomma (place : Place) :
          delimit? ⟨place, field.toList.reverse, fields, records⟩ ',' =
            some ⟨.start, [], field :: fields, records⟩ := by
        simp [delimit?, endField]
      rw [renderFields, List.append_assoc, List.cons_append, foldlM_delimited fields records field hcomma,
        ih (field :: fields) (List.cons_ne_nil _ _)]
      · simp
      · exact List.cons_ne_nil next others

theorem foldlM_lines {rows : List (List String)} (hrows : ∀ row ∈ rows, row ≠ []) :
    (rows.flatMap fun row => renderFields row ++ ['\n']).foldlM step ⟨.start, [], [], records⟩ =
      some ⟨.start, [], [], rows.reverse ++ records⟩ := by
  induction rows generalizing records with
  | nil => rfl
  | cons row rest ih =>
    obtain ⟨hrow, hrest⟩ := List.forall_mem_cons.mp hrows
    rw [List.flatMap_cons, List.append_assoc, List.singleton_append, foldlM_renderFields [] records hrow, ih _ hrest]
    simp

end Written

/-- Written records are read back, whatever characters their fields hold. Each has a field at
least: a record without any would be read as one with an empty field. -/
theorem read?_render {rows : List (List String)} (h : ∀ row ∈ rows, row ≠ []) : read? (render rows) = some rows := by
  rw [read?, render, String.toList_ofList, foldlM_lines [] h, Option.bind_some]
  simp [finish?]

end BinFleet.Csv
