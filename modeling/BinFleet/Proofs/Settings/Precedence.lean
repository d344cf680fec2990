import BinFleet.Proofs.Settings.Loading
import BinFleet.Settings.Schema

namespace BinFleet.Settings

open Text.Utf8 (ofString)

section Leaves

/-- The text of the first leaf for a variable. A placeholder in it is read in the environment that
the leaves before it leave behind. -/
def leafText? (e : Environment) (all : List Leaf) (name : String) : Option Octets :=
  match all.dropWhile (·.name ≠ name) with
  | [] => none
  | leaf :: _ => some (substitute (exportAll e (all.takeWhile (·.name ≠ name))).1 leaf.value)

theorem leafText?_cons_self (e : Environment) (leaf : Leaf) (rest : List Leaf) :
    leafText? e (leaf :: rest) leaf.name = some (substitute e leaf.value) := by
  simp [leafText?, exportAll]

/-- A leaf for another variable only changes the environment. -/
theorem leafText?_cons_of_ne {e e' : Environment} {leaf : Leaf} {name : String} (hne : leaf.name ≠ name)
    (hstep : ∀ rest, exportAll e (leaf :: rest) = exportAll e' rest) (rest : List Leaf) :
    leafText? e (leaf :: rest) name = leafText? e' rest name := by
  simp [leafText?, hne, hstep]

/-- What is set stays, and what is not set is decided by the first leaf for it. -/
theorem get?_exportAll {e : Environment} {all : List Leaf} (h : (exportAll e all).2 = none) (name : String) :
    (exportAll e all).1.get? name = (e.get? name).or (leafText? e all name) := by
  induction all generalizing e with
  | nil => simp [exportAll, leafText?]
  | cons leaf rest ih =>
    by_cases hset : e.get? leaf.name = none
    · by_cases hvalue : Environment.isSettable leaf.name (substitute e leaf.value)
      · have hstep := fun rest => exportAll_of_settable rest hset hvalue
        rw [hstep] at h ⊢
        rw [ih h, Environment.get?_concat]
        by_cases hname : leaf.name = name
        · subst hname
          simp [hset, leafText?_cons_self]
        · rw [leafText?_cons_of_ne hname hstep, if_neg (Ne.symm hname), Option.or_none]
      · simp [exportAll, hset, Environment.set?, hvalue] at h
    · have hstep := fun rest => exportAll_of_set rest hset
      rw [hstep] at h ⊢
      rw [ih h]
      by_cases hname : leaf.name = name
      · subst hname
        obtain ⟨old, hold⟩ := Option.ne_none_iff_exists'.mp hset
        simp [hold]
      · rw [leafText?_cons_of_ne hname hstep]

end Leaves

/-- The variable that a field is for, and the text it has by default. -/
structure Tag where
  name : String
  fallback : Option String

/-- The text that an environment and a file give a tagged field. -/
def sourceText? (e : Environment) (file : Octets) (tag : Tag) : Option Octets :=
  match e.get? tag.name with
  | some text => if text.isEmpty then tag.fallback.map ofString else some text
  | none =>
    match leafText? e (leaves file) tag.name with
    | some text => if text.isEmpty then tag.fallback.map ofString else some text
    | none => tag.fallback.map ofString

/-- Why the text for a field is no value of its kind. -/
def Tag.failure? (tag : Tag) (kind : Kind) (text? : Option Octets) : Option SettingError :=
  text?.bind fun text =>
    match kind.read text with
    | .ok _ => none
    | .error why => some ⟨tag.name, why⟩

namespace Setting

variable {σ τ : Type} (s : Setting σ)

def tag : Tag := ⟨s.name, s.fallback⟩

/-- The record with the value that a text is read as; without one nothing changes. -/
def take (text? : Option Octets) (target : σ) : σ :=
  match text? with
  | none => target
  | some text =>
    match s.kind.read text with
    | .ok v => s.assign v target
    | .error _ => target

theorem fill_eq (e : Environment) (target : σ) :
    s.fill e target =
      match s.tag.failure? s.kind (s.chosen? e) with
      | none => .ok (s.take (s.chosen? e) target)
      | some error => .error error := by
  unfold fill take Tag.failure?
  cases s.chosen? e with
  | none => rfl
  | some text =>
    simp only [Option.bind_some]
    cases s.kind.read text <;> rfl

/-- A setting of a part changes that part only. -/
theorem take_within {modify : (σ → σ) → τ → τ} {whole : σ → τ} (h : ∀ f part, modify f (whole part) = whole (f part))
    (text? : Option Octets) (part : σ) : (s.within modify).take text? (whole part) = whole (s.take text? part) := by
  unfold take
  cases text? with
  | none => rfl
  | some text =>
    dsimp only [within]
    cases s.kind.read text with
    | ok v => exact h _ _
    | error why => rfl

theorem chosen?_load {e : Environment} {file : Octets} (h : (load e file).2 = none) :
    s.chosen? (load e file).1 = sourceText? e file s.tag := by
  rw [load_eq, Option.or_eq_none_iff] at h
  rw [load_eq, chosen?, get?_exportAll h.1, sourceText?, tag]
  cases e.get? s.name with
  | some text => rfl
  | none => cases leafText? e (leaves file) s.name <;> rfl

end Setting

namespace Schema

variable {σ τ : Type} (text? : Tag → Option Octets)

/-- The first setting whose text cannot be read. -/
def failure? (schema : Schema σ) : Option SettingError :=
  schema.findSome? fun s => s.tag.failure? s.kind (text? s.tag)

/-- The record with a text read into each setting. -/
def taken (schema : Schema σ) (target : σ) : σ := schema.foldl (fun t s => s.take (text? s.tag) t) target

theorem taken_append (first rest : Schema σ) (target : σ) :
    taken text? (first ++ rest) target = taken text? rest (taken text? first target) := List.foldl_append

theorem taken_within {modify : (τ → τ) → σ → σ} (whole : τ → σ) (h : ∀ f part, modify f (whole part) = whole (f part))
    (schema : Schema τ) (part : τ) :
    (schema.within modify).taken text? (whole part) = whole (schema.taken text? part) := by
  induction schema generalizing part with
  | nil => rfl
  | cons s rest ih =>
    change taken text? (within modify rest) ((s.within modify).take (text? s.tag) (whole part)) = _
    rw [s.take_within h]
    exact ih _

variable {e : Environment} {text? : Tag → Option Octets} (h : ∀ s : Setting σ, s.chosen? e = text? s.tag)

include h

theorem fill_error (schema : Schema σ) (target : σ) : (schema.fill e target).2 = schema.failure? text? := by
  induction schema generalizing target with
  | nil => rfl
  | cons s rest ih =>
    rw [fill, s.fill_eq, failure?, List.findSome?_cons, h s]
    cases s.tag.failure? s.kind (text? s.tag) with
    | none => exact ih _
    | some error => rfl

theorem fill_taken (schema : Schema σ) (target : σ) (hread : schema.failure? text? = none) :
    schema.fill e target = (schema.taken text? target, none) := by
  induction schema generalizing target with
  | nil => rfl
  | cons s rest ih =>
    rw [failure?, List.findSome?_cons] at hread
    rw [fill, s.fill_eq, h s]
    cases hfail : s.tag.failure? s.kind (text? s.tag) with
    | none =>
      rw [hfail] at hread
      exact ih _ hread
    | some error => simp [hfail] at hread

end Schema

/-- What a field holds: a value of a kind, or something that no text is read as. -/
inductive Content where
  | value (kind : Kind) (held : kind.Value)
  | other (kind : String)

namespace Content

def kind : Content → Kind
  | value kind _ => kind
  | other kind => .unsupported kind

/-- The value that a text is read as; without one nothing changes. -/
def take (c : Content) : Option Octets → Content
  | none => c
  | some text =>
    match c.kind.read text with
    | .ok v => .value c.kind v
    | .error _ => c

end Content

/-- How a field can be reached. -/
inductive Mark where
  | plain
  | tagged (tag : Tag)
  /-- A hidden field cannot be written, whatever its tag. -/
  | hidden (tag : Option Tag)

/-- A record as its fields in order, each a content or a record. -/
inductive Record where
  | done
  | field (mark : Mark) (content : Content) (rest : Record)
  | nested (mark : Mark) (inside rest : Record)

namespace Record

def overContent (f : Content → Content) : Record → Record
  | field mark content rest => field mark (f content) rest
  | r => r

def overInside (f : Record → Record) : Record → Record
  | nested mark inside rest => nested mark (f inside) rest
  | r => r

def overRest (f : Record → Record) : Record → Record
  | done => done
  | field mark content rest => field mark content (f rest)
  | nested mark inside rest => nested mark inside (f rest)

/-- The setting of the first field. -/
def ownSetting (mark : Mark) (content : Content) : Schema Record :=
  match mark with
  | .tagged tag =>
    [⟨tag.name, tag.fallback, content.kind, fun v => overContent fun _ => .value content.kind v⟩]
  | _ => []

/-- The settings of a record field: those inside it, unless it has a tag of its own, which no text
can satisfy. -/
def insideSettings (mark : Mark) (inside : Schema Record) : Schema Record :=
  match mark with
  | .plain => inside.within overInside
  | .tagged tag => [⟨tag.name, tag.fallback, .unsupported "struct", fun v => nomatch v⟩]
  | .hidden _ => []

/-- The settings of a record, field by field. -/
def schema : Record → Schema Record
  | done => []
  | field mark content rest => ownSetting mark content ++ rest.schema.within overRest
  | nested mark inside rest => insideSettings mark inside.schema ++ rest.schema.within overRest

/-- The tagged fields that are filled, in order. -/
def fields : Record → List (Tag × Kind)
  | done => []
  | field (.tagged tag) content rest => (tag, content.kind) :: rest.fields
  | field .plain _ rest => rest.fields
  | field (.hidden _) _ rest => rest.fields
  | nested .plain inside rest => inside.fields ++ rest.fields
  | nested (.tagged tag) _ rest => (tag, .unsupported "struct") :: rest.fields
  | nested (.hidden _) _ rest => rest.fields

/-- The record with these texts read into its fields. -/
def filled (text? : Tag → Option Octets) : Record → Record
  | done => done
  | field (.tagged tag) content rest => field (.tagged tag) (content.take (text? tag)) (rest.filled text?)
  | field .plain content rest => field .plain content (rest.filled text?)
  | field (.hidden tag) content rest => field (.hidden tag) content (rest.filled text?)
  | nested .plain inside rest => nested .plain (inside.filled text?) (rest.filled text?)
  | nested (.tagged tag) inside rest => nested (.tagged tag) inside (rest.filled text?)
  | nested (.hidden tag) inside rest => nested (.hidden tag) inside (rest.filled text?)

/-- The first field, in order, whose text cannot be read. -/
def failure? (text? : Tag → Option Octets) (r : Record) : Option SettingError :=
  r.fields.findSome? fun (tag, kind) => tag.failure? kind (text? tag)

theorem map_within {σ τ : Type} (modify : (τ → τ) → σ → σ) (schema : Schema τ) :
    (schema.within modify).map (fun s => (s.tag, s.kind)) = schema.map fun s => (s.tag, s.kind) := by
  rw [Schema.within, List.map_map]
  rfl

theorem map_schema (r : Record) : r.schema.map (fun s => (s.tag, s.kind)) = r.fields := by
  induction r with
  | done => rfl
  | field mark content rest ih =>
    rw [schema, List.map_append, map_within, ih]
    cases mark <;> rfl
  | nested mark inside rest ihInside ihRest =>
    rw [schema, List.map_append, map_within, ihRest]
    cases mark with
    | plain => rw [insideSettings, map_within, ihInside, fields]
    | tagged tag => rfl
    | hidden tag => rfl

section Filling

variable (text? : Tag → Option Octets)

theorem failure?_schema (r : Record) : r.schema.failure? text? = r.failure? text? := by
  rw [failure?, ← map_schema, List.findSome?_map]
  rfl

theorem taken_ownSetting (tag : Tag) (content : Content) (rest : Record) :
    (ownSetting (.tagged tag) content).taken text? (field (.tagged tag) content rest) =
      field (.tagged tag) (content.take (text? tag)) rest := by
  simp only [ownSetting, Schema.taken, List.foldl_cons, List.foldl_nil, Setting.take, Setting.tag]
  cases text? tag with
  | none => rfl
  | some text =>
    simp only [Content.take]
    cases content.kind.read text <;> rfl

/-- No text is read as a record. -/
theorem taken_insideSettings (tag : Tag) (inside rest : Record) :
    (insideSettings (.tagged tag) inside.schema).taken text? (nested (.tagged tag) inside rest) =
      nested (.tagged tag) inside rest := by
  simp only [insideSettings, Schema.taken, List.foldl_cons, List.foldl_nil, Setting.take]
  split <;> rfl

theorem taken_schema (r : Record) : r.schema.taken text? r = r.filled text? := by
  induction r with
  | done => rfl
  | field mark content rest ih =>
    have hrest : ∀ c, (rest.schema.within overRest).taken text? (field mark c rest) = field mark c (rest.filled text?) := by
      intro c
      rw [Schema.taken_within text? (field mark c) fun _ _ => rfl, ih]
    rw [schema, Schema.taken_append]
    cases mark with
    | plain => exact hrest content
    | hidden tag => exact hrest content
    | tagged tag =>
      rw [taken_ownSetting]
      exact hrest _
  | nested mark inside rest ihInside ihRest =>
    have hrest : ∀ part, (rest.schema.within overRest).taken text? (nested mark part rest) =
        nested mark part (rest.filled text?) := by
      intro part
      rw [Schema.taken_within text? (nested mark part) fun _ _ => rfl, ihRest]
    rw [schema, Schema.taken_append]
    cases mark with
    | plain =>
      rw [insideSettings, Schema.taken_within text? (fun part => nested .plain part rest) fun _ _ => rfl, ihInside]
      exact hrest _
    | hidden tag => exact hrest inside
    | tagged tag =>
      rw [taken_insideSettings]
      exact hrest inside

end Filling

end Record

/-- Each tagged field that can be reached is filled from the first of its sources that has a text.
If one of these texts cannot be read, the first such field in order is reported. -/
theorem sources_fill_record (r : Record) {e : Environment} {file : Octets} (hload : (load e file).2 = none) :
    (r.schema.fill (load e file).1 r).2 = r.failure? (sourceText? e file) ∧
      (r.failure? (sourceText? e file) = none →
        r.schema.fill (load e file).1 r = (r.filled (sourceText? e file), none)) := by
  have hchosen : ∀ s : Setting Record, s.chosen? (load e file).1 = sourceText? e file s.tag :=
    fun s => s.chosen?_load hload
  refine ⟨?_, fun hread => ?_⟩
  · rw [Schema.fill_error hchosen, Record.failure?_schema]
  · rw [Schema.fill_taken hchosen _ _ (by rw [Record.failure?_schema, hread]), Record.taken_schema]

namespace Realm

/-- A variable with a text and one that is set to nothing. -/
def surroundings : Environment := ⟨[("REALM", ofString "north"), ("LOG_LEVEL", [])]⟩

/-- The leaf for `AUTH_OPEN` that counts is the first, and it reads what another leaf has set. -/
def file : Octets :=
  ofString "realm: south\nlog_level: DEBUG\nflag: '1'\nauth:\n  open: $\x7bFLAG:-0\x7d # as above\n  open: no\n"

def record (level realm : Octets) (access : Bool) : Record :=
  .field (.tagged ⟨"LOG_LEVEL", some "INFO"⟩) (.value .text level)
    (.field (.tagged ⟨"REALM", none⟩) (.value .text realm)
      (.nested .plain
        (.field (.tagged ⟨"AUTH_OPEN", some "no"⟩) (.value .switch access)
          (.field (.tagged ⟨"AUTH_NAME", none⟩) (.value .text (ofString "kept")) .done))
        .done))

/-- The default where a variable is set to nothing, the environment before the file, and the first
leaf where nothing is set. -/
theorem record_filled : (load surroundings file).2 = none ∧
    (record [] [] false).schema.fill (load surroundings file).1 (record [] [] false) =
      (record (ofString "INFO") (ofString "north") true, none) := by
  have hlevel : sourceText? surroundings file ⟨"LOG_LEVEL", some "INFO"⟩ = some (ofString "INFO") := by decide +kernel
  have hrealm : sourceText? surroundings file ⟨"REALM", none⟩ = some (ofString "north") := by decide +kernel
  have hopen : sourceText? surroundings file ⟨"AUTH_OPEN", some "no"⟩ = some (ofString "1") := by decide +kernel
  have hname : sourceText? surroundings file ⟨"AUTH_NAME", none⟩ = none := by decide +kernel
  have hswitch : readSwitch? (Text.Utf8.toString (ofString "1")) = some true := by decide +kernel
  have hload : (load surroundings file).2 = none := by decide +kernel
  have hread : (record [] [] false).failure? (sourceText? surroundings file) = none := by
    simp [Record.failure?, Record.fields, record, Tag.failure?, hlevel, hrealm, hopen, hname, Content.kind, Kind.read,
      hswitch]
  refine ⟨hload, ((sources_fill_record (record [] [] false) hload).2 hread).trans ?_⟩
  simp [Record.filled, record, Content.take, hlevel, hrealm, hopen, hname, Content.kind, Kind.read, hswitch]

/-- A hidden field keeps what it holds, although its tag has a default. -/
theorem hidden_field_not_filled :
    let r : Record := .field (.hidden (some ⟨"TOKEN", some "x"⟩)) (.value .text []) .done
    (load {} []).2 = none ∧ sourceText? {} [] ⟨"TOKEN", some "x"⟩ = some (ofString "x") ∧
      r.schema.fill (load {} []).1 r = (r, none) := by
  exact ⟨by decide +kernel, by decide +kernel, rfl⟩

end Realm

end BinFleet.Settings
