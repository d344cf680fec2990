import BinFleet.Proofs.Settings.Loading
import Mathlib.Data.List.TakeWhile

namespace BinFleet.Settings

open Text.Utf8 (Symbol symbols encode ofString ofSymbols)

/-- A key: a word of ASCII letters, digits and underscores. -/
structure Word where
  text : String
  ne_nil : text.toList ≠ []
  plain : text.toList.all fun c => c.isAlphanum || c == '_'

def isSpace (s : Symbol) : Bool := !s.isStray && Text.isBlank s.toChar

theorem trimSymbols_eq (xs : List Symbol) : Text.trimSymbols xs = Text.stripWhere isSpace xs := rfl

/-- What is taken off the ends of a value. -/
def isWrapping (s : Symbol) : Bool := isSpace s || isQuote s

/-- A value that a file shows as it is: one line of text without a comment that is no placeholder. -/
structure Plain where
  octets : Octets
  ne_nil : octets ≠ []
  oneLine : 0x0a ∉ octets
  settable : 0 ∉ octets
  first : ∀ s ∈ (symbols octets).head?, ¬ isWrapping s
  last : ∀ s ∈ (symbols octets).getLast?, ¬ isWrapping s
  noComment : ¬ ofString " #" <:+: octets
  noPlaceholder : ¬ (ofString "$\x7b" <+: octets ∧ ofString "\x7d" <:+ octets)

/-- The entries of a section and what follows them in it. -/
inductive Outline where
  | done
  | leaf (key : Word) (value : Plain) (rest : Outline)
  | group (key : Word) (inside rest : Outline)

/-- The variable at the end of a path. -/
def pathName (path : List Word) (key : Word) : String :=
  Text.upper ("_".intercalate ((path ++ [key]).map Word.text))

/-- The variables that the leaves stand for. -/
def Outline.bindings (path : List Word) : Outline → List (String × Octets)
  | done => []
  | leaf key value rest => (pathName path key, value.octets) :: rest.bindings path
  | group key inside rest => inside.bindings (path ++ [key]) ++ rest.bindings path

def headingLine (indent : Nat) (key : Word) : Octets :=
  encode (List.replicate indent ' ' ++ key.text.toList ++ [':'])

def leafLine (indent : Nat) (key : Word) (value : Plain) : Octets :=
  encode (List.replicate indent ' ' ++ key.text.toList ++ [':', ' ']) ++ value.octets

/-- Blank lines and comments. -/
structure IsSilent (line : Octets) : Prop where
  oneLine : 0x0a ∉ line
  shown : ∃ blanks : List Char, (∀ c ∈ blanks, Text.isBlank c) ∧
    (line = encode blanks ∨ ∃ comment, line = encode (blanks ++ ['#']) ++ comment)

/-- Lines that show an outline. Its own entries are indented alike, those of a section inside it
deeper, and silent lines may stand anywhere. -/
inductive Shows : Nat → Outline → List Octets → Prop
  | done (indent) : Shows indent .done []
  | silent {indent outline line lines} : IsSilent line → Shows indent outline lines →
      Shows indent outline (line :: lines)
  | leaf {indent key value rest lines} : Shows indent rest lines →
      Shows indent (.leaf key value rest) (leafLine indent key value :: lines)
  | group {indent key inside rest deeper within lines} : indent < deeper → Shows deeper inside within →
      Shows indent rest lines →
      Shows indent (.group key inside rest) (headingLine indent key :: (within ++ lines))

theorem Word.wordChar (key : Word) {c : Char} (hc : c ∈ key.text.toList) : c.isAlphanum ∨ c = '_' := by
  simpa using List.all_eq_true.mp key.plain c hc

/-- Characters that may stand in a key. -/
theorem wordChar_cases {c : Char} (h : c.isAlphanum ∨ c = '_') :
    ¬ Text.isBlank c ∧ c ∉ ['#', ':'] ∧ Text.upperChar c ≠ '=' ∧ Text.upperChar c ≠ '\x00' := by
  have hlt : c.toNat < 0x80 := by
    rcases h with h | rfl
    · unfold Char.isAlphanum Char.isAlpha Char.isUpper Char.isLower Char.isDigit at h
      simp only [Bool.or_eq_true, Bool.and_eq_true, decide_eq_true_eq, UInt32.le_iff_toNat_le, ge_iff_le] at h
      change ((65 ≤ c.toNat ∧ c.toNat ≤ 90) ∨ 97 ≤ c.toNat ∧ c.toNat ≤ 122) ∨ 48 ≤ c.toNat ∧ c.toNat ≤ 57 at h
      omega
    · decide
  have hall : ∀ k : Fin 0x80, (Char.ofNat k).isAlphanum ∨ Char.ofNat k = '_' →
      ¬ Text.isBlank (Char.ofNat k) ∧ Char.ofNat k ∉ ['#', ':'] ∧
        Text.upperChar (Char.ofNat k) ≠ '=' ∧ Text.upperChar (Char.ofNat k) ≠ '\x00' := by
    decide +kernel
  have hc := hall ⟨c.toNat, hlt⟩
  rw [Char.ofNat_toNat] at hc
  exact hc h

namespace Word

variable (key : Word)

theorem mem_marks {s : Symbol} (h : s ∈ marks key.text) : ¬ isSpace s ∧ s ∉ marks "#:" := by
  obtain ⟨c, hc, rfl⟩ := List.mem_map.mp h
  obtain ⟨hblank, hmark, -⟩ := wordChar_cases (key.wordChar hc)
  simp only [List.mem_cons, List.not_mem_nil, or_false, not_or] at hmark
  simp [isSpace, Symbol.isStray, Symbol.toChar, hblank, marks, hmark]

theorem trimSymbols_marks : Text.trimSymbols (marks key.text) = marks key.text :=
  Text.stripWhere_of_ends (fun _ hs => (key.mem_marks (List.mem_of_mem_head? hs)).1)
    fun _ hs => (key.mem_marks (List.mem_of_mem_getLast? hs)).1

theorem marks_eq_cons : ∃ s rest, marks key.text = s :: rest := by
  obtain ⟨c, cs, hkey⟩ := List.exists_cons_of_ne_nil key.ne_nil
  exact ⟨.char c, cs.map .char, by simp [marks, hkey]⟩

/-- A line that starts with a key is a heading or a leaf. -/
theorem ofLine_keyed (indent : Nat) {tail : List Symbol}
    (hlast : ∀ s ∈ (marks key.text ++ tail).getLast?, ¬ isSpace s) :
    Statement.ofLine (List.replicate indent (.char ' ') ++ (marks key.text ++ tail)) =
      if (marks key.text ++ tail).getLast? == some (.char ':') &&
          (Text.cutAt? (marks ": ") (marks key.text ++ tail)).isNone then
        .heading indent (marks key.text ++ tail).dropLast
      else .ofLeaf indent (marks key.text ++ tail) := by
  obtain ⟨first, rest, hkey⟩ := key.marks_eq_cons
  obtain ⟨hspace, hmark⟩ := key.mem_marks (hkey ▸ List.mem_cons_self : first ∈ marks key.text)
  generalize hcontent : marks key.text ++ tail = content at hlast ⊢
  obtain rfl : first :: (rest ++ tail) = content := by rw [← hcontent, hkey, List.cons_append]
  have htrim : Text.trimSymbols (List.replicate indent (.char ' ') ++ first :: (rest ++ tail)) =
      first :: (rest ++ tail) := by
    have hspaces : ∀ s ∈ List.replicate indent (Symbol.char ' '), isSpace s := by
      intro s hs
      rw [List.eq_of_mem_replicate hs]
      rfl
    rw [trimSymbols_eq, Text.stripWhere_append hspaces]
    exact Text.stripWhere_of_ends (by simpa using hspace) hlast
  have hindent : ((List.replicate indent (Symbol.char ' ') ++ first :: (rest ++ tail)).takeWhile
      (· == .char ' ')).length = indent := by
    have hother : first ≠ .char ' ' := fun h => hspace (h ▸ rfl)
    rw [List.takeWhile_append_of_pos (by simp +contextual [List.mem_replicate])]
    simp [hother]
  have hshown : first ≠ .char '#' := fun h => hmark (h ▸ by decide)
  unfold Statement.ofLine
  simp only [htrim, hindent]
  simp [hshown]

end Word

namespace Plain

variable (value : Plain)

theorem symbols_ne_nil : symbols value.octets ≠ [] := by
  intro h
  have hback := Text.Utf8.ofSymbols_symbols value.octets
  rw [h] at hback
  exact value.ne_nil hback.symm

theorem stripWhere_symbols {drop : Symbol → Bool} (h : ∀ s, drop s → isWrapping s) :
    Text.stripWhere drop (symbols value.octets) = symbols value.octets :=
  Text.stripWhere_of_ends (fun s hs hdrop => value.first s hs (h s hdrop))
    fun s hs hdrop => value.last s hs (h s hdrop)

theorem trimSymbols_symbols : Text.trimSymbols (symbols value.octets) = symbols value.octets :=
  value.stripWhere_symbols fun s (hs : isSpace s) => by simp [isWrapping, hs]

theorem stripQuotes_symbols : Text.stripWhere isQuote (symbols value.octets) = symbols value.octets :=
  value.stripWhere_symbols fun s hs => by simp [isWrapping, hs]

theorem stripComment_symbols : stripComment (symbols value.octets) = symbols value.octets := by
  have hcut : Text.cutAt? (marks " #") (symbols value.octets) = none := by
    rw [Text.cutAt?_eq_none_iff]
    rintro ⟨before, after, hin⟩
    have hback := congrArg ofSymbols hin
    rw [Text.Utf8.ofSymbols_symbols] at hback
    exact value.noComment ⟨ofSymbols before, ofSymbols after, by
      simpa [ofSymbols, marks, ofString, encode, Symbol.octets] using hback⟩
  rw [stripComment, hcut, ite_self]

theorem placeholder?_symbols : placeholder? (symbols value.octets) = none := by
  cases hinner : placeholder? (symbols value.octets) with
  | none => rfl
  | some inner =>
    unfold placeholder? at hinner
    split at hinner
    · rename_i rest hread
      split_ifs at hinner with hlast
      obtain ⟨inner, rfl⟩ := List.getLast?_eq_some_iff.mp hlast
      have hback := congrArg ofSymbols hread
      rw [Text.Utf8.ofSymbols_symbols] at hback
      have hopens : ofString "$\x7b" <+: value.octets :=
        ⟨ofSymbols (inner ++ [.char '\x7d']), by simp [hback, ofSymbols, ofString, encode, Symbol.octets]⟩
      have hcloses : ofString "\x7d" <:+ value.octets :=
        ⟨ofSymbols (.char '$' :: .char '\x7b' :: inner), by simp [hback, ofSymbols, ofString, encode, Symbol.octets]⟩
      exact absurd ⟨hopens, hcloses⟩ value.noPlaceholder
    · simp at hinner

end Plain

section Lines

variable (indent : Nat) (key : Word)

theorem statement_headingLine : statement (headingLine indent key) = .heading indent (marks key.text) := by
  have hread : symbols (headingLine indent key) =
      List.replicate indent (.char ' ') ++ (marks key.text ++ [.char ':']) := by
    simp [headingLine, Text.Utf8.symbols_encode, marks]
  have hcut : Text.cutAt? (marks ": ") (marks key.text ++ [.char ':']) = none := by
    rw [Text.cutAt?_eq_none_iff]
    intro hin
    have hmem : Symbol.char ' ' ∈ marks key.text ++ [.char ':'] := hin.subset (by decide)
    rcases List.mem_append.mp hmem with h | h
    · exact (key.mem_marks h).1 rfl
    · simp at h
  rw [statement, hread, key.ofLine_keyed indent (by simp [isSpace, Symbol.isStray, Symbol.toChar, Text.isBlank])]
  simp [hcut]

theorem statement_leafLine (value : Plain) :
    statement (leafLine indent key value) = .leaf indent (marks key.text) (symbols value.octets) := by
  have hread : symbols (leafLine indent key value) =
      List.replicate indent (.char ' ') ++ (marks key.text ++ .char ':' :: .char ' ' :: symbols value.octets) := by
    simp [leafLine, Text.Utf8.symbols_append, marks]
  have hlast : ∀ s ∈ (marks key.text ++ .char ':' :: .char ' ' :: symbols value.octets).getLast?, ¬ isSpace s := by
    intro s hs hspace
    obtain ⟨last, hend⟩ := Option.ne_none_iff_exists'.mp (mt List.getLast?_eq_none_iff.mp value.symbols_ne_nil)
    have hs : last = s := by simpa [List.getLast?_append, List.getLast?_cons, hend] using hs
    exact value.last last hend (by simp [isWrapping, hs, hspace])
  have hcut : Text.cutAt? (marks ": ") (marks key.text ++ .char ':' :: .char ' ' :: symbols value.octets) ≠ none := by
    rw [Ne, Text.cutAt?_eq_none_iff, not_not]
    exact ⟨marks key.text, symbols value.octets, by simp [marks]⟩
  have hkey : Text.cut? (.char ':') (marks key.text ++ .char ':' :: .char ' ' :: symbols value.octets) =
      some (marks key.text, .char ' ' :: symbols value.octets) :=
    Text.cut?_append (fun h => (key.mem_marks h).2 (by decide)) _
  have htrim : Text.trimSymbols (.char ' ' :: symbols value.octets) = symbols value.octets := by
    have hblank : ∀ s ∈ [Symbol.char ' '], isSpace s := by decide
    exact (Text.stripWhere_append hblank _).trans value.trimSymbols_symbols
  rw [statement, hread, key.ofLine_keyed indent hlast]
  simp [hcut, Statement.ofLeaf, hkey, htrim, value.stripComment_symbols, value.symbols_ne_nil, key.trimSymbols_marks,
    value.stripQuotes_symbols]

theorem IsSilent.statement_eq {line : Octets} (h : IsSilent line) : statement line = .silent := by
  obtain ⟨blanks, hblanks, hline⟩ := h.shown
  have hspaces : ∀ s ∈ blanks.map Symbol.char, isSpace s := by
    intro s hs
    obtain ⟨c, hc, rfl⟩ := List.mem_map.mp hs
    exact hblanks c hc
  rcases hline with rfl | ⟨comment, rfl⟩
  · have htrim : Text.trimSymbols (blanks.map .char) = [] := by
      have hnone := Text.stripWhere_append hspaces []
      rwa [List.append_nil] at hnone
    simp [statement, Text.Utf8.symbols_encode, Statement.ofLine, htrim]
  · have htrim : (Text.trimSymbols (blanks.map .char ++ .char '#' :: symbols comment)).head? = some (.char '#') := by
      rw [trimSymbols_eq, Text.stripWhere_append hspaces]
      exact Text.head?_stripWhere_cons (by decide) _
    simp [statement, Text.Utf8.symbols_append, Statement.ofLine, htrim]

theorem not_mem_encode {cs : List Char} (h : ∀ c ∈ cs, c ≠ '\n') : 0x0a ∉ encode cs := by
  intro hmem
  obtain ⟨before, after, hsplit⟩ := List.append_of_mem hmem
  have hread : symbols (encode cs) = symbols before ++ .char '\n' :: symbols after := by
    rw [hsplit]
    exact Text.Utf8.symbols_around before (c := '\n') (by decide) after
  have hin : Symbol.char '\n' ∈ cs.map Symbol.char := by
    rw [← Text.Utf8.symbols_encode, hread]
    simp
  obtain ⟨c, hc, heq⟩ := List.mem_map.mp hin
  exact h c hc (Symbol.char.inj heq)

theorem Word.ne_break {mark : List Char} (hmark : ∀ c ∈ mark, c ≠ '\n') :
    ∀ c ∈ List.replicate indent ' ' ++ key.text.toList ++ mark, c ≠ '\n' := by
  intro c hc
  simp only [List.mem_append] at hc
  rcases hc with (hc | hc) | hc
  · rw [List.eq_of_mem_replicate hc]
    decide
  · rintro rfl
    exact (wordChar_cases (key.wordChar hc)).1 rfl
  · exact hmark c hc

theorem Shows.oneLine {indent : Nat} {outline : Outline} {lines : List Octets} (h : Shows indent outline lines) :
    ∀ line ∈ lines, 0x0a ∉ line := by
  induction h with
  | done => simp
  | silent hsilent _ ih => exact List.forall_mem_cons.mpr ⟨hsilent.oneLine, ih⟩
  | @leaf indent key value rest lines _ ih =>
    refine List.forall_mem_cons.mpr ⟨fun hmem => ?_, ih⟩
    rcases List.mem_append.mp hmem with hmem | hmem
    · exact not_mem_encode (key.ne_break indent (by simp)) hmem
    · exact value.oneLine hmem
  | @group indent key inside rest deeper within lines _ _ _ ihInside ihRest =>
    refine List.forall_mem_cons.mpr ⟨not_mem_encode (key.ne_break indent (by simp)), fun line hline => ?_⟩
    exact (List.mem_append.mp hline).elim (ihInside line) (ihRest line)

end Lines

section Sections

variable {sections : List Heading} {i j : Nat}

theorem around_around (sections : List Heading) (h : j ≤ i) : around (around sections i) j = around sections j := by
  induction sections with
  | nil => rfl
  | cons s rest ih =>
    by_cases hs : i ≤ s.indent
    · have hj : j ≤ s.indent := Nat.le_trans h hs
      simpa [around, hs, hj] using ih
    · simp [around, hs]

theorem around_cons_of_lt (name : List Symbol) (h : i < j) : around (⟨i, name⟩ :: sections) j = ⟨i, name⟩ :: sections :=
  List.dropWhile_cons_of_neg (by simpa using h)

theorem around_cons_of_le (name : List Symbol) (h : j ≤ i) : around (⟨i, name⟩ :: sections) j = around sections j :=
  List.dropWhile_cons_of_pos (by simpa using h)

end Sections

/-- The path that the names of open sections make. -/
def Follows (sections : List Heading) (path : List Word) : Prop :=
  (sections.map (·.name)).reverse = path.map fun key => marks key.text

theorem Follows.variableName {sections : List Heading} {path : List Word} (h : Follows sections path) (key : Word) :
    Loader.variableName ⟨sections, {}⟩ (marks key.text) = pathName path key := by
  have hword : ∀ w : Word, String.ofList ((marks w.text).map Symbol.toChar) = w.text := by
    intro w
    simp [marks, Function.comp_def, Symbol.toChar]
  unfold Loader.variableName pathName
  simp only [Follows] at h
  simp [h, Function.comp_def, hword]

theorem Follows.enter {sections : List Heading} {path : List Word} (h : Follows sections path) (indent : Nat) (key : Word) :
    Follows (⟨indent, marks key.text⟩ :: sections) (path ++ [key]) := by
  simp only [Follows] at h
  simp [Follows, h]

/-- The leaf that shows a variable. -/
def leafOf (v : String × Octets) : Leaf := ⟨v.1, symbols v.2⟩

/-- The lines of an outline set its variables, and leave open what was open around them. -/
theorem leavesFrom_shown {indent : Nat} {outline : Outline} {lines : List Octets} (h : Shows indent outline lines)
    {sections : List Heading} {path : List Word} (hpath : Follows (around sections indent) path) :
    ∃ left, (∀ outer ≤ indent, around left outer = around sections outer) ∧ ∀ more,
      leavesFrom sections (lines.map statement ++ more) =
        (outline.bindings path).map leafOf ++ leavesFrom left more := by
  induction h generalizing sections path with
  | done => exact ⟨sections, fun _ _ => rfl, fun _ => rfl⟩
  | silent hsilent _ ih =>
    obtain ⟨left, hleft, hleaves⟩ := ih hpath
    refine ⟨left, hleft, fun more => ?_⟩
    rw [List.map_cons, hsilent.statement_eq, ← hleaves]
    rfl
  | @leaf indent key value rest lines _ ih =>
    have hstill : Follows (around (around sections indent) indent) path := by rwa [around_around _ (Nat.le_refl _)]
    obtain ⟨left, hleft, hleaves⟩ := ih hstill
    refine ⟨left, fun outer houter => (hleft outer houter).trans (around_around _ houter), fun more => ?_⟩
    rw [List.map_cons, statement_leafLine, List.cons_append, leavesFrom, hleaves, hpath.variableName]
    rfl
  | @group indent key inside rest deeper within lines hdeeper _ _ ihInside ihRest =>
    have hentered : Follows (around (⟨indent, marks key.text⟩ :: around sections indent) deeper) (path ++ [key]) := by
      rw [around_cons_of_lt _ hdeeper]
      exact hpath.enter indent key
    obtain ⟨inner, hinner, hinside⟩ := ihInside hentered
    have hback : ∀ outer ≤ indent, around inner outer = around sections outer := by
      intro outer houter
      rw [hinner outer (Nat.le_trans houter (Nat.le_of_lt hdeeper)), around_cons_of_le _ houter, around_around _ houter]
    have hstill : Follows (around inner indent) path := by rwa [hback indent (Nat.le_refl _)]
    obtain ⟨left, hleft, hleaves⟩ := ihRest hstill
    refine ⟨left, fun outer houter => (hleft outer houter).trans (hback outer houter), fun more => ?_⟩
    rw [List.map_cons, statement_headingLine, List.map_append, List.cons_append, List.append_assoc, leavesFrom, hinside,
      hleaves, Outline.bindings, List.map_append, List.append_assoc]

/-- The lines of a file that shows an outline show it; an empty file is an empty line. -/
theorem Shows.splitList {indent : Nat} {outline : Outline} {lines : List Octets} (h : Shows indent outline lines) :
    Shows indent outline (Text.splitList 0x0a ([0x0a].intercalate lines)) ∧
      ∀ line ∈ Text.splitList 0x0a ([0x0a].intercalate lines), line = [] ∨ line ∈ lines := by
  cases lines with
  | nil => exact ⟨.silent ⟨by simp, [], by simp, .inl rfl⟩ h, by simp [List.intercalate, Text.splitList]⟩
  | cons line lines =>
    rw [Text.splitList_intercalate (by simp) h.oneLine]
    exact ⟨h, fun _ hline => .inr hline⟩

theorem leaves_of_shows {indent : Nat} {outline : Outline} {file : Octets}
    (h : Shows indent outline (Text.splitList 0x0a file)) (hfits : ∀ line ∈ Text.splitList 0x0a file, fits line) :
    leaves file = (outline.bindings []).map leafOf := by
  have hpath : Follows (around [] indent) [] := rfl
  obtain ⟨left, -, hleaves⟩ := leavesFrom_shown h hpath
  have hall := hleaves []
  rw [List.append_nil] at hall
  rw [leaves, List.takeWhile_eq_self_iff.mpr hfits, hall]
  exact List.append_nil _

/-- Joined words have only characters of words. -/
theorem wordChar_of_mem_intercalate {words : List Word} {c : Char}
    (h : c ∈ ['_'].intercalate (words.map fun w => w.text.toList)) : c.isAlphanum ∨ c = '_' := by
  induction words with
  | nil => simp [List.intercalate] at h
  | cons word rest ih =>
    cases rest with
    | nil =>
      rw [List.map_singleton, List.intercalate_singleton] at h
      exact word.wordChar h
    | cons next rest =>
      rw [List.map_cons, List.map_cons, List.intercalate_cons_cons, List.append_assoc] at h
      rcases List.mem_append.mp h with h | h
      · exact word.wordChar h
      · rcases List.mem_cons.mp h with rfl | h
        · exact .inr rfl
        · exact ih h

theorem exists_intercalate_concat {α : Type} (mark : List α) (pieces : List (List α)) (last : List α) :
    ∃ front, mark.intercalate (pieces ++ [last]) = front ++ last := by
  induction pieces with
  | nil => exact ⟨[], List.intercalate_singleton⟩
  | cons piece rest ih =>
    obtain ⟨front, hrest⟩ := ih
    cases rest with
    | nil => exact ⟨piece ++ mark, by simp [List.intercalate_cons_cons]⟩
    | cons next rest =>
      refine ⟨piece ++ mark ++ front, ?_⟩
      rw [List.append_assoc, ← hrest]
      simp [List.intercalate_cons_cons]

theorem toList_pathName (path : List Word) (key : Word) :
    (pathName path key).toList =
      (['_'].intercalate ((path ++ [key]).map fun w => w.text.toList)).map Text.upperChar := by
  rw [pathName, Text.upper, String.toList_ofList, String.toList_intercalate, List.map_map]
  rfl

theorem pathName_settable (path : List Word) (key : Word) (value : Plain) :
    Environment.isSettable (pathName path key) value.octets := by
  have hchars : ∀ c ∈ (pathName path key).toList, c ≠ '=' ∧ c ≠ '\x00' := by
    intro c hc
    rw [toList_pathName] at hc
    obtain ⟨d, hd, rfl⟩ := List.mem_map.mp hc
    exact (wordChar_cases (wordChar_of_mem_intercalate hd)).2.2
  have hne : pathName path key ≠ "" := by
    obtain ⟨front, hjoined⟩ := exists_intercalate_concat ['_'] (path.map fun w => w.text.toList) key.text.toList
    have hlist := toList_pathName path key
    rw [List.map_append, List.map_singleton, hjoined] at hlist
    intro h
    simp [h, key.ne_nil] at hlist
  have hvalue : ∀ b ∈ value.octets, b ≠ 0 := fun b hb h => value.settable (h ▸ hb)
  simp only [Environment.isSettable, Bool.and_eq_true, bne_iff_ne, List.all_eq_true]
  exact ⟨⟨hne, hchars⟩, hvalue⟩

theorem Outline.mem_bindings {outline : Outline} {path : List Word} {v : String × Octets}
    (h : v ∈ outline.bindings path) : ∃ path' key, ∃ value : Plain, v = (pathName path' key, value.octets) := by
  induction outline generalizing path with
  | done => simp [bindings] at h
  | leaf key value rest ih =>
    rcases List.mem_cons.mp h with rfl | h
    · exact ⟨path, key, value, rfl⟩
    · exact ih h
  | group key inside rest ihInside ihRest =>
    rcases List.mem_append.mp h with h | h
    · exact ihInside h
    · exact ihRest h

/-- Text that stands for itself. -/
theorem substitute_of_plain {value : List Symbol} (h : placeholder? value = none) (e : Environment) :
    substitute e value = ofSymbols value := by
  rw [substitute, h]

/-- Variables that a file shows can all be set, each to the value it is shown with. -/
def Showable (vs : List (String × Octets)) : Prop :=
  ∀ v ∈ vs, Environment.isSettable v.1 v.2 ∧ placeholder? (symbols v.2) = none

theorem Outline.showable (outline : Outline) (path : List Word) : Showable (outline.bindings path) := by
  intro v hv
  obtain ⟨path', key, value, rfl⟩ := outline.mem_bindings hv
  exact ⟨pathName_settable path' key value, value.placeholder?_symbols⟩

section Exports

variable {v : String × Octets} {e : Environment}

theorem exportAll_leafOf (vs : List (String × Octets)) (hset : Environment.isSettable v.1 v.2)
    (hplain : placeholder? (symbols v.2) = none) (hnew : e.get? (leafOf v).name = none) :
    exportAll e (leafOf v :: vs.map leafOf) = exportAll ⟨e.entries ++ [v]⟩ (vs.map leafOf) := by
  have htext : substitute e (leafOf v).value = v.2 := by
    rw [leafOf, substitute_of_plain hplain, Text.Utf8.ofSymbols_symbols]
  rw [exportAll_of_settable _ hnew (by rwa [htext]), htext]
  rfl

theorem exportAll_showable (e : Environment) {vs : List (String × Octets)} (h : Showable vs) :
    (exportAll e (vs.map leafOf)).2 = none := by
  induction vs generalizing e with
  | nil => rfl
  | cons v vs ih =>
    obtain ⟨⟨hset, hplain⟩, hrest⟩ := List.forall_mem_cons.mp h
    rw [List.map_cons]
    by_cases hv : e.get? v.1 = none
    · rw [exportAll_leafOf vs hset hplain hv]
      exact ih _ hrest
    · rw [exportAll_of_set _ hv]
      exact ih e hrest

theorem exportAll_fresh {vs : List (String × Octets)} (h : Showable vs)
    (hnew : ∀ v ∈ vs, e.get? v.1 = none) (hdistinct : (vs.map (·.1)).Nodup) :
    (exportAll e (vs.map leafOf)).1 = ⟨e.entries ++ vs⟩ := by
  induction vs generalizing e with
  | nil => simp [exportAll]
  | cons v vs ih =>
    obtain ⟨⟨hset, hplain⟩, hrest⟩ := List.forall_mem_cons.mp h
    obtain ⟨hv, hvs⟩ := List.forall_mem_cons.mp hnew
    obtain ⟨hother, hdistinct⟩ := List.nodup_cons.mp hdistinct
    have hstill : ∀ w ∈ vs, Environment.get? ⟨e.entries ++ [v]⟩ w.1 = none := by
      intro w hw
      have hne : w.1 ≠ v.1 := fun heq => hother (List.mem_map.mpr ⟨w, hw, heq⟩)
      rw [Environment.get?_concat, hvs w hw, if_neg hne]
      rfl
    rw [List.map_cons, exportAll_leafOf vs hset hplain hv, ih hrest hstill hdistinct, List.append_assoc,
      List.singleton_append]

end Exports

/-- A tree of settings is loaded as it is shown. Loading never fails, and each leaf becomes the
variable named by its path, in capitals and joined by underscores, when these names are new and
differ from each other. -/
theorem shown_outline_loads {indent : Nat} {outline : Outline} {lines : List Octets}
    (hshows : Shows indent outline lines) (hfits : ∀ line ∈ lines, line.length < lineLimit) (e : Environment) :
    (load e ([0x0a].intercalate lines)).2 = none ∧
      ((∀ v ∈ outline.bindings [], e.get? v.1 = none) → ((outline.bindings []).map (·.1)).Nodup →
        load e ([0x0a].intercalate lines) = (⟨e.entries ++ outline.bindings []⟩, none)) := by
  obtain ⟨hlines, hmem⟩ := hshows.splitList
  have hshort : ∀ line ∈ Text.splitList 0x0a ([0x0a].intercalate lines), fits line := by
    intro line hline
    rcases hmem line hline with rfl | hline
    · decide
    · simpa [fits] using hfits line hline
  have hleaves := leaves_of_shows hlines hshort
  have hnone : (load e ([0x0a].intercalate lines)).2 = none := by
    rw [load_eq, hleaves, exportAll_showable e (outline.showable []), if_pos (List.all_eq_true.mpr hshort)]
    rfl
  refine ⟨hnone, fun hnew hdistinct => Prod.ext ?_ hnone⟩
  rw [load_eq, hleaves]
  exact exportAll_fresh (outline.showable []) hnew hdistinct

/-- Two levels inside a section that is left at once, and a value with colons. -/
def mapOutline : Outline :=
  .group ⟨"map", by decide, by decide⟩
    (.group ⟨"center", by decide, by decide⟩
      (.leaf ⟨"lat", by decide, by decide⟩
        ⟨ofString "31.77", by decide, by decide, by decide,
          by decide +kernel, by decide +kernel, by decide +kernel, by decide +kernel⟩ .done)
      (.group ⟨"view_2", by decide, by decide⟩
        (.leaf ⟨"title", by decide, by decide⟩
          ⟨ofString "bins: a:", by decide, by decide, by decide,
            by decide +kernel, by decide +kernel, by decide +kernel, by decide +kernel⟩ .done)
        .done))
    (.leaf ⟨"log_level", by decide, by decide⟩
      ⟨ofString "INFO", by decide, by decide, by decide,
        by decide +kernel, by decide +kernel, by decide +kernel, by decide +kernel⟩ .done)

theorem map_outline_loads :
    load ⟨[("HOME", ofString "/")]⟩
        (ofString "map:\n  center:\n        lat: 31.77\n\n  view_2:\n   title: bins: a:\n # levels\nlog_level: INFO") =
      (⟨[("HOME", ofString "/"), ("MAP_CENTER_LAT", ofString "31.77"), ("MAP_VIEW_2_TITLE", ofString "bins: a:"),
        ("LOG_LEVEL", ofString "INFO")]⟩, none) := by
  have hsilent : IsSilent (ofString " # levels") :=
    ⟨by decide +kernel, [' '], by simp [Text.isBlank], .inr ⟨ofString " levels", by decide +kernel⟩⟩
  have hblank : IsSilent [] := ⟨by simp, [], by simp, .inl rfl⟩
  have hshows : Shows 0 mapOutline _ :=
    .group (by decide : 0 < 2)
      (.group (by decide : 2 < 8) (.leaf (.done 8))
        (.silent hblank (.group (by decide : 2 < 3) (.leaf (.silent hsilent (.done 3))) (.done 2))))
      (.leaf (.done 0))
  have hbindings : mapOutline.bindings [] = [("MAP_CENTER_LAT", ofString "31.77"),
      ("MAP_VIEW_2_TITLE", ofString "bins: a:"), ("LOG_LEVEL", ofString "INFO")] := by
    decide +kernel
  have hload := (shown_outline_loads hshows (by decide +kernel) ⟨[("HOME", ofString "/")]⟩).2
    (by decide +kernel) (by decide +kernel)
  rw [hbindings] at hload
  refine (congrArg (load _) ?_).trans hload
  decide +kernel

end BinFleet.Settings
