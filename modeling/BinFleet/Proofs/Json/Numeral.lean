import BinFleet.Proofs.Json.Value
import BinFleet.Reading

namespace BinFleet.Number.Literal

theorem ofDigitChars_mono (ds : List Char) {m n : ℕ} (h : m ≤ n) :
    Nat.ofDigitChars 10 ds m ≤ Nat.ofDigitChars 10 ds n := by
  have hvalue (k : ℕ) : Nat.ofDigitChars 10 ds k = 10 ^ ds.length * k + Nat.ofDigitChars 10 ds 0 :=
    Nat.ofDigitChars_eq_ofDigitChars_zero
  rw [hvalue m, hvalue n]
  gcongr

/-- Digits of an exponent are all taken, also those that it does not grow by any more. -/
theorem exponentDigits_bounds {ds : List Char} (h : ∀ c ∈ ds, c.isDigit = true) (e : ℕ) :
    ∃ e', exponentDigits e ds = (e', []) ∧ min 10000 (Nat.ofDigitChars 10 ds e) ≤ e' ∧
      e' ≤ Nat.ofDigitChars 10 ds e := by
  induction ds generalizing e with
  | nil => exact ⟨e, rfl, by simp, by simp⟩
  | cons c ds ih =>
    obtain ⟨hc, hds⟩ := List.forall_mem_cons.mp h
    rw [exponentDigits, if_neg (ne_of_isDigit hc rfl), decimalDigit?_of_isDigit hc, Nat.ofDigitChars_cons]
    dsimp only
    split_ifs with hsmall
    · rw [Nat.mul_comm e 10]
      exact ih hds _
    · obtain ⟨e', hread, hlow, hhigh⟩ := ih hds e
      have hstart := le_ofDigitChars ds e
      have hmore : Nat.ofDigitChars 10 ds e ≤ Nat.ofDigitChars 10 ds (10 * e + (c.toNat - '0'.toNat)) :=
        ofDigitChars_mono ds (by omega)
      exact ⟨e', hread, by omega, by omega⟩

/-- Nothing can be wrong with the value of a literal but its size. -/
theorem round_error {f : BinaryFormat} {l : Literal} {e : LiteralError} (h : l.round f = .error e) : e = .outOfRange := by
  cases l with
  | infinite negative => simp [round] at h
  | undefined => simp [round] at h
  | decimal negative digits exponent | binary negative digits exponent =>
    simp only [round] at h
    split_ifs at h
    · exact (Except.error.inj h).symm
    · split at h
      · cases h
      · exact (Except.error.inj h).symm

end BinFleet.Number.Literal

namespace BinFleet.Json

open Number (Literal)
open Reader (read?_render)

/-- An exponent: a mark, a sign that may be left out, and digits. -/
structure Exponent where
  mark : Char
  sign : List Char
  digits : List Char
  isMark : mark = 'e' ∨ mark = 'E'
  isSign : sign = [] ∨ sign = ['+'] ∨ sign = ['-']
  digits_ne : digits ≠ []
  isDigit : ∀ c ∈ digits, c.isDigit = true

namespace Exponent

def text (x : Exponent) : List Char := x.mark :: (x.sign ++ x.digits)

def power (x : Exponent) : ℤ :=
  if x.sign = ['-'] then -(Nat.ofDigitChars 10 x.digits 0 : ℤ) else Nat.ofDigitChars 10 x.digits 0

/-- Exponents of more than five digits are cut off, but they stay large. -/
structure CutOff (written read : ℤ) : Prop where
  exact : |written| < 100000 → read = written
  large : 100000 ≤ written → 10000 ≤ read ∧ read ≤ written
  small : written ≤ -100000 → written ≤ read ∧ read ≤ -10000

theorem CutOff.refl {power : ℤ} (h : |power| < 100000) : CutOff power power where
  exact _ := rfl
  large hp := by rw [abs_lt] at h; omega
  small hp := by rw [abs_lt] at h; omega

theorem exponent?_text (x : Exponent) : ∃ e, CutOff x.power e ∧ Literal.exponent? (x.sign ++ x.digits) = some e := by
  obtain ⟨e, hread, hlow, hhigh⟩ := Literal.exponentDigits_bounds x.isDigit 0
  refine ⟨_, ?_, Literal.exponent?_eq x.isSign x.digits_ne x.isDigit hread⟩
  have hexact (h : Nat.ofDigitChars 10 x.digits 0 < 100000) : e = Nat.ofDigitChars 10 x.digits 0 := by
    rw [Literal.exponentDigits_eq x.isDigit h] at hread
    exact (Prod.mk.inj hread).1.symm
  unfold power
  split_ifs
  all_goals
    refine ⟨fun h => ?_, fun h => by omega, fun h => by omega⟩
    rw [hexact (by rw [abs_lt] at h; omega)]

end Exponent

/-- A number as JSON has it: digits without a leading zero, digits after a point, and an exponent. The
last two may be left out. -/
structure Numeral where
  negative : Bool
  whole : List Char
  fraction : List Char
  exponent : Option Exponent
  lead : whole = ['0'] ∨ ∃ c rest, whole = c :: rest ∧ c ≠ '0'
  isDigit_whole : ∀ c ∈ whole, c.isDigit = true
  isDigit_fraction : ∀ c ∈ fraction, c.isDigit = true

namespace Numeral

def exponentText (n : Numeral) : List Char := n.exponent.elim [] Exponent.text

def power (n : Numeral) : ℤ := n.exponent.elim 0 Exponent.power

def unsigned (n : Numeral) : List Char :=
  n.whole ++ ((if n.fraction.isEmpty then [] else '.' :: n.fraction) ++ n.exponentText)

def text (n : Numeral) : List Char := (if n.negative then ['-'] else []) ++ n.unsigned

/-- The literal has the digits of the number, and its exponent unless that is cut off. -/
def Names (n : Numeral) (l : Literal) : Prop :=
  ∃ e, Exponent.CutOff n.power e ∧
    l = .decimal n.negative (Nat.ofDigitChars 10 (n.whole ++ n.fraction) 0) (e - n.fraction.length)

/-- What holds of digits and of the marks between them holds all over a number. -/
theorem forall_text (n : Numeral) {P : Char → Prop} (hdigit : ∀ c : Char, c.isDigit = true → P c)
    (hmark : ∀ c ∈ ['.', 'e', 'E', '+', '-'], P c) : ∀ c ∈ n.text, P c := by
  have hdigits {ds : List Char} (h : ∀ c ∈ ds, c.isDigit = true) : ∀ c ∈ ds, P c := fun c hc => hdigit c (h c hc)
  have hexponent : ∀ c ∈ n.exponentText, P c := by
    unfold exponentText
    cases n.exponent with
    | none => simp
    | some x =>
      have hfirst : P x.mark := by rcases x.isMark with h | h <;> exact h ▸ hmark _ (by simp)
      have hsign : ∀ c ∈ x.sign, P c := by rcases x.isSign with h | h | h <;> simp [h, hmark]
      exact List.forall_mem_cons.mpr ⟨hfirst, List.forall_mem_append.mpr ⟨hsign, hdigits x.isDigit⟩⟩
  have hpoint : ∀ c ∈ (if n.fraction.isEmpty then [] else '.' :: n.fraction), P c := by
    split_ifs
    · simp
    · exact List.forall_mem_cons.mpr ⟨hmark _ (by simp), hdigits n.isDigit_fraction⟩
  have hsign : ∀ c ∈ (if n.negative then ['-'] else []), P c := by
    split_ifs
    · simpa using hmark '-' (by simp)
    · simp
  simp only [text, unsigned, List.forall_mem_append]
  exact ⟨hsign, hdigits n.isDigit_whole, hpoint, hexponent⟩

theorem decimal?_unsigned (n : Numeral) : ∃ l, n.Names l ∧ Literal.decimal? n.negative n.unsigned = some l := by
  have hstop (m : Literal.Mantissa) :
      Literal.mantissa Literal.decimalDigit? 10 m n.exponentText = (m, n.exponentText) := by
    unfold exponentText
    cases n.exponent with
    | none => rfl
    | some x => rcases x.isMark with h | h <;> simp only [Option.elim_some, Exponent.text, h] <;> rfl
  have hscan := Literal.mantissa_pointed n.isDigit_whole n.isDigit_fraction hstop
  have hlength : n.whole.length ≠ 0 := by
    rcases n.lead with h | ⟨c, rest, h, -⟩ <;> simp [h]
  simp only [Literal.decimal?, unsigned, hscan]
  rw [if_neg (by omega)]
  unfold Names power exponentText
  cases n.exponent with
  | none => exact ⟨_, ⟨0, .refl (by decide), rfl⟩, by simp⟩
  | some x =>
    obtain ⟨e, hcut, hread⟩ := x.exponent?_text
    refine ⟨_, ⟨e, hcut, rfl⟩, ?_⟩
    simp only [Option.elim_some, Exponent.text, if_pos x.isMark, hread, Option.map_some]

theorem parse?_text (n : Numeral) : ∃ l, n.Names l ∧ Literal.parse? n.text = some l := by
  have hfirst : ∃ c rest, n.unsigned = c :: rest ∧ c.isDigit = true := by
    rcases n.lead with h | ⟨c, rest, h, -⟩
    · exact ⟨'0', _, by rw [unsigned, h, List.cons_append], by decide⟩
    · exact ⟨c, _, by rw [unsigned, h, List.cons_append], n.isDigit_whole c (by simp [h])⟩
  have hplain : ∀ x ∈ ['_', 'x', 'X'], x ∉ n.unsigned := by
    intro x hx hmem
    have hother : ∀ c ∈ n.text, c.isDigit = true ∨ c ∈ ['.', 'e', 'E', '+', '-'] :=
      n.forall_text (fun c => .inl) fun c => .inr
    simp only [List.mem_cons, List.not_mem_nil, or_false] at hx
    rcases hx with rfl | rfl | rfl <;> exact absurd (hother _ (List.mem_append_right _ hmem)) (by decide)
  rw [text, Literal.parse?_of_digit n.negative hfirst hplain]
  exact n.decimal?_unsigned

/-- A number is read as the value of its literal. -/
theorem read_text (n : Numeral) :
    ∃ l, n.Names l ∧ Number.read (String.ofList n.text) = (l.round .double).map Number.Double.toFloat := by
  obtain ⟨l, hnames, hparse⟩ := n.parse?_text
  refine ⟨l, hnames, ?_⟩
  simp only [Number.read, Number.readAs, String.toList_ofList, hparse]

theorem isNumeral_text (n : Numeral) : isNumeral n.text = true := by
  refine Number.Parts.isNumeral_whole n.negative n.isDigit_whole n.lead fun part hpart => ?_
  refine Number.Parts.numeralFrom_pointed hpart n.isDigit_fraction fun part hpart => ?_
  unfold exponentText
  cases n.exponent with
  | none => rcases hpart with rfl | rfl | rfl <;> rfl
  | some x => exact Number.Parts.numeralFrom_exponent hpart x.isMark x.isSign x.digits_ne x.isDigit

theorem read?_plain (n : Numeral) : read? n.text = some (.number (String.ofList n.text)) := by
  have hfits : Fits (.number (String.ofList n.text)) nestingLimit := by
    rw [Fits, String.toList_ofList]
    exact n.isNumeral_text
  simpa [render] using read?_render hfits

def quoted (n : Numeral) : List Char := '"' :: (n.text ++ ['"'])

theorem escape_text (n : Numeral) : escape .web (String.ofList n.text) = String.ofList n.text := by
  apply escape_eq_self
  rw [String.toList_ofList]
  have hmarks : ['.', 'e', 'E', '+', '-'].all (fun x => escapeChar .web x = [x]) = true := by decide
  exact n.forall_text (fun c => escapeChar_of_isDigit) fun c hc => of_decide_eq_true (List.all_eq_true.mp hmarks c hc)

theorem read?_quoted (n : Numeral) : read? n.quoted = some (.string (String.ofList n.text)) := by
  have hfits : Fits (.string (String.ofList n.text)) nestingLimit := by
    rw [Fits]
    exact body_key n.escape_text
  simpa [render, quoted] using read?_render hfits

theorem unescape_text (n : Numeral) : unescape (String.ofList n.text) = String.ofList n.text := by
  have h := unescape_escape .web (String.ofList n.text)
  rwa [n.escape_text] at h

end Numeral

/-- The text with blanks, as JSON has them, around it. -/
def Spaced (core text : List Char) : Prop :=
  ∃ before after, (∀ c ∈ before, isSpace c = true) ∧ (∀ c ∈ after, isSpace c = true) ∧ text = before ++ core ++ after

theorem isBlank_of_isSpace {c : Char} (h : isSpace c = true) : Text.isBlank c = true := by
  simp only [isSpace, Bool.or_eq_true, beq_iff_eq] at h
  rcases h with ((rfl | rfl) | rfl) | rfl <;> decide

theorem trimChars_spaced {core text : List Char} (hcore : ∀ c ∈ core, ¬ Text.isBlank c) (h : Spaced core text) :
    Text.trimChars text = core := by
  obtain ⟨before, after, hbefore, hafter, rfl⟩ := h
  have hstrip : Text.stripWhere Text.isBlank (before ++ core ++ after) = core := by
    rw [Text.stripWhere_concat_all fun c hc => isBlank_of_isSpace (hafter c hc),
      Text.stripWhere_append fun c hc => isBlank_of_isSpace (hbefore c hc)]
    exact Text.stripWhere_of_ends (fun c hc => hcore c (List.mem_of_head? hc))
      fun c hc => hcore c (List.mem_of_getLast? hc)
  exact hstrip

theorem not_isBlank_of_isDigit {c : Char} (h : c.isDigit = true) : ¬ Text.isBlank c := by
  have hrange : '0' ≤ c ∧ c ≤ '9' := by simpa [Char.isDigit, Char.le_def] using h
  have hge : 48 ≤ c.toNat := hrange.1
  have hle : c.toNat ≤ 57 := hrange.2
  have hall : ∀ k < 58, 48 ≤ k → ¬ Text.isBlank (Char.ofNat k) := by decide
  rw [← Char.ofNat_toNat c]
  exact hall c.toNat (by omega) hge

theorem Numeral.not_isBlank (n : Numeral) : ∀ c ∈ n.text, ¬ Text.isBlank c := by
  have hmarks : ['.', 'e', 'E', '+', '-'].all (!Text.isBlank ·) = true := by decide
  refine n.forall_text (fun _ => not_isBlank_of_isDigit) fun c hc => ?_
  simpa using List.all_eq_true.mp hmarks c hc

section Into

variable {text : Octets} {j : Json} (hread : read? (Text.trimChars (Text.Utf8.decode text)) = some j) (old : Float)

include hread

theorem numberInto_value {x : Float} (h : j.toNumber = .ok x) : (numberInto text).run.run old = (.ok (), x) := by
  simp only [numberInto, hread, h]
  rfl

theorem numberInto_fault {e : DecodeError} (h : j.toNumber = .error e) :
    (numberInto text).run.run old = (.error (.value e), old) := by
  simp only [numberInto, hread, h]
  rfl

end Into

/-- The variable is the old one unless a number was read. -/
theorem numberInto_error {text : Octets} {old new : Float} {fault : NumberFault}
    (h : (numberInto text).run.run old = (.error fault, new)) : new = old := by
  cases hread : read? (Text.trimChars (Text.Utf8.decode text)) with
  | none =>
    simp only [numberInto, hread] at h
    exact (Prod.mk.inj h).2.symm
  | some j =>
    cases hj : j.toNumber with
    | error e =>
      rw [numberInto_fault hread old hj] at h
      exact (Prod.mk.inj h).2.symm
    | ok x =>
      rw [numberInto_value hread old hj] at h
      exact absurd (Prod.mk.inj h).1 (by simp)

/-- A number of a reading, with the key of its member. -/
structure NumberField where
  key : String
  get : Reading → Float
  set : Reading → Float → Reading

def numberFields : List NumberField :=
  [⟨"distance", (·.distance), fun r x => { r with distance := x }⟩,
    ⟨"lat", (·.lat), fun r x => { r with lat := x }⟩,
    ⟨"lat_scale", (·.latScale), fun r x => { r with latScale := x }⟩,
    ⟨"long", (·.long), fun r x => { r with long := x }⟩,
    ⟨"long_scale", (·.longScale), fun r x => { r with longScale := x }⟩]

theorem setField_number {field : NumberField} (hfield : field ∈ numberFields) (r : Reading) (j : Json) :
    r.setField field.key j = j.toNumber.map (field.set r) := by
  simp only [numberFields, List.mem_cons, List.not_mem_nil, or_false] at hfield
  rcases hfield with rfl | rfl | rfl | rfl | rfl <;> rfl

/-- A member of a reading makes of its number what the text of the member makes of a variable. -/
theorem setField_iff_numberInto {text : Octets} {j : Json}
    (hread : read? (Text.trimChars (Text.Utf8.decode text)) = some j) {field : NumberField}
    (hfield : field ∈ numberFields) (r : Reading) :
    (∀ r', r.setField field.key j = .ok r' ↔
      ∃ x, (numberInto text).run.run (field.get r) = (.ok (), x) ∧ r' = field.set r x) ∧
    ∀ e, r.setField field.key j = .error e ↔
      (numberInto text).run.run (field.get r) = (.error (.value e), field.get r) := by
  rw [setField_number hfield]
  cases hj : j.toNumber with
  | ok x =>
    rw [numberInto_value hread _ hj]
    refine ⟨fun r' => ⟨fun h => ⟨x, rfl, (Except.ok.inj h).symm⟩, ?_⟩, fun e => ⟨fun h => ?_, fun h => ?_⟩⟩
    · rintro ⟨y, hy, rfl⟩
      rw [← (Prod.mk.inj hy).2]
      rfl
    · cases h
    · cases (Prod.mk.inj h).1
  | error e =>
    rw [numberInto_fault hread _ hj]
    refine ⟨fun r' => ⟨fun h => ?_, ?_⟩, fun e' => ⟨fun h => ?_, fun h => ?_⟩⟩
    · cases h
    · rintro ⟨y, hy, -⟩
      cases (Prod.mk.inj hy).1
    · cases h
      rfl
    · cases (Prod.mk.inj h).1
      rfl

namespace Numeral

variable (n : Numeral) (old : Float) {plain quoted : List Char}

theorem read?_spaced_plain (h : Spaced n.text plain) :
    read? (Text.trimChars (Text.Utf8.decode (Text.Utf8.encode plain))) = some (.number (String.ofList n.text)) := by
  rw [Text.Utf8.decode_encode, trimChars_spaced n.not_isBlank h, n.read?_plain]

theorem read?_spaced_quoted (h : Spaced n.quoted quoted) :
    read? (Text.trimChars (Text.Utf8.decode (Text.Utf8.encode quoted))) = some (.string (String.ofList n.text)) := by
  have hcore : ∀ c ∈ n.quoted, ¬ Text.isBlank c := by
    have hquote : ¬ Text.isBlank '"' := by decide
    have hend : ∀ c ∈ ['"'], ¬ Text.isBlank c := List.forall_mem_singleton.mpr hquote
    exact List.forall_mem_cons.mpr ⟨hquote, List.forall_mem_append.mpr ⟨n.not_isBlank, hend⟩⟩
  rw [Text.Utf8.decode_encode, trimChars_spaced hcore h, n.read?_quoted]

theorem numberInto_of_read {x : Float} (hx : Number.read (String.ofList n.text) = .ok x) (hplain : Spaced n.text plain)
    (hquoted : Spaced n.quoted quoted) :
    (numberInto (Text.Utf8.encode plain)).run.run old = (.ok (), x) ∧
      (numberInto (Text.Utf8.encode quoted)).run.run old = (.ok (), x) := by
  constructor
  · exact numberInto_value (n.read?_spaced_plain hplain) old (by simp only [toNumber, hx])
  · exact numberInto_value (n.read?_spaced_quoted hquoted) old (by simp only [toNumber, n.unescape_text, hx])

/-- The two forms differ only in what is said about the fault. -/
theorem numberInto_of_unread {e : Number.LiteralError} (he : Number.read (String.ofList n.text) = .error e)
    (hplain : Spaced n.text plain) (hquoted : Spaced n.quoted quoted) :
    (numberInto (Text.Utf8.encode plain)).run.run old = (.error (.value .wrongType), old) ∧
      (numberInto (Text.Utf8.encode quoted)).run.run old = (.error (.value (.number (String.ofList n.text) e)), old) := by
  constructor
  · exact numberInto_fault (n.read?_spaced_plain hplain) old (by simp only [toNumber, he])
  · exact numberInto_fault (n.read?_spaced_quoted hquoted) old (by simp only [toNumber, n.unescape_text, he])

end Numeral

/-- A number is the same number in quotes and without them, with blanks around either: the rounded
value of the literal that it names, or in both forms none because that is out of range. No text that
is refused changes the variable. -/
theorem quoted_number_means_plain (n : Numeral) (old : Float) :
    (∃ l, n.Names l ∧ ∀ plain quoted, Spaced n.text plain → Spaced n.quoted quoted →
      (∀ d, l.round .double = .ok d →
        (numberInto (Text.Utf8.encode plain)).run.run old = (.ok (), d.toFloat) ∧
        (numberInto (Text.Utf8.encode quoted)).run.run old = (.ok (), d.toFloat)) ∧
      ∀ e, l.round .double = .error e → e = .outOfRange ∧
        (numberInto (Text.Utf8.encode plain)).run.run old = (.error (.value .wrongType), old) ∧
        (numberInto (Text.Utf8.encode quoted)).run.run old =
          (.error (.value (.number (String.ofList n.text) e)), old)) ∧
    ∀ text fault new, (numberInto text).run.run old = (.error fault, new) → new = old := by
  obtain ⟨l, hnames, hread⟩ := n.read_text
  refine ⟨⟨l, hnames, fun plain quoted hplain hquoted => ⟨fun d hd => ?_, fun e he => ?_⟩⟩, fun _ _ _ => numberInto_error⟩
  · exact n.numberInto_of_read old (by rw [hread, hd, Except.map]) hplain hquoted
  · exact ⟨Literal.round_error he, n.numberInto_of_unread old (by rw [hread, he, Except.map]) hplain hquoted⟩

/-- `-9.5E+308`, which no double is near to. -/
def Numeral.beyond : Numeral where
  negative := true
  whole := ['9']
  fraction := ['5']
  exponent := some ⟨'E', ['+'], ['3', '0', '8'], by simp, by simp, by simp, by simp⟩
  lead := .inr ⟨'9', [], rfl, by decide⟩
  isDigit_whole := by simp
  isDigit_fraction := by simp

theorem quoted_number_beyond_range :
    (numberInto (Text.Utf8.ofString " -9.5E+308\n")).run.run 0.25 = (.error (.value .wrongType), 0.25) ∧
    (numberInto (Text.Utf8.ofString "\t\"-9.5E+308\"")).run.run 0.25 =
      (.error (.value (.number "-9.5E+308" .outOfRange)), 0.25) := by
  obtain ⟨⟨l, ⟨e, hcut, rfl⟩, hboth⟩, -⟩ := quoted_number_means_plain .beyond 0.25
  obtain rfl : e = 308 := hcut.exact (by decide)
  have hplain : Spaced Numeral.beyond.text " -9.5E+308\n".toList := ⟨[' '], ['\n'], by simp [isSpace], by simp [isSpace], rfl⟩
  have hquoted : Spaced Numeral.beyond.quoted "\t\"-9.5E+308\"".toList := ⟨['\t'], [], by simp [isSpace], by simp, rfl⟩
  exact ((hboth _ _ hplain hquoted).2 .outOfRange (by decide +kernel)).2

end BinFleet.Json
