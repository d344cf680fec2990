import BinFleet.Json.Value
import BinFleet.Proofs.Number.Bounds
import BinFleet.Proofs.Number.Written
import BinFleet.Proofs.Time.Instant

namespace BinFleet.Json

/-- A value is written as a document, nested to a limit at most, that is read as the value over
whatever was there before. -/
def Survives {α β : Type} (written : Except EncodeError Json) (limit : ℕ) (reading : β → Json → Except DecodeError α)
    (a : α) : Prop :=
  ∃ j, written = .ok j ∧ Fits j limit ∧ ∀ old, reading old j = .ok a

theorem ofFloat_finite {x : Float} (hx : Number.isFinite x = true) :
    ofFloat x = .ok (.number (Number.Layout.json.write x)) := if_pos hx

theorem float_survives {x : Float} (hx : Number.isFinite x = true) (limit : ℕ) : Survives (ofFloat x) limit toFloat x := by
  refine ⟨_, ofFloat_finite hx, Number.isNumeral_write _ hx, fun old => ?_⟩
  unfold toFloat
  simp only [Number.read_write _ hx]

theorem telemetry_survives {x : Float} (hx : Number.isFinite x = true) (limit : ℕ) :
    Survives (ofFloat x) limit (fun _ : Unit => toNumber) x := by
  refine ⟨_, ofFloat_finite hx, Number.isNumeral_write _ hx, fun _ => ?_⟩
  unfold toNumber
  simp only [Number.read_write _ hx]

theorem toText_ofText (old s : String) : toText old (ofText s) = .ok s := by
  rw [ofText, toText, unescape_escape]

theorem fits_ofText (s : String) (limit : ℕ) : Fits (ofText s) limit := Body.escape .web s

theorem digitsValue?_toDigits (n : ℕ) : digitsValue? (Nat.toDigits 10 n) = some n := by
  have hfold : ∀ (ds : List Char) (m : ℕ), (∀ c ∈ ds, c.isDigit = true) →
      ds.foldlM (fun m c => (Number.Literal.decimalDigit? c).map (m * 10 + ·)) m = some (Nat.ofDigitChars 10 ds m) := by
    intro ds
    induction ds with
    | nil => exact fun _ _ => rfl
    | cons c ds ih =>
      intro m h
      rw [List.foldlM_cons, Number.Literal.decimalDigit?_of_isDigit (h c List.mem_cons_self), Nat.ofDigitChars_cons,
        Nat.mul_comm]
      exact ih _ fun d hd => h d (List.mem_cons_of_mem c hd)
  rw [digitsValue?, if_neg (by simp [Nat.toDigits_ne_nil]),
    hfold _ _ fun c => Nat.isDigit_of_mem_toDigits (by decide) (by decide), Nat.ofDigitChars_ten_toDigits]

theorem toString_natCast (n : ℕ) : toString (n : ℤ) = String.ofList (Nat.toDigits 10 n) := by
  rw [← Nat.toString_eq_ofList_toDigits]
  rfl

theorem wellFormed_toDigits (n : ℕ) : Number.Parts.WellFormed ⟨Nat.toDigits 10 n, [], none⟩ := by
  have hdigits : ∀ c ∈ Nat.toDigits 10 n, c.isDigit = true := fun c => Nat.isDigit_of_mem_toDigits (by decide) (by decide)
  refine ⟨hdigits, by simp, ?_, by simp⟩
  rcases Nat.eq_zero_or_pos n with rfl | hpos
  · exact .inl (Nat.toDigits_zero 10)
  · obtain ⟨c, rest, hcons⟩ := List.exists_cons_of_ne_nil (Nat.toDigits_ne_nil (n := n) (b := 10))
    refine .inr ⟨c, rest, hcons, ?_⟩
    have hhead := Number.head?_toDigits hpos
    rw [hcons] at hhead
    exact fun hc => hhead (congrArg some hc)

/-- A whole number is written as its sign and its digits. -/
theorem toList_toString (n : ℤ) : (toString n).toList =
    (if decide (n < 0) then ['-'] else []) ++ (⟨Nat.toDigits 10 n.natAbs, [], none⟩ : Number.Parts).text := by
  have htext : (⟨Nat.toDigits 10 n.natAbs, [], none⟩ : Number.Parts).text = Nat.toDigits 10 n.natAbs := by
    simp [Number.Parts.text, Number.Parts.tail, Number.Parts.exponentText]
  rw [htext]
  cases n with
  | ofNat m =>
    change (toString (m : ℤ)).toList = _
    rw [toString_natCast, String.toList_ofList]
    simp
  | negSucc m =>
    change ("-" ++ toString (m + 1)).toList = _
    rw [Nat.toString_eq_ofList_toDigits]
    simp

theorem fits_ofInt (n : ℤ) (limit : ℕ) : Fits (ofInt n) limit := by
  rw [ofInt, Fits, toList_toString]
  exact Number.Parts.isNumeral_text _ (wellFormed_toDigits n.natAbs)

open Number Number.Double

theorem round_whole {m : ℕ} (h : m ≤ 2 ^ 53) (negative : Bool) : ∃ d, BinaryFormat.double.Canonical d ∧ d.value = m ∧
    Literal.round .double (.decimal negative m 0) = .ok (.finite negative d) := by
  obtain ⟨d, hd, hvalue⟩ := (Representable.natCast h).magnitude
  rw [abs_of_nonneg (Nat.cast_nonneg m)] at hvalue
  refine ⟨d, hd, hvalue, ?_⟩
  rcases Nat.eq_zero_or_pos m with rfl | hpos
  · obtain rfl : d = ⟨0, -1074⟩ := (value_eq_zero hd).mp (by simpa using hvalue)
    rfl
  · have hlog := (Nat.log2_lt hpos.ne').mpr (h.trans_lt (by decide : 2 ^ 53 < 2 ^ 54))
    have hfew : Literal.digitBound m ≤ 400 := by
      unfold Literal.digitBound
      omega
    have hratio : ((m * Nat.pow 10 (0 : ℤ).toNat : ℕ) : ℚ) / (Nat.pow 10 (-(0 : ℤ)).toNat : ℕ) = d.value := by
      rw [hvalue]
      simp
    have hsignificand : 0 < d.significand := by
      apply Nat.pos_of_ne_zero
      intro hzero
      have : (m : ℚ) = 0 := by rw [← hvalue, Scaled.value, hzero, Nat.cast_zero, zero_mul]
      exact hpos.ne' (by exact_mod_cast this)
    have hround := hd.round_eq (by decide) (show 0 < Nat.pow 10 (-(0 : ℤ)).toNat by decide) hratio hsignificand
    rw [Literal.round, if_neg hpos.ne', if_neg (by omega), if_neg (by omega), hround]

/-- A whole number of the format is read as it is. -/
theorem read_toString {n : ℤ} (h : n.natAbs ≤ 2 ^ 53) : ∃ x, Number.read (toString n) = .ok x ∧ Denotes x n := by
  obtain ⟨d, hd, hvalue, hround⟩ := round_whole h (decide (n < 0))
  have hparse : Literal.parse? (toString n).toList = some (.decimal (decide (n < 0)) n.natAbs 0) := by
    rw [toList_toString, Literal.parse?_text _ (wellFormed_toDigits n.natAbs)]
    simp [Parts.coefficient, Parts.power, Nat.ofDigitChars_ten_toDigits]
  refine ⟨(Double.finite (decide (n < 0)) d).toFloat, ?_, _, _, ofFloat_toFloat_finite hd, ?_⟩
  · rw [Number.read, readAs, hparse]
    dsimp only
    rw [hround]
    rfl
  · rw [hvalue, signed_natAbs]

theorem toInt_ofInt (old : ℤ) {n : ℕ} (h : n < 2 ^ 63) : toInt old (ofInt n) = .ok n := by
  have hdigits : ∀ c ∈ Nat.toDigits 10 n, c.isDigit = true := fun c => Nat.isDigit_of_mem_toDigits (by decide) (by decide)
  have hrange : -(Int.pow 2 63) ≤ (n : ℤ) ∧ (n : ℤ) < Int.pow 2 63 := by
    have : Int.pow 2 63 = 9223372036854775808 := by decide
    omega
  unfold toInt ofInt
  simp only [toString_natCast, String.toList_ofList]
  split
  · rename_i m hread
    split at hread
    · rename_i ds heq
      have := hdigits '-' (by rw [heq]; exact List.mem_cons_self)
      simp at this
    · obtain rfl : (n : ℤ) = m := by simpa [digitsValue?_toDigits] using hread
      rw [if_pos hrange]
  · rename_i hread
    split at hread
    · rename_i ds heq
      have := hdigits '-' (by rw [heq]; exact List.mem_cons_self)
      simp at this
    · simp [digitsValue?_toDigits] at hread

theorem escapeChar_of_isDigit {c : Char} (h : c.isDigit = true) : escapeChar .web c = [c] := by
  have hge : 48 ≤ c.toNat := by
    have hrange : '0' ≤ c ∧ c ≤ '9' := by simpa [Char.isDigit, Char.le_def] using h
    exact hrange.1
  have hne : ∀ x : Char, x.isDigit = false → c ≠ x := fun x => Number.ne_of_isDigit h
  unfold escapeChar
  split
  iterate 7 simp at h
  · rw [if_neg, if_neg]
    · simp [hne '<' rfl, hne '>' rfl, hne '&' rfl]
    · have := hne '\u2028' rfl
      have := hne '\u2029' rfl
      simp only [not_or]
      exact ⟨by omega, ‹_›, ‹_›⟩

/-- A text of characters that are written as they are. -/
theorem escape_eq_self {s : String} (h : ∀ c ∈ s.toList, escapeChar .web c = [c]) : escape .web s = s := by
  have hflat : ∀ cs : List Char, (∀ c ∈ cs, escapeChar .web c = [c]) → cs.flatMap (escapeChar .web) = cs := by
    intro cs
    induction cs with
    | nil => exact fun _ => rfl
    | cons c cs ih =>
      intro h
      rw [List.flatMap_cons, h c List.mem_cons_self, ih fun d hd => h d (List.mem_cons_of_mem c hd)]
      rfl
  rw [escape, hflat _ h, String.ofList_toList]

theorem escape_render (t : Time.Instant) : escape .web t.render = t.render := by
  apply escape_eq_self
  intro c hc
  rw [Time.Instant.render, String.toList_ofList] at hc
  rcases Time.Instant.plain_renderChars t c hc with hdigit | hmark
  · exact escapeChar_of_isDigit hdigit
  · have hmarks : ['-', 'T', ':', '.', 'Z', '+'].all (fun x => escapeChar .web x = [x]) = true := by decide
    exact of_decide_eq_true (List.all_eq_true.mp hmarks c hmark)

theorem ofInstant_text {t : Time.Instant} {s : String} (h : t.text = .ok s) : ofInstant t = .ok (.string s) := by
  unfold ofInstant
  simp only [h]

theorem toInstant_text (old : Time.Instant) {t : Time.Instant} {s : String} (hplain : unescape s = s)
    (h : Time.Instant.parse? s = some t) : toInstant old (.string s) = .ok t := by
  unfold toInstant
  simp only [hplain, h]

theorem instant_survives {t : Time.Instant} (h : t.Regular) (hoffset : t.offset.natAbs < 24 * 3600) (limit : ℕ) :
    Survives (ofInstant t) limit toInstant t := by
  have htext : t.text = .ok t.render := by
    rw [h.text_eq, if_neg (Nat.not_le.mpr hoffset)]
  have hparse := h.parse?_render hoffset
  have hescape := escape_render t
  have hbody := Body.escape .web t.render
  have hplain := unescape_escape .web t.render
  rw [hescape] at hbody hplain
  exact ⟨.string t.render, ofInstant_text htext, hbody, fun old => toInstant_text old hplain hparse⟩

theorem overFields_cons {α : Type} {field : α → String → Json → Except DecodeError α} {a b : α} {kv : String × Json}
    (h : field a (unescape kv.1) kv.2 = .ok b) (rest : List (String × Json)) :
    overFields field a (.object (kv :: rest)) = overFields field b (.object rest) := by
  change (kv :: rest).foldlM (fun a kv => field a (unescape kv.1) kv.2) a = _
  rw [List.foldlM_cons]
  simp only [h]
  rfl

theorem overFields_single {α : Type} {field : α → String → Json → Except DecodeError α} {a b : α} {k : String} {v : Json}
    (h : field a (unescape k) v = .ok b) : overFields field a (.object [(k, v)]) = .ok b := by
  change [(k, v)].foldlM (fun a kv => field a (unescape kv.1) kv.2) a = .ok b
  rw [List.foldlM_cons]
  simp only [h]
  rfl

theorem overFields_append {α : Type} {field : α → String → Json → Except DecodeError α} {a b c : α}
    {fields fields' : List (String × Json)} (h : overFields field a (.object fields) = .ok b)
    (h' : overFields field b (.object fields') = .ok c) : overFields field a (.object (fields ++ fields')) = .ok c := by
  change fields.foldlM (fun a kv => field a (unescape kv.1) kv.2) a = .ok b at h
  change (fields ++ fields').foldlM (fun a kv => field a (unescape kv.1) kv.2) a = .ok c
  rw [List.foldlM_append, h]
  exact h'

/-- Reading fields one by one keeps what each field keeps. -/
theorem overFields_keeps {α : Type} {field : α → String → Json → Except DecodeError α} {P : α → Prop}
    (h : ∀ ⦃a b k v⦄, P a → field a k v = .ok b → P b) {old new : α} (hold : P old) {j : Json}
    (hread : overFields field old j = .ok new) : P new := by
  cases j with
  | null => exact Except.ok.inj hread ▸ hold
  | object fields =>
    change fields.foldlM (fun a kv => field a (unescape kv.1) kv.2) old = .ok new at hread
    induction fields generalizing old with
    | nil => exact Except.ok.inj hread ▸ hold
    | cons kv rest ih =>
      rw [List.foldlM_cons] at hread
      cases hfield : field old (unescape kv.1) kv.2 with
      | error e =>
        simp only [hfield] at hread
        cases hread
      | ok mid =>
        simp only [hfield] at hread
        exact ih (h hold hfield) hread
  | bool b => cases hread
  | number text => cases hread
  | string body => cases hread
  | array items => cases hread

/-- Fields that each make their change to a record, whatever it was before. -/
def Change {α : Type} (field : α → String → Json → Except DecodeError α) (fields : List (String × Json))
    (changes : List (α → α)) : Prop :=
  List.Forall₂ (fun kv f => ∀ a, field a (unescape kv.1) kv.2 = .ok (f a)) fields changes

theorem Change.overFields {α : Type} {field : α → String → Json → Except DecodeError α} {fields : List (String × Json)}
    {changes : List (α → α)} (h : Change field fields changes) (old : α) :
    overFields field old (.object fields) = .ok (changes.foldl (fun a f => f a) old) := by
  induction h generalizing old with
  | nil => rfl
  | cons hfield _ ih => exact (overFields_cons (hfield old) _).trans (ih _)

theorem Change.append {α : Type} {field : α → String → Json → Except DecodeError α} {fields fields' : List (String × Json)}
    {changes changes' : List (α → α)} (h : Change field fields changes) (h' : Change field fields' changes') :
    Change field (fields ++ fields') (changes ++ changes') := by
  induction h with
  | nil => exact h'
  | cons hfield _ ih => exact .cons hfield ih

theorem map_of_eq {α β : Type} {x : Except DecodeError α} {a : α} (h : x = .ok a) (f : α → β) : x.map f = .ok (f a) := by
  rw [h]
  rfl

/-- A key that is written as it is. -/
theorem body_key {k : String} (h : escape .web k = k) : Body k.toList := by
  have hbody := Body.escape .web k
  rwa [h] at hbody

theorem fitFields_cons {k : String} {v : Json} {rest : List (String × Json)} {limit : ℕ} (hk : escape .web k = k)
    (hv : Fits v limit) (hrest : FitFields rest limit) : FitFields ((k, v) :: rest) limit := by
  rw [FitFields]
  exact ⟨body_key hk, hv, hrest⟩

theorem fitFields_nil (limit : ℕ) : FitFields [] limit := by
  rw [FitFields]
  trivial

theorem fitFields_append {fields rest : List (String × Json)} {limit : ℕ} (h : FitFields fields limit)
    (hrest : FitFields rest limit) : FitFields (fields ++ rest) limit := by
  induction fields with
  | nil => exact hrest
  | cons kv fields ih =>
    rw [FitFields] at h
    rw [List.cons_append, FitFields]
    exact ⟨h.1, h.2.1, ih h.2.2⟩

theorem fits_object {fields : List (String × Json)} {limit : ℕ} (h : FitFields fields limit) :
    Fits (.object fields) (limit + 1) := by
  rw [Fits]
  exact ⟨Nat.succ_pos limit, h⟩

end BinFleet.Json
