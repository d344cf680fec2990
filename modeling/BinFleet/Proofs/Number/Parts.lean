import BinFleet.Number.Layout
import BinFleet.Number.Literal
import BinFleet.Proofs.Json.Reader
import Mathlib

namespace BinFleet.Number

theorem Literal.decimalDigit?_of_isDigit {c : Char} (h : c.isDigit = true) :
    decimalDigit? c = some (c.toNat - '0'.toNat) := by
  have hrange : '0' ≤ c ∧ c ≤ '9' := by simpa [Char.isDigit, Char.le_def] using h
  rw [decimalDigit?, if_pos hrange]

theorem isDigit_of_isDigit {c : Char} (h : c.isDigit = true) : Json.isDigit c = true := by
  have hrange : '0' ≤ c ∧ c ≤ '9' := by simpa [Char.isDigit, Char.le_def] using h
  simp [Json.isDigit, hrange.1, hrange.2]

theorem ne_of_isDigit {c x : Char} (h : c.isDigit = true) (hx : x.isDigit = false) : c ≠ x := by
  rintro rfl
  simp [hx] at h

theorem le_ofDigitChars (ds : List Char) (n : ℕ) : n ≤ Nat.ofDigitChars 10 ds n := by
  rw [Nat.ofDigitChars_eq_ofDigitChars_zero]
  have : n ≤ 10 ^ ds.length * n := Nat.le_mul_of_pos_left n (Nat.pow_pos (by decide))
  omega

theorem Digits.isDigit_padded {width n : ℕ} {c : Char} (h : c ∈ Digits.padded width n) : c.isDigit = true := by
  rcases List.mem_append.mp h with hzero | hdigit
  · rw [List.eq_of_mem_replicate hzero]
    decide
  · exact Nat.isDigit_of_mem_toDigits (by decide) (by decide) hdigit

theorem Digits.ofDigitChars_padded (width n : ℕ) : Nat.ofDigitChars 10 (Digits.padded width n) 0 = n := by
  rw [Digits.padded, Nat.ofDigitChars_append, Nat.ofDigitChars_replicate_zero, Nat.mul_zero,
    Nat.ofDigitChars_ten_toDigits]

theorem Digits.padded_ne_nil (width n : ℕ) : Digits.padded width n ≠ [] := by
  simp [Digits.padded, Nat.toDigits_ne_nil]

/-- Trailing zeros are left out. -/
theorem Digits.eq_append_zeros (ds : List Char) :
    ∃ k, ds = (ds.reverse.dropWhile (· == '0')).reverse ++ List.replicate k '0' := by
  refine ⟨(ds.reverse.takeWhile (· == '0')).length, ?_⟩
  have hzeros : ds.reverse.takeWhile (· == '0') = List.replicate (ds.reverse.takeWhile (· == '0')).length '0' := by
    refine List.eq_replicate_iff.mpr ⟨rfl, fun c hc => ?_⟩
    simpa using List.all_eq_true.mp List.all_takeWhile c hc
  have hsplit := congrArg List.reverse (List.takeWhile_append_dropWhile (p := (· == '0')) (l := ds.reverse))
  rw [List.reverse_append, List.reverse_reverse, hzeros, List.reverse_replicate] at hsplit
  exact hsplit.symm

theorem head?_toDigits {n : ℕ} (h : 0 < n) : (Nat.toDigits 10 n).head? ≠ some '0' := by
  induction n using Nat.strongRecOn with
  | ind n ih =>
    rcases Nat.lt_or_ge n 10 with hlt | hge
    · have hdigit : ∀ m < 10, 0 < m → m.digitChar ≠ '0' := by decide
      rw [Nat.toDigits_of_lt_base hlt, List.head?_cons]
      exact fun heq => hdigit n hlt h (Option.some.inj heq)
    · rw [Nat.toDigits_of_base_le (by decide) hge, List.head?_append_of_ne_nil _ Nat.toDigits_ne_nil]
      exact ih _ (Nat.div_lt_self h (by decide)) (Nat.div_pos hge (by decide))

/-- A number without its sign: digits, digits after a point, and an exponent with its sign. -/
structure Parts where
  whole : List Char
  fraction : List Char := []
  exponent : Option (Bool × List Char) := none

namespace Parts

def exponentText : Option (Bool × List Char) → List Char
  | none => []
  | some (negative, ds) => 'e' :: (if negative then '-' else '+') :: ds

def tail (p : Parts) : List Char :=
  (if p.fraction.isEmpty then [] else '.' :: p.fraction) ++ exponentText p.exponent

def text (p : Parts) : List Char := p.whole ++ p.tail

/-- The exponents that are read as they stand have five digits at most. -/
structure WellFormed (p : Parts) : Prop where
  whole : ∀ c ∈ p.whole, c.isDigit = true
  fraction : ∀ c ∈ p.fraction, c.isDigit = true
  lead : p.whole = ['0'] ∨ ∃ c rest, p.whole = c :: rest ∧ c ≠ '0'
  exponent : ∀ negative ds, p.exponent = some (negative, ds) →
    ds ≠ [] ∧ (∀ c ∈ ds, c.isDigit = true) ∧ Nat.ofDigitChars 10 ds 0 < 100000

def coefficient (p : Parts) : ℕ := Nat.ofDigitChars 10 (p.whole ++ p.fraction) 0

def power : Option (Bool × List Char) → ℤ
  | none => 0
  | some (negative, ds) => if negative then -(Nat.ofDigitChars 10 ds 0 : ℤ) else Nat.ofDigitChars 10 ds 0

end Parts

namespace Literal

open Parts

theorem mantissa_digits {ds : List Char} (h : ∀ c ∈ ds, c.isDigit = true) (m : Mantissa) (rest : List Char) :
    mantissa decimalDigit? 10 m (ds ++ rest) =
      mantissa decimalDigit? 10
        { m with value := Nat.ofDigitChars 10 ds m.value, digits := m.digits + ds.length
                 fraction := if m.pointed then m.fraction + ds.length else m.fraction } rest := by
  induction ds generalizing m with
  | nil => cases m; simp
  | cons c ds ih =>
    have hc : c.isDigit = true := h c List.mem_cons_self
    rw [List.cons_append, mantissa, if_neg (ne_of_isDigit hc rfl), if_neg (ne_of_isDigit hc rfl),
      decimalDigit?_of_isDigit hc]
    dsimp only
    rw [ih (fun d hd => h d (List.mem_cons_of_mem c hd))]
    congr 1
    simp only [Mantissa.mk.injEq, Nat.ofDigitChars_cons, Nat.mul_comm, List.length_cons, and_true, true_and]
    refine ⟨by omega, ?_⟩
    split_ifs <;> omega

theorem exponentDigits_eq {ds : List Char} (h : ∀ c ∈ ds, c.isDigit = true) {e : ℕ}
    (hlt : Nat.ofDigitChars 10 ds e < 100000) : exponentDigits e ds = (Nat.ofDigitChars 10 ds e, []) := by
  induction ds generalizing e with
  | nil => rfl
  | cons c ds ih =>
    have hc : c.isDigit = true := h c List.mem_cons_self
    rw [Nat.ofDigitChars_cons] at hlt ⊢
    have hsmall : e < 10000 := by
      have := le_ofDigitChars ds (10 * e + (c.toNat - '0'.toNat))
      omega
    rw [exponentDigits, if_neg (ne_of_isDigit hc rfl), decimalDigit?_of_isDigit hc]
    dsimp only
    rw [if_pos hsmall, Nat.mul_comm e 10]
    exact ih (fun d hd => h d (List.mem_cons_of_mem c hd)) hlt

/-- A sign that may be left out, and digits. -/
theorem exponent?_eq {sign ds : List Char} (hsign : sign = [] ∨ sign = ['+'] ∨ sign = ['-']) (hne : ds ≠ [])
    (h : ∀ c ∈ ds, c.isDigit = true) {e : ℕ} (hread : exponentDigits 0 ds = (e, [])) :
    exponent? (sign ++ ds) = some (if sign = ['-'] then -(e : ℤ) else e) := by
  obtain ⟨c, cs, rfl⟩ := List.exists_cons_of_ne_nil hne
  have hc := h c List.mem_cons_self
  have hdigit := decimalDigit?_of_isDigit hc
  have hplus : c ≠ '+' := ne_of_isDigit hc rfl
  have hminus : c ≠ '-' := ne_of_isDigit hc rfl
  rcases hsign with rfl | rfl | rfl <;> simp [exponent?, hplus, hminus, hdigit, hread]

theorem exponent?_signed {negative : Bool} {ds : List Char} (hne : ds ≠ []) (h : ∀ c ∈ ds, c.isDigit = true)
    (hlt : Nat.ofDigitChars 10 ds 0 < 100000) :
    exponent? ((if negative then '-' else '+') :: ds) = some (power (some (negative, ds))) := by
  have hread := exponentDigits_eq h hlt
  cases negative
  · exact exponent?_eq (.inr (.inl rfl)) hne h hread
  · exact exponent?_eq (.inr (.inr rfl)) hne h hread

/-- Digits and digits after a point, up to where none can follow. -/
theorem mantissa_pointed {whole fraction rest : List Char} (hwhole : ∀ c ∈ whole, c.isDigit = true)
    (hfraction : ∀ c ∈ fraction, c.isDigit = true)
    (hstop : ∀ m, mantissa decimalDigit? 10 m rest = (m, rest)) :
    mantissa decimalDigit? 10 {} (whole ++ ((if fraction.isEmpty then [] else '.' :: fraction) ++ rest)) =
      (⟨Nat.ofDigitChars 10 (whole ++ fraction) 0, whole.length + fraction.length, fraction.length, !fraction.isEmpty⟩,
        rest) := by
  rw [mantissa_digits hwhole, Nat.ofDigitChars_append]
  cases fraction with
  | nil => simp [hstop]
  | cons c cs =>
    simp only [List.isEmpty_cons, Bool.false_eq_true, if_false, List.cons_append]
    rw [mantissa, if_neg (by decide), if_pos rfl, if_neg (by simp), ← List.cons_append, mantissa_digits hfraction, hstop]
    simp

theorem decimal?_text (negative : Bool) {p : Parts} (hp : p.WellFormed) :
    decimal? negative p.text = some (.decimal negative p.coefficient (power p.exponent - p.fraction.length)) := by
  have hstop (m : Mantissa) : mantissa decimalDigit? 10 m (exponentText p.exponent) = (m, exponentText p.exponent) := by
    rcases p.exponent with _ | ⟨n, ds⟩ <;> rfl
  have hscan : mantissa decimalDigit? 10 {} p.text =
      (⟨p.coefficient, p.whole.length + p.fraction.length, p.fraction.length, !p.fraction.isEmpty⟩,
        exponentText p.exponent) := mantissa_pointed hp.whole hp.fraction hstop
  have hlength : p.whole.length ≠ 0 := by
    rcases hp.lead with h | ⟨c, rest, h, -⟩ <;> simp [h]
  simp only [decimal?, hscan]
  rw [if_neg (by omega)]
  cases he : p.exponent with
  | none => simp [exponentText, power]
  | some sd =>
    obtain ⟨n, ds⟩ := sd
    obtain ⟨hne, hdigits, hlt⟩ := hp.exponent n ds he
    simp [exponentText, exponent?_signed hne hdigits hlt]

end Literal

namespace Parts

theorem text_eq_cons {p : Parts} (hp : p.WellFormed) : ∃ c rest, p.text = c :: rest ∧ c.isDigit = true := by
  rcases hp.lead with h | ⟨c, rest, h, -⟩
  · exact ⟨'0', _, by rw [text, h, List.cons_append], by decide⟩
  · exact ⟨c, _, by rw [text, h, List.cons_append], hp.whole c (by simp [h])⟩

/-- The characters of written numbers. -/
theorem mem_text {p : Parts} (hp : p.WellFormed) {c : Char} (h : c ∈ p.text) :
    c.isDigit = true ∨ c ∈ ['.', 'e', '+', '-'] := by
  rw [text, tail, List.mem_append, List.mem_append] at h
  rcases h with h | h | h
  · exact .inl (hp.whole c h)
  · split_ifs at h
    · simp at h
    · rcases List.mem_cons.mp h with rfl | h
      · simp
      · exact .inl (hp.fraction c h)
  · cases he : p.exponent with
    | none => simp [he, exponentText] at h
    | some sd =>
      obtain ⟨n, ds⟩ := sd
      rw [he, exponentText, List.mem_cons, List.mem_cons] at h
      rcases h with rfl | rfl | h
      · simp
      · cases n <;> simp
      · exact .inl ((hp.exponent n ds he).2.1 c h)

theorem not_mem_text {p : Parts} (hp : p.WellFormed) {c : Char} (hdigit : c.isDigit = false)
    (hmark : c ∉ ['.', 'e', '+', '-']) : c ∉ p.text := by
  intro h
  rcases mem_text hp h with h | h
  · simp [hdigit] at h
  · exact hmark h

end Parts

namespace Literal

theorem word_ne {c : Char} (hc : c.isDigit = true) (rest : List Char) {w : String}
    (hw : w.toList.head?.any Char.isDigit = false) : word (c :: rest) ≠ w := by
  intro h
  have hlower : c.toLower = c := by
    have hle : c.val ≤ '9'.val := of_decide_eq_true (Bool.and_eq_true _ _ ▸ hc).2
    rw [Char.toLower, dif_neg]
    rintro ⟨hge, -⟩
    exact absurd (UInt32.le_trans hge hle) (by decide)
  have hhead : w.toList.head? = some c := by
    rw [← h, word, String.toList_ofList, List.map_cons, hlower, List.head?_cons]
  simp [hhead, hc] at hw

/-- What starts with a digit is a decimal literal, unless it has a mark of another kind. -/
theorem parse?_of_digit (negative : Bool) {text : List Char} (hfirst : ∃ c rest, text = c :: rest ∧ c.isDigit = true)
    (hplain : ∀ c ∈ ['_', 'x', 'X'], c ∉ text) :
    parse? ((if negative then ['-'] else []) ++ text) = decimal? negative text := by
  obtain ⟨c, rest, htext, hc⟩ := hfirst
  have hunderscore : '_' ∉ text := hplain '_' (by decide)
  have hunsigned : unsigned? negative text = decimal? negative text := by
    rw [htext, unsigned?.eq_def]
    split
    · rename_i x d more heq
      rw [if_neg]
      rintro (rfl | rfl)
      · exact hplain 'x' (by decide) (by rw [htext, heq]; simp)
      · exact hplain 'X' (by decide) (by rw [htext, heq]; simp)
    · rfl
  have hinf : word text ≠ "inf" := htext ▸ word_ne hc rest (by decide)
  have hinfinity : word text ≠ "infinity" := htext ▸ word_ne hc rest (by decide)
  have hnan : word text ≠ "nan" := htext ▸ word_ne hc rest (by decide)
  cases negative
  · rw [parse?.eq_def, if_neg (by decide), List.nil_append]
    split
    rename_i signed negative body hsign
    split at hsign
    · exact absurd (List.cons.inj htext).1.symm (ne_of_isDigit hc rfl)
    · exact absurd (List.cons.inj htext).1.symm (ne_of_isDigit hc rfl)
    · obtain ⟨rfl, rfl, rfl⟩ : false = signed ∧ false = negative ∧ text = body := by simpa using hsign
      simp [hinf, hinfinity, hnan, hunderscore, hunsigned]
  · simp [parse?, hinf, hinfinity, hnan, hunderscore, hunsigned]

/-- A text of digits and marks is a decimal literal. -/
theorem parse?_text (negative : Bool) {p : Parts} (hp : p.WellFormed) :
    parse? ((if negative then ['-'] else []) ++ p.text) =
      some (.decimal negative p.coefficient (Parts.power p.exponent - p.fraction.length)) := by
  have hplain : ∀ c ∈ ['_', 'x', 'X'], c ∉ p.text := by
    simp only [List.mem_cons, List.not_mem_nil, or_false]
    rintro c (rfl | rfl | rfl) <;> exact Parts.not_mem_text hp rfl (by decide)
  rw [parse?_of_digit negative (Parts.text_eq_cons hp) hplain, decimal?_text negative hp]

end Literal

namespace Parts

open Json (numeralFrom isNumeral NumberPart)
open Json.Reader (numberPart? mayEnd)

theorem numeralFrom_digits {part : NumberPart} (hpart : part = .whole ∨ part = .fraction ∨ part = .exponent)
    {ds : List Char} (h : ∀ c ∈ ds, c.isDigit = true) (rest : List Char) :
    numeralFrom part (ds ++ rest) = numeralFrom part rest := by
  induction ds with
  | nil => rfl
  | cons c ds ih =>
    have hc : Json.isDigit c = true := isDigit_of_isDigit (h c List.mem_cons_self)
    have hstep : numberPart? part c = some (some part) := by
      rcases hpart with rfl | rfl | rfl <;> simp [numberPart?, hc]
    rw [List.cons_append, numeralFrom, hstep]
    exact ih fun d hd => h d (List.mem_cons_of_mem c hd)

/-- A mark, a sign that may be left out, and digits. -/
theorem numeralFrom_exponent {part : NumberPart} (hpart : part = .zero ∨ part = .whole ∨ part = .fraction) {mark : Char}
    (hmark : mark = 'e' ∨ mark = 'E') {sign : List Char} (hsign : sign = [] ∨ sign = ['+'] ∨ sign = ['-'])
    {ds : List Char} (hne : ds ≠ []) (h : ∀ c ∈ ds, c.isDigit = true) :
    numeralFrom part (mark :: (sign ++ ds)) = true := by
  obtain ⟨c, cs, rfl⟩ := List.exists_cons_of_ne_nil hne
  have hc := h c List.mem_cons_self
  have hdigit := isDigit_of_isDigit hc
  have hbegin : numberPart? part mark = some (some .exponentMark) := by
    rcases hpart with rfl | rfl | rfl <;> rcases hmark with rfl | rfl <;> rfl
  have hend : numeralFrom .exponent cs = true := by
    rw [← List.append_nil cs, numeralFrom_digits (by simp) fun d hd => h d (List.mem_cons_of_mem c hd)]
    rfl
  have hplus : c ≠ '+' := ne_of_isDigit hc rfl
  have hminus : c ≠ '-' := ne_of_isDigit hc rfl
  rw [numeralFrom, hbegin]
  rcases hsign with rfl | rfl | rfl <;> simp [numeralFrom, numberPart?, hdigit, hplus, hminus, hend]

/-- Digits after a point, which may both be left out. -/
theorem numeralFrom_pointed {part : NumberPart} (hpart : part = .zero ∨ part = .whole) {fraction rest : List Char}
    (hfraction : ∀ c ∈ fraction, c.isDigit = true)
    (hrest : ∀ part, part = .zero ∨ part = .whole ∨ part = .fraction → numeralFrom part rest = true) :
    numeralFrom part ((if fraction.isEmpty then [] else '.' :: fraction) ++ rest) = true := by
  cases fraction with
  | nil => exact hrest part (hpart.imp_right .inl)
  | cons c cs =>
    have hmark : numberPart? part '.' = some (some .point) := by
      rcases hpart with rfl | rfl <;> rfl
    have hfirst : numberPart? .point c = some (some .fraction) := by
      simp [numberPart?, isDigit_of_isDigit (hfraction c List.mem_cons_self)]
    simp only [List.isEmpty_cons, Bool.false_eq_true, if_false, List.cons_append, numeralFrom, hmark, hfirst]
    rw [numeralFrom_digits (by simp) fun d hd => hfraction d (List.mem_cons_of_mem c hd)]
    exact hrest .fraction (by simp)

/-- Digits without a leading zero, or zero alone, with what may follow them. -/
theorem isNumeral_whole (negative : Bool) {whole rest : List Char} (hwhole : ∀ c ∈ whole, c.isDigit = true)
    (hlead : whole = ['0'] ∨ ∃ c more, whole = c :: more ∧ c ≠ '0')
    (hrest : ∀ part, part = .zero ∨ part = .whole → numeralFrom part rest = true) :
    isNumeral ((if negative then ['-'] else []) ++ (whole ++ rest)) = true := by
  rcases hlead with rfl | ⟨c, more, rfl, hc⟩
  · have hzero := hrest .zero (.inl rfl)
    cases negative <;> simpa [isNumeral, numeralFrom, numberPart?] using hzero
  · have hdigit := isDigit_of_isDigit (hwhole c List.mem_cons_self)
    have hminus : c ≠ '-' := ne_of_isDigit (hwhole c List.mem_cons_self) rfl
    have hmore : numeralFrom .whole (more ++ rest) = true := by
      rw [numeralFrom_digits (by simp) fun d hd => hwhole d (List.mem_cons_of_mem c hd)]
      exact hrest .whole (.inr rfl)
    cases negative <;> simp [isNumeral, numeralFrom, numberPart?, hc, hdigit, hminus, hmore]

theorem isNumeral_text (negative : Bool) {p : Parts} (hp : p.WellFormed) :
    isNumeral ((if negative then ['-'] else []) ++ p.text) = true := by
  refine isNumeral_whole negative hp.whole hp.lead fun part hpart => numeralFrom_pointed hpart hp.fraction fun part hpart => ?_
  cases he : p.exponent with
  | none => rcases hpart with rfl | rfl | rfl <;> rfl
  | some sd =>
    obtain ⟨negative, ds⟩ := sd
    obtain ⟨hne, hdigits, -⟩ := hp.exponent negative ds he
    have hsign : [if negative then '-' else '+'] = [] ∨ [if negative then '-' else '+'] = ['+'] ∨
        [if negative then '-' else '+'] = ['-'] := by
      cases negative <;> simp
    exact numeralFrom_exponent hpart (.inl rfl) hsign hne hdigits

end Parts

end BinFleet.Number
