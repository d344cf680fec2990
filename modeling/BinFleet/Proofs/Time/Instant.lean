import BinFleet.Proofs.Number.Parts
import BinFleet.Proofs.Time.Calendar
import BinFleet.Time.Instant

namespace BinFleet.Time.Instant

open Number (Digits.padded)

theorem totalNanos_add (t : Instant) (s : Span) : (t.add s).totalNanos = t.totalNanos + s.nanos := by
  simp only [add, ofTotalNanos]
  generalize t.totalNanos + s.nanos = n
  simp only [totalNanos]
  omega

theorem digit?_digitChar {n : Nat} (h : n < 10) : digit? n.digitChar = some n := by
  have hall : ∀ m < 10, digit? m.digitChar = some m := by decide
  exact hall n h

/-- Padding puts the last digit behind the padded others. -/
theorem padded_succ {width : Nat} (hwidth : 0 < width) (n : Nat) :
    Digits.padded (width + 1) n = Digits.padded width (n / 10) ++ [(n % 10).digitChar] := by
  rcases Nat.lt_or_ge n 10 with hlt | hge
  · rw [Nat.div_eq_of_lt hlt, Nat.mod_eq_of_lt hlt, Digits.padded, Digits.padded, Nat.toDigits_of_lt_base hlt,
      Nat.toDigits_zero]
    have hzeros : List.replicate width '0' = List.replicate (width - 1) '0' ++ ['0'] := by
      rw [← List.replicate_succ']
      congr 1
      omega
    simp only [List.length_singleton, Nat.add_sub_cancel]
    rw [hzeros]
  · rw [Digits.padded, Digits.padded, Nat.toDigits_of_base_le (by decide) hge, List.length_append, List.length_singleton,
      Nat.add_sub_add_right, List.append_assoc]

theorem padded_one {n : Nat} (h : n < 10) : Digits.padded 1 n = [n.digitChar] := by
  rw [Digits.padded, Nat.toDigits_of_lt_base h]
  rfl

theorem padded_two {n : Nat} (h : n < 100) :
    Digits.padded 2 n = [(n / 10).digitChar, (n % 10).digitChar] := by
  rw [padded_succ (by decide), padded_one (by omega)]
  rfl

theorem paddedInt_natCast (width n : Nat) : paddedInt width n = Digits.padded width n := by
  rw [paddedInt, if_neg (by omega)]
  rfl

theorem twoDigits?_digits {a b : Nat} (ha : a < 10) (hb : b < 10) (rest : List Char) :
    twoDigits? (a.digitChar :: b.digitChar :: rest) = some (a * 10 + b, rest) := by
  simp [twoDigits?, digit?_digitChar ha, digit?_digitChar hb]

theorem twoDigits?_padded {n : Nat} (h : n < 100) (rest : List Char) :
    twoDigits? (paddedInt 2 n ++ rest) = some (n, rest) := by
  rw [paddedInt_natCast, padded_two h, List.cons_append, List.cons_append, List.nil_append,
    twoDigits?_digits (by omega) (by omega)]
  congr 2
  omega

theorem hourDigits?_padded {n : Nat} (h : n < 100) (rest : List Char) :
    hourDigits? (paddedInt 2 n ++ rest) = some (n, rest) := by
  rw [hourDigits?.eq_def, twoDigits?_padded h]

/-- A year is read as its century and the year of that. -/
theorem paddedInt_year {year : Int} (h : 0 ≤ year ∧ year ≤ 9999) (rest : List Char) :
    paddedInt 4 year ++ rest =
      paddedInt 2 (year.toNat / 100 : Nat) ++ (paddedInt 2 (year.toNat % 100 : Nat) ++ rest) := by
  obtain ⟨n, rfl⟩ := Int.eq_ofNat_of_zero_le h.1
  have hn : n ≤ 9999 := by omega
  rw [paddedInt_natCast, paddedInt_natCast, paddedInt_natCast, Int.toNat_natCast, padded_succ (by decide),
    padded_succ (by decide), padded_two (by omega), padded_two (by omega), padded_two (by omega)]
  have hhundred : n / 10 / 10 = n / 100 := Nat.div_div_eq_div_mul n 10 10
  have hten : n / 10 % 10 = n % 100 / 10 := by omega
  have hone : n % 10 = n % 100 % 10 := by omega
  rw [hhundred, hten, hone]
  rfl

theorem mark?_cons (c : Char) (rest : List Char) : mark? c (c :: rest) = some rest := if_pos rfl

/-- What a text goes on with after digits. -/
def NoDigit : List Char → Prop
  | [] => True
  | c :: _ => digit? c = none ∧ c ≠ '.' ∧ c ≠ ','

theorem digit?_of_isDigit {c : Char} (h : c.isDigit = true) : digit? c = some (c.toNat - '0'.toNat) :=
  Number.Literal.decimalDigit?_of_isDigit h

theorem foldl_digit? {ds : List Char} (h : ∀ c ∈ ds, c.isDigit = true) (n : Nat) :
    ds.foldl (fun n c => n * 10 + (digit? c).getD 0) n = Nat.ofDigitChars 10 ds n := by
  induction ds generalizing n with
  | nil => rfl
  | cons c ds ih =>
    rw [List.foldl_cons, digit?_of_isDigit (h c List.mem_cons_self), Option.getD_some,
      ih fun d hd => h d (List.mem_cons_of_mem c hd), Nat.ofDigitChars_cons, Nat.mul_comm]

theorem takeWhile_digits {ds rest : List Char} (h : ∀ c ∈ ds, c.isDigit = true) (hrest : NoDigit rest) :
    (ds ++ rest).takeWhile (fun c => (digit? c).isSome) = ds ∧
      (ds ++ rest).dropWhile (fun c => (digit? c).isSome) = rest := by
  have hall : ∀ c ∈ ds, (digit? c).isSome = true := fun c hc => by rw [digit?_of_isDigit (h c hc)]; rfl
  rw [List.takeWhile_append_of_pos hall, List.dropWhile_append_of_pos hall]
  cases rest with
  | nil => simp
  | cons c rest => simp [hrest.1]

theorem length_padded_nine {n : Nat} (h : n < 10 ^ 9) : (Digits.padded 9 n).length = 9 := by
  have hlength : (Nat.toDigits 10 n).length ≤ 9 := (Nat.length_toDigits_le_iff (by decide) (by decide)).mpr h
  rw [Digits.padded, List.length_append, List.length_replicate]
  omega

/-- A fraction is read back, whatever zeros were left out. -/
theorem fraction_render {nanos : Nat} (h : nanos < 10 ^ 9) {rest : List Char} (hrest : NoDigit rest) :
    fraction (Span.fraction 9 nanos ++ rest) = (nanos, rest) := by
  obtain ⟨k, hk⟩ := Number.Digits.eq_append_zeros (Digits.padded 9 nanos)
  have hvalue := Number.Digits.ofDigitChars_padded 9 nanos
  have hlength := length_padded_nine h
  have hdigits : ∀ c ∈ Digits.padded 9 nanos, c.isDigit = true := fun c => Number.Digits.isDigit_padded
  have hspan : Span.fraction 9 nanos =
      if ((Digits.padded 9 nanos).reverse.dropWhile (· == '0')).reverse.isEmpty then []
      else '.' :: ((Digits.padded 9 nanos).reverse.dropWhile (· == '0')).reverse := rfl
  rw [hspan]
  generalize ((Digits.padded 9 nanos).reverse.dropWhile (· == '0')).reverse = kept at hk ⊢
  cases kept with
  | nil =>
    rw [hk, List.nil_append, Nat.ofDigitChars_replicate_zero, Nat.mul_zero] at hvalue
    subst hvalue
    match rest, hrest with
    | [], _ => rfl
    | [_], _ => rfl
    | c :: d :: rest, hrest => simp [fraction, hrest.2.1, hrest.2.2]
  | cons d ds =>
    have hkept : ∀ c ∈ d :: ds, c.isDigit = true := fun c hc => hdigits c (hk ▸ List.mem_append_left _ hc)
    have hd : (digit? d).isSome = true := by rw [digit?_of_isDigit (hkept d List.mem_cons_self)]; rfl
    obtain ⟨htake, hdrop⟩ := takeWhile_digits hkept hrest
    have hnine : (d :: ds ++ List.replicate 9 '0').take 9 = Digits.padded 9 nanos := by
      have hcount : (d :: ds).length + k = 9 := by rw [← hlength, hk, List.length_append, List.length_replicate]
      rw [hk, List.take_append, List.take_replicate, List.take_of_length_le (by omega)]
      congr 2
      omega
    rw [if_neg (by simp), List.cons_append, List.cons_append, fraction, if_pos ⟨.inl rfl, hd⟩]
    dsimp only
    rw [← List.cons_append, htake, hdrop, hnine, foldl_digit? hdigits, hvalue]

theorem offset?_signed {sign : Char} (hsign : sign = '+' ∨ sign = '-') {hours minutes : Nat} (hhours : hours ≤ 24)
    (hminutes : minutes ≤ 60) :
    offset? (sign :: (paddedInt 2 hours ++ ':' :: paddedInt 2 minutes)) =
      some (if sign = '+' then (((hours * 60 + minutes) * 60 : Nat) : Int) else -((hours * 60 + minutes) * 60 : Nat), []) := by
  have hread : twoDigits? (paddedInt 2 minutes) = some (minutes, []) := by
    have := twoDigits?_padded (show minutes < 100 by omega) []
    rwa [List.append_nil] at this
  have hrange : ¬ (24 < hours ∨ 60 < minutes) := by omega
  rcases hsign with rfl | rfl <;>
    simp [offset?, twoDigits?_padded (show hours < 100 by omega), mark?_cons, hread, hrange]

theorem offset?_render {offset : Int} (hminutes : offset % 60 = 0) (hday : offset.natAbs < 24 * 3600) :
    offset? (renderOffset offset) = some (offset, []) := by
  obtain ⟨minutes, rfl⟩ : ∃ minutes, offset = minutes * 60 := ⟨offset / 60, by omega⟩
  have hhours : (↑minutes.natAbs / 60 : Int) = (minutes.natAbs / 60 : Nat) := by omega
  have hrest : (↑minutes.natAbs % 60 : Int) = (minutes.natAbs % 60 : Nat) := by omega
  have hlthours : minutes.natAbs / 60 ≤ 24 := by omega
  have hltrest : minutes.natAbs % 60 ≤ 60 := by omega
  simp only [renderOffset, Int.mul_tdiv_cancel _ (show (60 : Int) ≠ 0 by decide), hhours, hrest]
  split_ifs with hzero hneg
  · rw [hzero]
    rfl
  · rw [offset?_signed (.inr rfl) hlthours hltrest, if_neg (by decide)]
    congr 2
    omega
  · rw [offset?_signed (.inl rfl) hlthours hltrest, if_pos rfl]
    congr 2
    omega

theorem noDigit_renderOffset (offset : Int) : NoDigit (renderOffset offset) := by
  simp only [renderOffset]
  split_ifs with hzero hneg
  · exact ⟨rfl, by decide, by decide⟩
  · exact ⟨rfl, by decide, by decide⟩
  · exact ⟨rfl, by decide, by decide⟩

/-- An instant of a clock that has not started again, in a year of four digits and at whole
minutes from UTC. -/
structure Regular (t : Instant) : Prop where
  nanos : t.nanos < 10 ^ 9
  minutes : t.offset % 60 = 0
  clock : t.clockSeconds = t.seconds + t.offset
  year : 0 ≤ t.date.year ∧ t.date.year ≤ 9999

/-- Such an instant can be exchanged at any offset below a day. -/
theorem Regular.text_eq {t : Instant} (h : t.Regular) :
    t.text = if 24 * 3600 ≤ t.offset.natAbs then .error .offset else .ok t.render := by
  have hyear := h.year
  rw [text, if_neg (by omega)]

theorem daysInMonth_le (year : Int) (month : Nat) : daysInMonth year month ≤ 31 := by
  rw [daysInMonth]
  split_ifs <;> omega

theorem Regular.parseChars?_renderChars {t : Instant} (h : t.Regular) (hoffset : t.offset.natAbs < 24 * 3600) :
    parseChars? t.renderChars = some t := by
  obtain ⟨hmonth, hday⟩ := Date.ofDays_valid (t.clockSeconds / 86400)
  have hdays := Date.toDays_ofDays (t.clockSeconds / 86400)
  have hyear := h.year
  have hsecond : (t.clockSeconds % 86400).toNat < 86400 := by omega
  have hsplit : t.clockSeconds / 86400 * 86400 + (t.clockSeconds % 86400).toNat = t.seconds + t.offset := by
    rw [← h.clock]
    omega
  simp only [renderChars, date] at hyear ⊢
  generalize t.clockSeconds / 86400 = days at *
  generalize (t.clockSeconds % 86400).toNat = s at *
  generalize Date.ofDays days = d at *
  have hlength := daysInMonth_le d.year d.month
  have hhour : (↑s / 3600 : Int) = (s / 3600 : Nat) := by omega
  have hminute : (↑s / 60 % 60 : Int) = (s / 60 % 60 : Nat) := by omega
  have hsec : (↑s % 60 : Int) = (s % 60 : Nat) := by omega
  have hcentury : ((d.year.toNat / 100 : Nat) : Int) * 100 + (d.year.toNat % 100 : Nat) = d.year := by omega
  have hfraction := fraction_render h.nanos (noDigit_renderOffset t.offset)
  have hzone := offset?_render h.minutes hoffset
  have hfields : 1 ≤ d.month ∧ d.month ≤ 12 ∧ 1 ≤ d.day ∧ d.day ≤ daysInMonth d.year d.month ∧
      s / 3600 < 24 ∧ s / 60 % 60 < 60 ∧ s % 60 < 60 := by
    refine ⟨hmonth.1, hmonth.2, hday.1, hday.2, ?_, ?_, ?_⟩ <;> omega
  rw [paddedInt_year hyear, hhour, hminute, hsec, List.append_assoc]
  -- the fields are read one after the other, each from the front of what is left
  have hnext {α : Type} {part : Option α} {a : α} (hpart : part = some a) (f : α → Option Instant) :
      (part >>= f) = f a := by
    rw [hpart, Option.bind_eq_bind, Option.bind_some]
  refine (hnext (twoDigits?_padded (show d.year.toNat / 100 < 100 by omega) _) _).trans ?_
  refine (hnext (twoDigits?_padded (show d.year.toNat % 100 < 100 by omega) _) _).trans ?_
  refine (hnext (mark?_cons '-' _) _).trans ?_
  refine (hnext (twoDigits?_padded (show d.month < 100 by omega) _) _).trans ?_
  refine (hnext (mark?_cons '-' _) _).trans ?_
  refine (hnext (twoDigits?_padded (show d.day < 100 by omega) _) _).trans ?_
  refine (hnext (mark?_cons 'T' _) _).trans ?_
  refine (hnext (hourDigits?_padded (show s / 3600 < 100 by omega) _) _).trans ?_
  refine (hnext (mark?_cons ':' _) _).trans ?_
  refine (hnext (twoDigits?_padded (show s / 60 % 60 < 100 by omega) _) _).trans ?_
  refine (hnext (mark?_cons ':' _) _).trans ?_
  refine (hnext (twoDigits?_padded (show s % 60 < 100 by omega) _) _).trans ?_
  simp only [hfraction, hzone, Option.bind_eq_bind, Option.bind_some, hcentury, hdays]
  rw [if_pos ⟨rfl, hfields⟩]
  have hlocal : days * 86400 + ((s / 3600 * 3600 + s / 60 % 60 * 60 + s % 60 : Nat) : Int) - t.offset = t.seconds := by
    omega
  rw [hlocal]

/-- The text of an instant is read back as the instant, with its offset. -/
theorem Regular.parse?_render {t : Instant} (h : t.Regular) (hoffset : t.offset.natAbs < 24 * 3600) :
    parse? t.render = some t := by
  rw [parse?, render, String.toList_ofList, h.parseChars?_renderChars hoffset]

/-- The characters of the texts of instants. -/
def Plain (c : Char) : Prop := c.isDigit = true ∨ c ∈ ['-', 'T', ':', '.', 'Z', '+']

theorem plain_paddedInt (width : ℕ) (n : ℤ) : ∀ c ∈ paddedInt width n, Plain c := by
  intro c h
  rcases List.mem_append.mp h with hsign | hdigits
  · split_ifs at hsign
    · rw [List.mem_singleton.mp hsign]
      exact .inr (by decide)
    · simp at hsign
  · exact .inl (Number.Digits.isDigit_padded hdigits)

theorem plain_fraction (n : ℕ) : ∀ c ∈ Span.fraction 9 n, Plain c := by
  intro c h
  simp only [Span.fraction] at h
  split_ifs at h
  · simp at h
  · rcases List.mem_cons.mp h with rfl | hkept
    · exact .inr (by decide)
    · have hmem := (List.dropWhile_sublist _).subset (List.mem_reverse.mp hkept)
      exact .inl (Number.Digits.isDigit_padded (List.mem_reverse.mp hmem))

theorem plain_renderOffset (offset : ℤ) : ∀ c ∈ renderOffset offset, Plain c := by
  have hmark : ∀ c ∈ ['-', ':', 'Z', '+'], Plain c := fun c hc => .inr (by simp at hc ⊢; tauto)
  simp only [renderOffset]
  split_ifs with hzero hneg
  all_goals simp only [List.forall_mem_cons, List.forall_mem_append]
  · exact ⟨hmark _ (by decide), by simp⟩
  · exact ⟨hmark _ (by decide), plain_paddedInt _ _, hmark _ (by decide), plain_paddedInt _ _⟩
  · exact ⟨hmark _ (by decide), plain_paddedInt _ _, hmark _ (by decide), plain_paddedInt _ _⟩

theorem plain_renderChars (t : Instant) : ∀ c ∈ t.renderChars, Plain c := by
  have hmark : ∀ c ∈ ['-', 'T', ':'], Plain c := fun c hc => .inr (by simp at hc ⊢; tauto)
  simp only [renderChars, List.forall_mem_cons, List.forall_mem_append]
  exact ⟨plain_paddedInt _ _, hmark _ (by decide), plain_paddedInt _ _, hmark _ (by decide), plain_paddedInt _ _,
    hmark _ (by decide), plain_paddedInt _ _, hmark _ (by decide), plain_paddedInt _ _, hmark _ (by decide),
    ⟨plain_paddedInt _ _, plain_fraction _⟩, plain_renderOffset _⟩

theorem digit?_getD_le (c : Char) : (digit? c).getD 0 ≤ 9 := by
  rw [digit?]
  split_ifs with h
  · have hle : c.toNat ≤ '9'.toNat := h.2
    rw [Option.getD_some]
    have : '0'.toNat = 48 := rfl
    have : '9'.toNat = 57 := rfl
    omega
  · exact Nat.zero_le 9

theorem foldl_digits_lt (ds : List Char) (n : Nat) :
    ds.foldl (fun n c => n * 10 + (digit? c).getD 0) n < (n + 1) * 10 ^ ds.length := by
  induction ds generalizing n with
  | nil => simp
  | cons c ds ih =>
    have hc := digit?_getD_le c
    rw [List.foldl_cons, List.length_cons, Nat.pow_succ']
    calc _ < (n * 10 + (digit? c).getD 0 + 1) * 10 ^ ds.length := ih _
      _ ≤ (n + 1) * 10 * 10 ^ ds.length := Nat.mul_le_mul_right _ (by omega)
      _ = (n + 1) * (10 * 10 ^ ds.length) := Nat.mul_assoc _ _ _

theorem fraction_lt (cs : List Char) : (fraction cs).1 < 10 ^ 9 := by
  rw [fraction.eq_def]
  split
  · rename_i p d rest
    split_ifs
    · refine Nat.lt_of_lt_of_le (foldl_digits_lt _ 0) ?_
      rw [Nat.zero_add, Nat.one_mul]
      exact Nat.pow_le_pow_right (by decide) (List.length_take_le 9 _)
    · exact Nat.pow_pos (by decide)
  · exact Nat.pow_pos (by decide)

theorem offset?_minutes {cs : List Char} {offset : Int} {rest : List Char} (h : offset? cs = some (offset, rest)) :
    offset % 60 = 0 := by
  rw [offset?.eq_def] at h
  split at h
  · obtain ⟨rfl, -⟩ := Prod.mk.inj (Option.some.inj h)
    decide
  · simp only [Option.bind_eq_bind, Option.bind_eq_some_iff] at h
    obtain ⟨⟨hours, _⟩, -, _, -, ⟨minutes, _⟩, -, h⟩ := h
    dsimp only at h
    split_ifs at h with hrange hplus hminus
    · obtain ⟨rfl, -⟩ := Prod.mk.inj (Option.some.inj h)
      omega
    · obtain ⟨rfl, -⟩ := Prod.mk.inj (Option.some.inj h)
      omega
  · simp at h

theorem twoDigits?_le {cs : List Char} {n : Nat} {rest : List Char} (h : twoDigits? cs = some (n, rest)) : n ≤ 99 := by
  rw [twoDigits?.eq_def] at h
  split at h
  · rename_i a b _
    have ha := digit?_getD_le a
    have hb := digit?_getD_le b
    simp only [Option.bind_eq_bind, Option.bind_eq_some_iff, Option.pure_def, Option.some.injEq, Prod.mk.injEq] at h
    obtain ⟨x, hx, y, hy, rfl, -⟩ := h
    rw [hx, Option.getD_some] at ha
    rw [hy, Option.getD_some] at hb
    omega
  · simp at h

theorem clockSeconds_eq {t : Instant} (hlow : -63000000000 ≤ t.seconds + t.offset)
    (hup : t.seconds + t.offset ≤ 260000000000) : t.clockSeconds = t.seconds + t.offset := by
  have hfirst : firstSecond = -9223372028741760000 := by decide
  have hturn : Int.pow 2 64 = 18446744073709551616 := by decide
  rw [clockSeconds, hfirst, hturn, Int.emod_eq_of_lt (by omega) (by omega)]
  omega

/-- Every instant that is read from a text is one of a year of four digits. -/
theorem regular_of_parseChars? {cs : List Char} {t : Instant} (h : parseChars? cs = some t) : t.Regular := by
  obtain ⟨⟨century, _⟩, hcentury, h⟩ := Option.bind_eq_some_iff.mp h
  obtain ⟨⟨year, _⟩, hyear, h⟩ := Option.bind_eq_some_iff.mp h
  obtain ⟨_, -, h⟩ := Option.bind_eq_some_iff.mp h
  obtain ⟨⟨month, _⟩, -, h⟩ := Option.bind_eq_some_iff.mp h
  obtain ⟨_, -, h⟩ := Option.bind_eq_some_iff.mp h
  obtain ⟨⟨day, _⟩, -, h⟩ := Option.bind_eq_some_iff.mp h
  obtain ⟨_, -, h⟩ := Option.bind_eq_some_iff.mp h
  obtain ⟨⟨hour, _⟩, -, h⟩ := Option.bind_eq_some_iff.mp h
  obtain ⟨_, -, h⟩ := Option.bind_eq_some_iff.mp h
  obtain ⟨⟨minute, _⟩, -, h⟩ := Option.bind_eq_some_iff.mp h
  obtain ⟨_, -, h⟩ := Option.bind_eq_some_iff.mp h
  obtain ⟨⟨second, rest⟩, -, h⟩ := Option.bind_eq_some_iff.mp h
  have hnanos := fraction_lt rest
  rcases hpart : fraction rest with ⟨nanos, more⟩
  rw [hpart] at hnanos
  simp only [hpart] at h
  obtain ⟨⟨offset, _⟩, hoffset, h⟩ := Option.bind_eq_some_iff.mp h
  have hcentury := twoDigits?_le hcentury
  have hyear := twoDigits?_le hyear
  have hminutes := offset?_minutes hoffset
  split_ifs at h with hfields
  obtain ⟨-, hmonth1, hmonth2, hday1, hday2, hhour, hminute, hsecond⟩ := hfields
  have hlength := daysInMonth_le (century * 100 + year) month
  have hdays : -719528 ≤ Date.toDays ⟨century * 100 + year, month, day⟩ ∧
      Date.toDays ⟨century * 100 + year, month, day⟩ ≤ 2932896 :=
    Date.toDays_range ⟨by simp only; omega, by simp only; omega⟩ ⟨hmonth1, hmonth2⟩ ⟨hday1, by simp only; omega⟩
  have hyears := Date.year_ofDays hdays
  obtain rfl := Option.some.inj h
  generalize Date.toDays ⟨century * 100 + year, month, day⟩ = days at hdays hyears ⊢
  have hclock := clockSeconds_eq (t := ⟨days * 86400 + ((hour * 3600 + minute * 60 + second : Nat) : Int) - offset, nanos, offset⟩)
    (by simp only; omega) (by simp only; omega)
  refine ⟨hnanos, hminutes, hclock, ?_⟩
  have hday : (days * 86400 + ((hour * 3600 + minute * 60 + second : Nat) : Int) - offset + offset) / 86400 = days := by
    omega
  rw [date, hclock, hday]
  exact hyears

theorem regular_of_parse? {s : String} {t : Instant} (h : parse? s = some t) : t.Regular :=
  regular_of_parseChars? h

end BinFleet.Time.Instant
