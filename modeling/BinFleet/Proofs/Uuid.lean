import BinFleet.Proofs.Text
import BinFleet.Uuid
import Mathlib.Algebra.Group.Nat.Even

namespace BinFleet.Text.Hex

section Digits

theorem toNat_of_value? {c : Char} {n : Nat} (h : value? c = some n) : c.toNat < 0x80 := by
  have hle : ∀ {d : Char}, c ≤ d → c.toNat ≤ d.toNat := fun h => UInt32.le_iff_toNat_le.mp (Char.le_def.mp h)
  unfold value? at h
  split_ifs at h with h1 h2 h3
  · exact Nat.lt_of_le_of_lt (hle h1.2) (by decide)
  · exact Nat.lt_of_le_of_lt (hle h2.2) (by decide)
  · exact Nat.lt_of_le_of_lt (hle h3.2) (by decide)

/-- A digit that is read is written in lower case. -/
theorem digit_of_value? {c : Char} {n : Nat} (h : value? c = some n) : n < 16 ∧ digit n = c.toLower := by
  have hall : ∀ k : Fin 0x80, ∀ n ∈ value? (Char.ofNat k), n < 16 ∧ digit n = (Char.ofNat k).toLower := by
    decide +kernel
  have hc := hall ⟨c.toNat, toNat_of_value? h⟩ n
  rw [Char.ofNat_toNat] at hc
  exact hc h

theorem ofByte_pair {high low : Nat} (hhigh : high < 16) (hlow : low < 16) :
    ofByte (UInt8.ofNat (high * 16 + low)) = [digit high, digit low] := by
  have hoctet : (UInt8.ofNat (high * 16 + low)).toNat = high * 16 + low := Utf8.toNat_octet (by omega)
  rw [ofByte_eq, hoctet]
  congr 3 <;> omega

end Digits

theorem length_ofBytes (bs : List UInt8) : (ofBytes bs).length = 2 * bs.length := by
  induction bs with
  | nil => rfl
  | cons b bs ih =>
    rw [ofBytes, List.flatMap_cons, ← ofBytes, List.length_append, ih, ofByte_eq]
    simp only [List.length_cons, List.length_nil]
    omega

theorem ofBytes_append (bs bs' : List UInt8) : ofBytes (bs ++ bs') = ofBytes bs ++ ofBytes bs' := List.flatMap_append

theorem dash_not_mem_ofBytes (bs : List UInt8) : '-' ∉ ofBytes bs := by
  have hdigit : ∀ k : Fin 16, digit k ≠ '-' := by decide
  intro hmem
  obtain ⟨b, -, hb⟩ := List.mem_flatMap.mp hmem
  simp only [ofByte_eq, List.mem_cons, List.not_mem_nil, or_false] at hb
  rcases hb with hb | hb
  · exact hdigit ⟨_, Nat.mod_lt _ (by decide)⟩ hb.symm
  · exact hdigit ⟨_, Nat.mod_lt _ (by decide)⟩ hb.symm

theorem ofBytes_take (n : Nat) (bs : List UInt8) : ofBytes (bs.take n) = (ofBytes bs).take (2 * n) := by
  induction bs generalizing n with
  | nil => simp [ofBytes]
  | cons b bs ih =>
    cases n with
    | zero => rfl
    | succ n =>
      rw [List.take_succ_cons, ofBytes, List.flatMap_cons, ← ofBytes, ih]
      rfl

theorem ofBytes_drop (n : Nat) (bs : List UInt8) : ofBytes (bs.drop n) = (ofBytes bs).drop (2 * n) := by
  induction bs generalizing n with
  | nil => simp [ofBytes]
  | cons b bs ih =>
    cases n with
    | zero => rfl
    | succ n =>
      rw [List.drop_succ_cons, ih]
      rfl

theorem ofBytes_of_toBytes? {cs : List Char} {bs : List UInt8} (h : toBytes? cs = some bs) :
    ofBytes bs = cs.map Char.toLower := by
  fun_induction toBytes? cs generalizing bs with
  | case1 =>
    obtain rfl := Option.some.inj h
    rfl
  | case2 => simp at h
  | case3 a b rest ih =>
    simp only [Option.bind_eq_bind, Option.bind_eq_some_iff] at h
    obtain ⟨high, hhigh, low, hlow, bs', hrest, h⟩ := h
    obtain rfl := Option.some.inj h
    obtain ⟨hhigh, hfirst⟩ := digit_of_value? hhigh
    obtain ⟨hlow, hsecond⟩ := digit_of_value? hlow
    rw [ofBytes, List.flatMap_cons, ofByte_pair hhigh hlow, ← ofBytes, ih hrest, hfirst, hsecond]
    rfl

theorem exists_toBytes?_iff {cs : List Char} :
    (∃ bs, toBytes? cs = some bs) ↔ Even cs.length ∧ ∀ c ∈ cs, (value? c).isSome := by
  fun_induction toBytes? cs with
  | case1 => simp
  | case2 => simp
  | case3 a b rest ih =>
    rw [List.length_cons, List.length_cons, Nat.even_add_one, Nat.even_add_one, not_not, List.forall_mem_cons,
      List.forall_mem_cons]
    cases value? a with
    | none => simp
    | some high =>
      cases value? b with
      | none => simp
      | some low =>
        simp only [Option.isSome_some, true_and, ← ih]
        cases toBytes? rest <;> simp

end BinFleet.Text.Hex

namespace BinFleet.Uuid

open Text.Hex

section Places

variable {α : Type} {dash : α}

/-- Five groups of thirty-two items, with dashes between them. -/
def spread (dash : α) (items : List α) : List α :=
  items.take 8 ++ dash :: ((items.drop 8).take 4 ++ dash :: ((items.drop 12).take 4 ++ dash ::
    ((items.drop 16).take 4 ++ dash :: items.drop 20)))

theorem groups_eq (items : List α) :
    items.take 8 ++ ((items.drop 8).take 4 ++ ((items.drop 12).take 4 ++ ((items.drop 16).take 4 ++ items.drop 20))) =
      items := by
  have h12 : items.drop 12 = (items.drop 8).drop 4 := by rw [List.drop_drop]
  have h16 : items.drop 16 = (items.drop 12).drop 4 := by rw [List.drop_drop]
  have h20 : items.drop 20 = (items.drop 16).drop 4 := by rw [List.drop_drop]
  rw [h20, List.take_append_drop, h16, List.take_append_drop, h12, List.take_append_drop, List.take_append_drop]

theorem spread_groups {a b c d : List α} (ha : a.length = 8) (hb : b.length = 4) (hc : c.length = 4) (hd : d.length = 4)
    (e : List α) :
    spread dash (a ++ (b ++ (c ++ (d ++ e)))) = a ++ dash :: (b ++ dash :: (c ++ dash :: (d ++ dash :: e))) := by
  simp [spread, List.drop_append, List.drop_of_length_le, ha, hb, hc, hd]

theorem map_spread {β : Type} (f : α → β) (items : List α) :
    (spread dash items).map f = spread (f dash) (items.map f) := by
  simp [spread, List.map_take, List.map_drop]

theorem filter_spread {p : α → Bool} (h : p dash = false) (items : List α) :
    (spread dash items).filter p = items.filter p := by
  conv_rhs => rw [← groups_eq items]
  simp [spread, h]

theorem mem_spread {items : List α} {x : α} (h : x ∈ items) : x ∈ spread dash items := by
  rw [← groups_eq items] at h
  simp only [List.mem_append] at h
  simp only [spread, List.mem_append, List.mem_cons]
  tauto

theorem count_spread [DecidableEq α] (items : List α) : (spread dash items).count dash = items.count dash + 4 := by
  conv_rhs => rw [← groups_eq items]
  simp only [spread, List.count_append, List.count_cons_self]
  omega

/-- What is said of places and items holds of a list whose first item stands at place `n`. -/
def HoldsFrom (n : Nat) (P : Nat → α → Prop) (items : List α) : Prop := ∀ i x, items[i]? = some x → P (n + i) x

variable {P : Nat → α → Prop} {n : Nat}

theorem holdsFrom_append_cons {front rest : List α} :
    HoldsFrom n P (front ++ dash :: rest) ↔
      HoldsFrom n P front ∧ P (n + front.length) dash ∧ HoldsFrom (n + front.length + 1) P rest := by
  have hbehind : ∀ i, (front ++ dash :: rest)[front.length + 1 + i]? = rest[i]? := by
    intro i
    rw [List.getElem?_append_right (by omega), show front.length + 1 + i - front.length = i + 1 by omega,
      List.getElem?_cons_succ]
  constructor
  · intro h
    refine ⟨fun i x hi => h i x ?_, h _ _ (by simp), fun i x hi => ?_⟩
    · obtain ⟨hlt, -⟩ := List.getElem?_eq_some_iff.mp hi
      rwa [List.getElem?_append_left hlt]
    · have hplace := h (front.length + 1 + i) x (by rwa [hbehind])
      rwa [← Nat.add_assoc, ← Nat.add_assoc] at hplace
  · rintro ⟨hfront, hdash, hrest⟩ i x hi
    rcases Nat.lt_trichotomy i front.length with hlt | rfl | hgt
    · exact hfront i x (by rwa [List.getElem?_append_left hlt] at hi)
    · obtain rfl : dash = x := by simpa using hi
      exact hdash
    · obtain ⟨j, rfl⟩ := Nat.exists_eq_add_of_lt hgt
      rw [Nat.add_right_comm] at hi ⊢
      rw [hbehind] at hi
      rw [← Nat.add_assoc, ← Nat.add_assoc]
      exact hrest j x hi

theorem holdsFrom_iff {items : List α} {Q : α → Prop} (h : ∀ i < items.length, ∀ x, P (n + i) x ↔ Q x) :
    HoldsFrom n P items ↔ ∀ x ∈ items, Q x := by
  constructor
  · intro hall x hx
    obtain ⟨i, hi⟩ := List.mem_iff_getElem?.mp hx
    obtain ⟨hlt, -⟩ := List.getElem?_eq_some_iff.mp hi
    exact (h i hlt x).mp (hall i x hi)
  · intro hall i x hi
    obtain ⟨hlt, -⟩ := List.getElem?_eq_some_iff.mp hi
    exact (h i hlt x).mpr (hall x (List.mem_of_getElem? hi))

end Places

/-- Where the dashes of a written identifier stand. -/
def dashPlaces : List Nat := [8, 13, 18, 23]

def isHexDigit (b : UInt8) : Bool :=
  (0x30 ≤ b && b ≤ 0x39) || (0x41 ≤ b && b ≤ 0x46) || (0x61 ≤ b && b ≤ 0x66)

/-- A dash or a digit, as a place asks for it. -/
def StandsAt (i : Nat) (b : UInt8) : Prop := if i ∈ dashPlaces then b = 0x2d else isHexDigit b

/-- Dashes at their places and digits at all others. -/
structure Canonical (text : Octets) : Prop where
  length : text.length = 36
  places : ∀ i b, text[i]? = some b → StandsAt i b

/-- Dashes at their places; elsewhere digits, and dashes as long as the digits are left in pairs. -/
structure Readable (text : Octets) : Prop where
  length : text.length = 36
  dashes : ∀ i ∈ dashPlaces, text[i]? = some 0x2d
  digits : ∀ b ∈ text, b = 0x2d ∨ isHexDigit b
  pairs : Even (text.count 0x2d)

theorem exists_split {text : Octets} {i : Nat} {b : UInt8} (h : text[i]? = some b) :
    ∃ front rest, text = front ++ b :: rest ∧ front.length = i := by
  obtain ⟨hi, rfl⟩ := List.getElem?_eq_some_iff.mp h
  refine ⟨text.take i, text.drop (i + 1), ?_, List.length_take_of_le (Nat.le_of_lt hi)⟩
  rw [← List.drop_eq_getElem_cons hi, List.take_append_drop]

theorem exists_spread {text : Octets} (hlength : text.length = 36) (hdashes : ∀ i ∈ dashPlaces, text[i]? = some 0x2d) :
    ∃ items, items.length = 32 ∧ text = spread 0x2d items := by
  simp only [dashPlaces, List.forall_mem_cons, List.not_mem_nil, false_imp_iff, implies_true, and_true] at hdashes
  obtain ⟨h8, h13, h18, h23⟩ := hdashes
  -- from the last dash to the first, so that the places in front stay the same
  obtain ⟨front, e, rfl, hfront⟩ := exists_split h23
  rw [List.getElem?_append_left (by omega)] at h8 h13 h18
  obtain ⟨front, d, rfl, hfront'⟩ := exists_split h18
  rw [List.getElem?_append_left (by omega)] at h8 h13
  obtain ⟨front, c, rfl, hfront''⟩ := exists_split h13
  rw [List.getElem?_append_left (by omega)] at h8
  obtain ⟨a, b, rfl, ha⟩ := exists_split h8
  simp only [List.length_append, List.length_cons] at hlength hfront hfront' hfront''
  refine ⟨a ++ (b ++ (c ++ (d ++ e))), ?_, ?_⟩
  · simp only [List.length_append]
    omega
  · rw [spread_groups ha (by omega) (by omega) (by omega)]
    simp

theorem canonical_iff {text : Octets} : Canonical text ↔ text.length = 36 ∧ HoldsFrom 0 StandsAt text := by
  simp only [HoldsFrom, Nat.zero_add]
  exact ⟨fun h => ⟨h.length, h.places⟩, fun h => ⟨h.1, h.2⟩⟩

section Groups

variable {n : Nat} {group rest : Octets}

theorem standsFrom_iff (h : ∀ i < group.length, n + i ∉ dashPlaces) :
    HoldsFrom n StandsAt group ↔ ∀ b ∈ group, isHexDigit b :=
  holdsFrom_iff fun i hi b => by rw [StandsAt, if_neg (h i hi)]

/-- A group that ends at the next dash. -/
theorem standsFrom_append_cons (hgroup : ∀ i < group.length, n + i ∉ dashPlaces)
    (hdash : n + group.length ∈ dashPlaces) :
    HoldsFrom n StandsAt (group ++ 0x2d :: rest) ↔
      (∀ b ∈ group, isHexDigit b) ∧ HoldsFrom (n + group.length + 1) StandsAt rest := by
  have hstands : StandsAt (n + group.length) 0x2d := by rw [StandsAt, if_pos hdash]
  simp only [holdsFrom_append_cons, standsFrom_iff hgroup, hstands, true_and]

end Groups

theorem canonical_spread_iff {items : Octets} (h : items.length = 32) :
    Canonical (spread 0x2d items) ↔ ∀ b ∈ items, isHexDigit b := by
  have hlength : (spread 0x2d items).length = 36 := by simp [spread, h]
  have h8 : (items.take 8).length = 8 := by simp [h]
  have h4 : ∀ i ≤ 16, ((items.drop i).take 4).length = 4 := by
    intro i hi
    rw [List.length_take, List.length_drop, h]
    omega
  have h12 : (items.drop 20).length = 12 := by rw [List.length_drop, h]
  rw [canonical_iff, and_iff_right hlength, spread]
  conv_rhs => rw [← groups_eq items]
  simp only [List.forall_mem_append]
  rw [standsFrom_append_cons, standsFrom_append_cons, standsFrom_append_cons, standsFrom_append_cons, standsFrom_iff]
  all_goals simp only [h8, h4 8 (by decide), h4 12 (by decide), h4 16 (by decide), h12, dashPlaces]
  all_goals decide

/-- An octet as a character: whether it is a digit, and whether it becomes a dash in lower case. -/
theorem octet_cases (b : UInt8) :
    (value? (Char.ofNat b.toNat)).isSome = isHexDigit b ∧ ((Char.ofNat b.toNat).toLower = '-' ↔ b = 0x2d) ∧
      isHexDigit 0x2d = false := by
  have hall : ∀ k : Fin 256, (value? (Char.ofNat k)).isSome = isHexDigit (UInt8.ofNat k) ∧
      ((Char.ofNat k).toLower = '-' ↔ UInt8.ofNat k = 0x2d) := by
    decide +kernel
  have hb := hall ⟨b.toNat, b.toNat_lt⟩
  rw [UInt8.ofNat_toNat] at hb
  exact ⟨hb.1, hb.2, rfl⟩

/-- The digits of a text, wherever dashes stand. -/
def digitsOf (text : Octets) : Octets := text.filter (· != 0x2d)

theorem count_add_length_digitsOf (text : Octets) : text.count 0x2d + (digitsOf text).length = text.length := by
  rw [digitsOf, ← List.countP_eq_length_filter, List.count, text.length_eq_countP_add_countP (· == 0x2d)]
  congr 1
  exact List.countP_congr fun b _ => by simp

theorem readable_iff {text : Octets} :
    Readable text ↔ (text.length = 36 ∧ ∀ i ∈ dashPlaces, text[i]? = some 0x2d) ∧
      ∃ bs, toBytes? (letters (digitsOf text)) = some bs := by
  have hdigits : (∀ c ∈ letters (digitsOf text), (value? c).isSome) ↔ ∀ b ∈ text, b = 0x2d ∨ isHexDigit b := by
    simp only [letters, digitsOf, List.forall_mem_map, List.mem_filter, bne_iff_ne, and_imp, (octet_cases _).1,
      or_iff_not_imp_left]
  have hpairs : text.length = 36 → (Even (letters (digitsOf text)).length ↔ Even (text.count 0x2d)) := by
    intro hlength
    have hsum : Even (text.count 0x2d + (digitsOf text).length) := by
      rw [count_add_length_digitsOf, hlength]
      decide
    rw [letters, List.length_map]
    exact (Nat.even_add.mp hsum).symm
  rw [exists_toBytes?_iff, hdigits]
  constructor
  · intro h
    exact ⟨⟨h.length, h.dashes⟩, (hpairs h.length).mpr h.pairs, h.digits⟩
  · rintro ⟨⟨hlength, hdashes⟩, heven, hdigits⟩
    exact ⟨hlength, hdashes, hdigits, (hpairs hlength).mp heven⟩

theorem parseOctets_of_readable {text : Octets} (h : Readable text) :
    ∃ bs, toBytes? (letters (digitsOf text)) = some bs ∧ parseOctets text = (ofLeading bs, none) := by
  obtain ⟨⟨hlength, hdashes⟩, bs, hbytes⟩ := readable_iff.mp h
  refine ⟨bs, hbytes, ?_⟩
  rw [parseOctets, if_pos ⟨hlength, by simpa [dashPlaces] using hdashes⟩, ← digitsOf, hbytes]

theorem parseOctets_of_not_readable {text : Octets} (h : ¬ Readable text) :
    parseOctets text = (zero, some .invalidFormat) := by
  unfold parseOctets
  split_ifs with hshape
  · cases hbytes : toBytes? (letters (text.filter (· != 0x2d))) with
    | none => rfl
    | some bs =>
      exact absurd (readable_iff.mpr ⟨⟨hshape.1, by simpa [dashPlaces] using hshape.2⟩, bs, hbytes⟩) h
  · rfl

/-- Digits that are missing at the end are zeros. -/
theorem ofBytes_ofLeading {bs : List UInt8} (h : bs.length ≤ 16) :
    ofBytes (ofLeading bs).bytes = ofBytes bs ++ List.replicate (32 - 2 * bs.length) '0' := by
  have hzeros : ∀ n, ofBytes (List.replicate n 0) = List.replicate (2 * n) '0' := by
    intro n
    induction n with
    | zero => rfl
    | succ n ih =>
      rw [List.replicate_succ, ofBytes, List.flatMap_cons, ← ofBytes, ih, Nat.mul_succ]
      rfl
  have hbytes : (ofLeading bs).bytes = bs ++ List.replicate (16 - bs.length) 0 := by
    change (bs ++ List.replicate 16 0).take 16 = _
    rw [List.take_append, List.take_of_length_le h, List.take_replicate, Nat.min_eq_left (by omega)]
  rw [hbytes, ofBytes_append, hzeros]
  congr 2
  omega

theorem renderChars_eq (u : Uuid) : u.renderChars = spread '-' (ofBytes u.bytes) := by
  have hlength : (ofBytes u.bytes).length = 32 := by rw [length_ofBytes, u.length_eq]
  simp only [renderChars, spread, ofBytes_take, ofBytes_drop, Nat.reduceMul, List.drop_zero]
  rw [List.take_of_length_le (i := 12) (by rw [List.length_drop, hlength])]

/-- The dashes of a written identifier. -/
theorem count_renderChars (u : Uuid) : u.renderChars.count '-' = 4 := by
  rw [renderChars_eq, count_spread, List.count_eq_zero_of_not_mem (dash_not_mem_ofBytes u.bytes)]

/-- A text in lower case. -/
def lowered (text : Octets) : List Char := (letters text).map Char.toLower

theorem count_lowered (text : Octets) : (lowered text).count '-' = text.count 0x2d := by
  rw [lowered, letters, List.map_map, List.count, List.countP_map, List.count]
  exact List.countP_congr fun b _ => by simp [(octet_cases b).2.1]

/-- The canonical texts are the readable ones without further dashes. -/
theorem canonical_iff_readable {text : Octets} : Canonical text ↔ Readable text ∧ text.count 0x2d = 4 := by
  have hdash : isHexDigit 0x2d = false := rfl
  constructor
  · intro h
    have hdashes : ∀ i ∈ dashPlaces, text[i]? = some 0x2d := by
      intro i hi
      have hlt : i < text.length := by
        rw [h.length]
        revert i
        decide
      have hstands := h.places i _ (List.getElem?_eq_getElem hlt)
      rw [StandsAt, if_pos hi] at hstands
      rw [List.getElem?_eq_getElem hlt, hstands]
    obtain ⟨items, hitems, rfl⟩ := exists_spread h.length hdashes
    have hdigits := (canonical_spread_iff hitems).mp h
    have hnone : items.count 0x2d = 0 :=
      List.count_eq_zero_of_not_mem fun hmem => by simpa [hdash] using hdigits _ hmem
    have hcount : (spread 0x2d items).count 0x2d = 4 := by rw [count_spread, hnone]
    refine ⟨⟨h.length, hdashes, fun b hb => ?_, by rw [hcount]; decide⟩, hcount⟩
    obtain ⟨i, hi⟩ := List.mem_iff_getElem?.mp hb
    have hstands := h.places i b hi
    rw [StandsAt] at hstands
    split_ifs at hstands
    · exact .inl hstands
    · exact .inr hstands
  · rintro ⟨h, hcount⟩
    obtain ⟨items, hitems, rfl⟩ := exists_spread h.length h.dashes
    have hnone : 0x2d ∉ items := by
      rw [count_spread] at hcount
      exact List.count_eq_zero.mp (by omega)
    refine (canonical_spread_iff hitems).mpr fun b hb => (h.digits b (mem_spread hb)).resolve_left ?_
    rintro rfl
    exact hnone hb

section Reading

variable {text : Octets} {bs : List UInt8}

/-- The digits that are read are those of the text in lower case, and zeros for those that further
dashes displace. -/
theorem ofBytes_of_readable (h : Readable text) (hbytes : toBytes? (letters (digitsOf text)) = some bs) :
    ofBytes (ofLeading bs).bytes = lowered (digitsOf text) ++ List.replicate (text.count 0x2d - 4) '0' := by
  have hread : ofBytes bs = lowered (digitsOf text) := ofBytes_of_toBytes? hbytes
  have hlength : 2 * bs.length = (digitsOf text).length := by
    rw [← length_ofBytes, hread, lowered, letters, List.length_map, List.length_map]
  have hall := count_add_length_digitsOf text
  obtain ⟨items, -, hspread⟩ := exists_spread h.length h.dashes
  have hdashes : 4 ≤ text.count 0x2d := by
    rw [hspread, count_spread]
    omega
  rw [h.length] at hall
  rw [ofBytes_ofLeading (by omega), hread]
  congr 2
  omega

/-- What is read is written as the text was, up to letter case, exactly when the text is canonical. -/
theorem renderChars_eq_lowered_iff (h : Readable text) (hbytes : toBytes? (letters (digitsOf text)) = some bs) :
    (ofLeading bs).renderChars = lowered text ↔ Canonical text := by
  constructor
  · intro hrender
    refine canonical_iff_readable.mpr ⟨h, ?_⟩
    rw [← count_lowered, ← hrender, count_renderChars]
  · intro hcanonical
    obtain ⟨-, hcount⟩ := canonical_iff_readable.mp hcanonical
    obtain ⟨items, hitems, rfl⟩ := exists_spread h.length h.dashes
    have hdigits : digitsOf (spread 0x2d items) = items := by
      rw [digitsOf, filter_spread (by decide), List.filter_eq_self]
      intro b hb
      have hb := (canonical_spread_iff hitems).mp hcanonical b hb
      rw [bne_iff_ne]
      rintro rfl
      exact Bool.false_ne_true hb
    rw [renderChars_eq, ofBytes_of_readable h hbytes, hcount, hdigits, Nat.sub_self, List.replicate_zero,
      List.append_nil, lowered, lowered, letters, letters, map_spread, map_spread]
    rfl

end Reading

/-- A text is read exactly when it is readable; any other is refused, gives zero and leaves a variable as
it was. A canonical text gives the identifier that is written as it, in lower case. A readable text that
is not canonical has further dashes and gives an identifier that is written otherwise. -/
theorem parse_exactly_readable (text : Octets) (old : Uuid) :
    ((∃ u, parseOctets text = (u, none)) ↔ Readable text) ∧
    (¬ Readable text →
      parseOctets text = (zero, some .invalidFormat) ∧ readInto old text = (old, some .invalidFormat)) ∧
    (Canonical text ↔ Readable text ∧ text.count 0x2d = 4) ∧
    ∀ u, parseOctets text = (u, none) → readInto old text = (u, none) ∧
      (u.render = String.ofList (lowered text) ↔ Canonical text) ∧
      u.hex = String.ofList (lowered (digitsOf text) ++ List.replicate (text.count 0x2d - 4) '0') := by
  by_cases h : Readable text
  · obtain ⟨bs, hbytes, hparse⟩ := parseOctets_of_readable h
    refine ⟨iff_of_true ⟨_, hparse⟩ h, fun hno => absurd h hno, canonical_iff_readable, fun u hu => ?_⟩
    obtain rfl : ofLeading bs = u := congrArg Prod.fst (hparse.symm.trans hu)
    refine ⟨by rw [readInto, hparse], ?_, ?_⟩
    · rw [render, String.ofList_inj]
      exact renderChars_eq_lowered_iff h hbytes
    · rw [hex, ofBytes_of_readable h hbytes]
  · have hparse := parseOctets_of_not_readable h
    exact ⟨iff_of_false (by simp [hparse]) h, fun _ => ⟨hparse, by rw [readInto, hparse]⟩, canonical_iff_readable,
      by simp [hparse]⟩

/-- Capitals are read as small letters. -/
theorem capitals_read : Canonical (Text.Utf8.ofString "AbCdEf01-2345-6789-aBcD-Ef0123456789") ∧
    ∃ u, parse "AbCdEf01-2345-6789-aBcD-Ef0123456789" = (u, none) ∧
      u.render = "abcdef01-2345-6789-abcd-ef0123456789" ∧
      parseInto zero "AbCdEf01-2345-6789-aBcD-Ef0123456789" = (u, none) := by
  have htext : Text.Utf8.ofString "AbCdEf01-2345-6789-aBcD-Ef0123456789" =
      spread 0x2d (Text.Utf8.ofString "AbCdEf0123456789aBcDEf0123456789") := by
    decide +kernel
  have hcanonical : Canonical (Text.Utf8.ofString "AbCdEf01-2345-6789-aBcD-Ef0123456789") := by
    rw [htext, canonical_spread_iff (by decide +kernel)]
    decide +kernel
  obtain ⟨hread, -, hreadable, hparsed⟩ :=
    parse_exactly_readable (Text.Utf8.ofString "AbCdEf01-2345-6789-aBcD-Ef0123456789") zero
  obtain ⟨u, hu⟩ := hread.mpr (hreadable.mp hcanonical).1
  obtain ⟨hinto, hrender, -⟩ := hparsed u hu
  refine ⟨hcanonical, u, hu, (hrender.mpr hcanonical).trans ?_, hinto⟩
  decide +kernel

/-- Two dashes in the place of the last two digits are read as zeros. -/
theorem displaced_digits_read : ¬ Canonical (Text.Utf8.ofString "12345678-1234-1234-1234-1234567890--") ∧
    ∃ u, parse "12345678-1234-1234-1234-1234567890--" = (u, none) ∧
      u.render = "12345678-1234-1234-1234-123456789000" := by
  refine ⟨fun h => ?_, ofLeading [0x12, 0x34, 0x56, 0x78, 0x12, 0x34, 0x12, 0x34, 0x12, 0x34, 0x12, 0x34, 0x56, 0x78, 0x90],
    ?_, ?_⟩
  · have hlast : StandsAt 35 0x2d := h.places 35 0x2d (by decide +kernel)
    rw [StandsAt, if_neg (by decide)] at hlast
    exact Bool.false_ne_true hlast
  · rfl
  · decide +kernel

end BinFleet.Uuid
