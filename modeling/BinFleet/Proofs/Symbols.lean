import BinFleet.Proofs.Text

namespace BinFleet.Text.Utf8

section Sequences

variable {a b : UInt8} {rest : List UInt8} {c : Char} {n : Nat}

theorem toNat_of_tail? (h : tail? b = some n) : b.toNat = n + 0x80 ∧ n < 64 := by
  simp only [tail?, UInt8.le_iff_toNat_le, UInt8.reduceToNat] at h
  split_ifs at h with hb
  have hn := Option.some.inj h
  omega

theorem toNat_of_checked? {least code : Nat} (h : checked? least code = some c) : c.toNat = code ∧ least ≤ code := by
  unfold checked? at h
  split_ifs at h with hcode
  have hc := Option.some.inj h
  subst hc
  rw [Char.ofNat, dif_pos hcode.2]
  exact ⟨rfl, hcode.1⟩

theorem ofNat_eq_octet {k : Nat} (h : a.toNat = k) : UInt8.ofNat k = a := by
  rw [← h, UInt8.ofNat_toNat]

theorem drop_eq_cons_of_getElem? {i : Nat} (h : rest[i]? = some b) : rest.drop i = b :: rest.drop (i + 1) := by
  obtain ⟨hi, rfl⟩ := List.getElem?_eq_some_iff.mp h
  exact List.drop_eq_getElem_cons hi

/-- What is read as a character is what it is written as. -/
theorem eq_append_of_sequence? (h : sequence? (a :: rest) = some (c, n)) :
    n = (String.utf8EncodeChar c).length ∧ a :: rest = String.utf8EncodeChar c ++ rest.drop (n - 1) := by
  have hval : c.val.toNat = c.toNat := rfl
  simp only [sequence?, UInt8.lt_iff_toNat_lt, UInt8.le_iff_toNat_le, UInt8.reduceToNat] at h
  split_ifs at h with h1 h2 h3 h4
  · obtain ⟨hc, rfl⟩ := Prod.mk.inj (Option.some.inj h)
    have hcode : c.toNat = a.toNat := by
      rw [← hc, Char.ofNat, dif_pos (.inl (by omega))]
      rfl
    have hwritten : String.utf8EncodeChar c = [a] := by
      rw [String.utf8EncodeChar, hval, if_pos (by omega), ofNat_eq_octet hcode.symm]
    simp [hwritten]
  · simp only [Option.bind_eq_bind, Option.bind_eq_some_iff] at h
    obtain ⟨b₁, hb₁, y₁, hy₁, c', hc, h⟩ := h
    obtain ⟨rfl, rfl⟩ := Prod.mk.inj (Option.some.inj h)
    obtain ⟨hcode, hleast⟩ := toNat_of_checked? hc
    obtain ⟨hy₁, hlt₁⟩ := toNat_of_tail? hy₁
    have hrest : rest = b₁ :: rest.drop 1 := drop_eq_cons_of_getElem? hb₁
    have hwritten : String.utf8EncodeChar c' = [a, b₁] := by
      rw [String.utf8EncodeChar, hval, if_neg (by omega), if_pos (by omega),
        ofNat_eq_octet (a := a) (by omega), ofNat_eq_octet (a := b₁) (by omega)]
    simpa [hwritten] using hrest
  · simp only [Option.bind_eq_bind, Option.bind_eq_some_iff] at h
    obtain ⟨b₁, hb₁, y₁, hy₁, b₂, hb₂, y₂, hy₂, c', hc, h⟩ := h
    obtain ⟨rfl, rfl⟩ := Prod.mk.inj (Option.some.inj h)
    obtain ⟨hcode, hleast⟩ := toNat_of_checked? hc
    obtain ⟨hy₁, hlt₁⟩ := toNat_of_tail? hy₁
    obtain ⟨hy₂, hlt₂⟩ := toNat_of_tail? hy₂
    have hrest : rest = b₁ :: b₂ :: rest.drop 2 :=
      (drop_eq_cons_of_getElem? hb₁).trans (by rw [drop_eq_cons_of_getElem? hb₂])
    have hwritten : String.utf8EncodeChar c' = [a, b₁, b₂] := by
      rw [String.utf8EncodeChar, hval, if_neg (by omega), if_neg (by omega), if_pos (by omega),
        ofNat_eq_octet (a := a) (by omega), ofNat_eq_octet (a := b₁) (by omega), ofNat_eq_octet (a := b₂) (by omega)]
    simpa [hwritten] using hrest
  · simp only [Option.bind_eq_bind, Option.bind_eq_some_iff] at h
    obtain ⟨b₁, hb₁, y₁, hy₁, b₂, hb₂, y₂, hy₂, b₃, hb₃, y₃, hy₃, c', hc, h⟩ := h
    obtain ⟨rfl, rfl⟩ := Prod.mk.inj (Option.some.inj h)
    obtain ⟨hcode, hleast⟩ := toNat_of_checked? hc
    obtain ⟨hy₁, hlt₁⟩ := toNat_of_tail? hy₁
    obtain ⟨hy₂, hlt₂⟩ := toNat_of_tail? hy₂
    obtain ⟨hy₃, hlt₃⟩ := toNat_of_tail? hy₃
    have hrest : rest = b₁ :: b₂ :: b₃ :: rest.drop 3 :=
      (drop_eq_cons_of_getElem? hb₁).trans (by rw [drop_eq_cons_of_getElem? hb₂, drop_eq_cons_of_getElem? hb₃])
    have hwritten : String.utf8EncodeChar c' = [a, b₁, b₂, b₃] := by
      rw [String.utf8EncodeChar, hval, if_neg (by omega), if_neg (by omega), if_neg (by omega),
        ofNat_eq_octet (a := a) (by omega), ofNat_eq_octet (a := b₁) (by omega), ofNat_eq_octet (a := b₂) (by omega),
        ofNat_eq_octet (a := b₃) (by omega)]
    simpa [hwritten] using hrest

end Sequences

/-- The symbols already read stand in front. -/
theorem symbolsInto_eq (read : List Symbol) (skip : Nat) (v : Octets) :
    symbolsInto read skip v = read.reverse ++ symbols (v.drop skip) := by
  induction v generalizing read skip with
  | nil => simp [symbolsInto, symbols]
  | cons a v ih =>
    cases skip with
    | succ skip => exact ih read skip
    | zero =>
      rw [List.drop_zero, symbols, symbolsInto, symbolsInto]
      split
      · rw [ih, ih [_], List.reverse_cons, List.append_assoc]
        rfl
      · rw [ih, ih [_], List.reverse_cons, List.append_assoc]
        rfl

theorem symbols_stray {a : UInt8} {rest : Octets} (h : sequence? (a :: rest) = none) :
    symbols (a :: rest) = .stray a :: symbols rest := by
  rw [symbols, symbolsInto, h]
  exact symbolsInto_eq _ _ _

theorem symbols_char (c : Char) (rest : Octets) :
    symbols (String.utf8EncodeChar c ++ rest) = .char c :: symbols rest := by
  obtain ⟨a, front, hc⟩ := List.exists_cons_of_ne_nil (String.utf8EncodeChar_ne_nil (c := c))
  have hseq := sequence?_encodeChar c rest
  rw [hc, List.cons_append] at hseq ⊢
  rw [symbols, symbolsInto, hseq]
  exact (symbolsInto_skip _ front rest).trans (symbolsInto_eq _ 0 rest)

theorem symbols_append (cs : List Char) (rest : Octets) :
    symbols (encode cs ++ rest) = cs.map .char ++ symbols rest := by
  induction cs with
  | nil => rfl
  | cons c cs ih =>
    rw [encode, List.flatMap_cons, List.append_assoc, symbols_char, ← encode, ih, List.map_cons, List.cons_append]

/-- Octets are nothing, an octet that starts no character, or a character, and then other octets. -/
@[elab_as_elim]
theorem octetsInduction {motive : Octets → Prop} (nil : motive [])
    (stray : ∀ a rest, sequence? (a :: rest) = none → motive rest → motive (a :: rest))
    (char : ∀ c rest, motive rest → motive (String.utf8EncodeChar c ++ rest)) (v : Octets) : motive v := by
  induction hlen : v.length using Nat.strongRecOn generalizing v with
  | ind len ih =>
    cases v with
    | nil => exact nil
    | cons a rest =>
      cases hseq : sequence? (a :: rest) with
      | none => exact stray a rest hseq (ih rest.length (hlen ▸ Nat.lt_succ_self _) rest rfl)
      | some read =>
        obtain ⟨-, heq⟩ := eq_append_of_sequence? (n := read.2) hseq
        have hshorter : (rest.drop (read.2 - 1)).length < len := by
          rw [← hlen, List.length_cons, List.length_drop]
          omega
        rw [heq]
        exact char _ _ (ih _ hshorter _ rfl)

/-- No octet is lost. -/
theorem ofSymbols_symbols (v : Octets) : ofSymbols (symbols v) = v := by
  induction v using octetsInduction with
  | nil => rfl
  | stray a rest h ih => rw [symbols_stray h, ofSymbols, List.flatMap_cons, ← ofSymbols, ih]; rfl
  | char c rest ih => rw [symbols_char, ofSymbols, List.flatMap_cons, ← ofSymbols, ih]; rfl

theorem encodeChar_ascii {c : Char} (h : c.toNat < 0x80) : String.utf8EncodeChar c = [UInt8.ofNat c.toNat] := by
  have hval : c.val.toNat = c.toNat := rfl
  rw [String.utf8EncodeChar, hval, if_pos (by omega)]

/-- After its first octet a character has no ASCII octet. -/
theorem encodeChar_tail {c : Char} {b : UInt8} (h : b ∈ (String.utf8EncodeChar c).tail) : 0x80 ≤ b.toNat := by
  unfold String.utf8EncodeChar at h
  dsimp only at h
  split_ifs at h <;> simp only [List.tail_cons, List.mem_cons, List.not_mem_nil, or_false] at h
  · rw [h, toNat_octet] <;> omega
  · rcases h with h | h <;> rw [h, toNat_octet] <;> omega
  · rcases h with h | h | h <;> rw [h, toNat_octet] <;> omega

/-- What starts no character does not start one when an ASCII octet follows. -/
theorem sequence?_append_eq_none {a b : UInt8} {rest after : Octets} (h : sequence? (a :: rest) = none)
    (hb : b.toNat < 0x80) : sequence? (a :: (rest ++ b :: after)) = none := by
  cases hseq : sequence? (a :: (rest ++ b :: after)) with
  | none => rfl
  | some read =>
    obtain ⟨-, heq⟩ := eq_append_of_sequence? (c := read.1) (n := read.2) hseq
    rw [← List.cons_append] at heq
    rcases List.append_eq_append_iff.mp heq with ⟨between, hchar, hrest⟩ | ⟨between, hfront, -⟩
    · cases between with
      | nil =>
        have hread := sequence?_encodeChar read.1 []
        rw [List.append_nil, hchar, List.append_nil, h] at hread
        simp at hread
      | cons b' between =>
        obtain ⟨rfl, -⟩ := List.cons.inj hrest
        have htail := encodeChar_tail (c := read.1) (b := b) (by simp [hchar])
        omega
    · rw [hfront, sequence?_encodeChar] at h
      simp at h

/-- Octets are read on both sides of an ASCII character separately. -/
theorem symbols_around (v : Octets) {c : Char} (hc : c.toNat < 0x80) (after : Octets) :
    symbols (v ++ UInt8.ofNat c.toNat :: after) = symbols v ++ .char c :: symbols after := by
  induction v using octetsInduction with
  | nil =>
    have h := symbols_char c after
    rwa [encodeChar_ascii hc] at h
  | stray a rest h ih =>
    have hb : (UInt8.ofNat c.toNat).toNat < 0x80 := by rwa [toNat_octet (by omega)]
    rw [List.cons_append, symbols_stray (sequence?_append_eq_none h hb), symbols_stray h, ih, List.cons_append]
  | char d rest ih => rw [List.append_assoc, symbols_char, symbols_char, ih, List.cons_append]

end BinFleet.Text.Utf8
