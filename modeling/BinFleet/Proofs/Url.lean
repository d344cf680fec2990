import BinFleet.Proofs.Text
import BinFleet.Url

namespace BinFleet.Url

open Text.Utf8 (encode)

/-- Octets as a text spells them: a percent sign stands before two hexadecimal digits. -/
inductive Spells : List UInt8 → List UInt8 → Prop
  | nil : Spells [] []
  | plain {c : UInt8} {raw bytes : List UInt8} : c ≠ 0x25 → Spells raw bytes → Spells (c :: raw) (c :: bytes)
  | escaped {a b : UInt8} {high low : Nat} {raw bytes : List UInt8} :
      Text.Hex.value? (Char.ofNat a.toNat) = some high → Text.Hex.value? (Char.ofNat b.toNat) = some low →
      Spells raw bytes → Spells (0x25 :: a :: b :: raw) (UInt8.ofNat (high * 16 + low) :: bytes)

variable {raw bytes : List UInt8}

theorem decodeInto_of_spells (h : Spells raw bytes) (found : List UInt8) :
    decodeInto false found raw = .ok (found.reverse ++ bytes) := by
  induction h generalizing found with
  | nil => simp [decodeInto]
  | @plain c raw bytes hc _ ih =>
    have hstep : decodeInto false found (c :: raw) = decodeInto false (c :: found) raw := by
      rw [decodeInto.eq_def]
      split
      · contradiction
      · simp_all
      · simp_all
    rw [hstep, ih]
    simp
  | escaped ha hb _ ih =>
    rw [decodeInto, ha, hb]
    dsimp only
    rw [ih, List.reverse_cons, List.append_assoc, List.singleton_append]

theorem spells_of_decodeInto {found : List UInt8} (h : decodeInto false found raw = .ok bytes) :
    ∃ rest, Spells raw rest ∧ bytes = found.reverse ++ rest := by
  fun_induction decodeInto false found raw with
  | case1 found => exact ⟨[], .nil, by simpa using (Except.ok.inj h).symm⟩
  | case2 found a b raw high low hlow hhigh ih =>
    obtain ⟨rest, hrest, rfl⟩ := ih h
    exact ⟨_, .escaped hhigh hlow hrest, by simp⟩
  | case3 => simp at h
  | case4 => simp at h
  | case5 => simp_all
  | case6 found c raw _ hc _ ih =>
    obtain ⟨rest, hrest, rfl⟩ := ih h
    exact ⟨_, .plain hc hrest, by simp⟩

theorem decode_eq_ok_iff : decode raw = .ok bytes ↔ Spells raw bytes := by
  constructor
  · intro h
    obtain ⟨rest, hrest, rfl⟩ := spells_of_decodeInto h
    exact hrest
  · exact fun h => decodeInto_of_spells h []

/-- A slash is no digit, so it divides what is spelled. -/
theorem Spells.divide {front rest : List UInt8} (h : Spells (front ++ 0x2f :: rest) bytes) :
    ∃ first second, Spells front first ∧ Spells rest second ∧ bytes = first ++ 0x2f :: second := by
  generalize hwhole : front ++ 0x2f :: rest = whole at h
  induction h generalizing front with
  | nil => simp at hwhole
  | @plain c raw bytes hc hraw ih =>
    cases front with
    | nil =>
      obtain ⟨rfl, rfl⟩ := List.cons.inj hwhole
      exact ⟨[], bytes, .nil, hraw, rfl⟩
    | cons x front =>
      obtain ⟨rfl, hraw⟩ := List.cons.inj hwhole
      obtain ⟨first, second, hfirst, hsecond, rfl⟩ := ih hraw
      exact ⟨x :: first, second, .plain hc hfirst, hsecond, rfl⟩
  | escaped ha hb _ ih =>
    have hslash : Text.Hex.value? (Char.ofNat (0x2f : UInt8).toNat) = none := by decide
    rcases front with _ | ⟨x, _ | ⟨y, _ | ⟨z, front⟩⟩⟩
    · simp at hwhole
    · obtain ⟨-, hwhole⟩ := List.cons.inj hwhole
      obtain ⟨rfl, -⟩ := List.cons.inj hwhole
      exact absurd (hslash.symm.trans ha) (Option.some_ne_none _).symm
    · obtain ⟨-, hwhole⟩ := List.cons.inj hwhole
      obtain ⟨-, hwhole⟩ := List.cons.inj hwhole
      obtain ⟨rfl, -⟩ := List.cons.inj hwhole
      exact absurd (hslash.symm.trans hb) (Option.some_ne_none _).symm
    · simp only [List.cons_append, List.cons.injEq] at hwhole
      obtain ⟨rfl, rfl, rfl, hraw⟩ := hwhole
      obtain ⟨first, second, hfirst, hsecond, rfl⟩ := ih hraw
      exact ⟨_, second, .escaped ha hb hfirst, hsecond, rfl⟩

/-- Octets with their percent signs resolved, or as they are when that cannot be done. -/
def resolved (raw : List UInt8) : List UInt8 := (decode raw).toOption.getD raw

theorem resolved_of_spells (h : Spells raw bytes) : resolved raw = bytes := by
  rw [resolved, decode_eq_ok_iff.mpr h]
  rfl

theorem spells_intercalate {pieces : List (List UInt8)} (h : Spells ([0x2f].intercalate pieces) bytes) :
    bytes = [0x2f].intercalate (pieces.map resolved) := by
  induction pieces generalizing bytes with
  | nil =>
    cases h
    rfl
  | cons piece rest ih =>
    cases rest with
    | nil =>
      rw [List.intercalate_singleton] at h
      rw [List.map_singleton, List.intercalate_singleton, resolved_of_spells h]
    | cons next rest =>
      rw [List.intercalate_cons_cons, List.append_assoc, List.singleton_append] at h
      obtain ⟨first, second, hfirst, hsecond, rfl⟩ := h.divide
      simp only [ih hsecond, List.map_cons, List.intercalate_cons_cons, resolved_of_spells hfirst, List.append_assoc,
        List.singleton_append]

theorem Spells.append {raw' bytes' : List UInt8} (h : Spells raw bytes) (h' : Spells raw' bytes') :
    Spells (raw ++ raw') (bytes ++ bytes') := by
  induction h with
  | nil => exact h'
  | plain hc _ ih => exact .plain hc ih
  | escaped ha hb _ ih => exact .escaped ha hb ih

theorem value?_upperDigit {n : Nat} (h : n < 16) :
    ∃ b, encode [Text.Hex.upperDigit n] = [b] ∧ Text.Hex.value? (Char.ofNat b.toNat) = some n := by
  have hall : ∀ n : Fin 16, encode [Text.Hex.upperDigit n] = [UInt8.ofNat (Text.Hex.upperDigit n).toNat] ∧
      Text.Hex.value? (Char.ofNat (UInt8.ofNat (Text.Hex.upperDigit n).toNat).toNat) = some n.val := by decide
  exact ⟨_, hall ⟨n, h⟩⟩

theorem spells_escapeByte (b : UInt8) : Spells (encode (escapeByte b)) [b] := by
  have hb : b.toNat < 256 := b.toNat_lt
  obtain ⟨x, hx, hhigh⟩ := value?_upperDigit (n := b.toNat / 16) (by omega)
  obtain ⟨y, hy, hlow⟩ := value?_upperDigit (n := b.toNat % 16) (by omega)
  have hshown : encode (escapeByte b) = encode ['%'] ++ (encode [Text.Hex.upperDigit (b.toNat / 16)] ++
      encode [Text.Hex.upperDigit (b.toNat % 16)]) := by simp [escapeByte, encode]
  have hvalue : UInt8.ofNat (b.toNat / 16 * 16 + b.toNat % 16) = b := by
    rw [Nat.div_add_mod', UInt8.ofNat_toNat]
  rw [hshown, hx, hy]
  exact hvalue ▸ Spells.escaped hhigh hlow .nil

theorem spells_encodeWith {keep : UInt8 → Bool} (hkeep : ∀ b, keep b → b.toNat < 0x80 ∧ b ≠ 0x25) (bytes : List UInt8) :
    Spells (encode (encodeWith keep bytes)) bytes := by
  induction bytes with
  | nil => exact .nil
  | cons b bytes ih =>
    have hshown : encode (encodeWith keep (b :: bytes)) =
        encode (if keep b then [Char.ofNat b.toNat] else escapeByte b) ++ encode (encodeWith keep bytes) := by
      simp [encodeWith, encode]
    have hfirst : Spells (encode (if keep b then [Char.ofNat b.toNat] else escapeByte b)) [b] := by
      split_ifs with hb
      · obtain ⟨hascii, hother⟩ := hkeep b hb
        have hall : ∀ k : Fin 0x80, encode [Char.ofNat k] = [UInt8.ofNat k] := by decide
        rw [hall ⟨b.toNat, hascii⟩, UInt8.ofNat_toNat]
        exact .plain hother .nil
      · exact spells_escapeByte b
    rw [hshown]
    exact hfirst.append ih

theorem keptInPath_ascii (b : UInt8) (hb : keptInPath b) : b.toNat < 0x80 ∧ b ≠ 0x25 := by
  have hall : ∀ k : Fin 256, keptInPath (UInt8.ofNat k) → k.val < 0x80 ∧ UInt8.ofNat k ≠ 0x25 := by decide +kernel
  have hkept := hall ⟨b.toNat, b.toNat_lt⟩
  rw [UInt8.ofNat_toNat] at hkept
  exact hkept hb

end BinFleet.Url
