import BinFleet.Text.Base64
import BinFleet.Text.Blank
import BinFleet.Text.Hex
import Mathlib.Tactic.Common

namespace BinFleet.Text

section Pieces

variable {α : Type} [DecidableEq α]

theorem cut?_eq_some {mark : α} {xs before after : List α} (h : cut? mark xs = some (before, after)) :
    xs = before ++ mark :: after ∧ mark ∉ before := by
  unfold cut? at h
  split at h
  · rename_i x rest hdrop
    have hx : x = mark := by
      have hhead := List.head_dropWhile_not (fun y => decide (y ≠ mark)) (l := xs) (by rw [hdrop]; exact List.cons_ne_nil _ _)
      simpa only [hdrop, List.head_cons, decide_eq_false_iff_not, not_not] using hhead
    obtain ⟨rfl, rfl⟩ := Prod.mk.inj (Option.some.inj h)
    refine ⟨?_, fun hmem => ?_⟩
    · have happ := List.takeWhile_append_dropWhile (p := (· ≠ mark)) (l := xs)
      rw [hdrop, hx] at happ
      exact happ.symm
    · simpa using List.all_eq_true.mp List.all_takeWhile mark hmem
  · simp at h

theorem splitList_ne_nil (mark : α) (xs : List α) : splitList mark xs ≠ [] := by
  cases xs with
  | nil => simp [splitList]
  | cons x rest =>
    simp only [splitList, List.foldr_cons]
    split_ifs
    · simp
    · split <;> simp

theorem splitList_cons (mark x : α) (xs : List α) :
    splitList mark (x :: xs) =
      if x = mark then [] :: splitList mark xs
      else (x :: (splitList mark xs).headD []) :: (splitList mark xs).tail := by
  have hne := splitList_ne_nil mark xs
  simp only [splitList, List.foldr_cons] at hne ⊢
  generalize List.foldr _ [[]] xs = pieces at hne ⊢
  cases pieces with
  | nil => exact absurd rfl hne
  | cons piece rest => rfl

/-- The pieces with the marks put back between them. -/
theorem intercalate_splitList (mark : α) (xs : List α) : [mark].intercalate (splitList mark xs) = xs := by
  induction xs with
  | nil => rfl
  | cons x xs ih =>
    obtain ⟨piece, rest, hp⟩ := List.exists_cons_of_ne_nil (splitList_ne_nil mark xs)
    rw [splitList_cons]
    rw [hp] at ih ⊢
    split_ifs with hx
    · rw [hx]
      simpa [List.intercalate] using ih
    · cases rest with
      | nil => simpa [List.intercalate] using ih
      | cons next rest => simpa [List.intercalate] using ih

theorem not_mem_of_mem_splitList {mark : α} {xs piece : List α} (h : piece ∈ splitList mark xs) : mark ∉ piece := by
  induction xs generalizing piece with
  | nil =>
    rw [List.mem_singleton.mp h]
    exact List.not_mem_nil
  | cons x xs ih =>
    obtain ⟨first, rest, hp⟩ := List.exists_cons_of_ne_nil (splitList_ne_nil mark xs)
    rw [splitList_cons] at h
    rw [hp] at h ih
    split_ifs at h with hx
    · rcases List.mem_cons.mp h with rfl | h
      · exact List.not_mem_nil
      · exact ih h
    · rcases List.mem_cons.mp h with rfl | h
      · exact List.not_mem_cons_of_ne_of_not_mem (Ne.symm hx) (ih List.mem_cons_self)
      · exact ih (List.mem_cons_of_mem _ h)

theorem cut?_append {mark : α} {before : List α} (h : mark ∉ before) (after : List α) :
    cut? mark (before ++ mark :: after) = some (before, after) := by
  have hall : ∀ x ∈ before, decide (x ≠ mark) = true := by
    intro x hx
    simpa using ne_of_mem_of_not_mem hx h
  rw [cut?, List.dropWhile_append_of_pos hall, List.takeWhile_append_of_pos hall]
  simp

theorem splitList_of_not_mem {mark : α} {piece : List α} (h : mark ∉ piece) : splitList mark piece = [piece] := by
  induction piece with
  | nil => rfl
  | cons x rest ih =>
    obtain ⟨hx, hrest⟩ := List.ne_and_not_mem_of_not_mem_cons h
    rw [splitList_cons, ih hrest, if_neg hx.symm]
    rfl

theorem splitList_append {mark : α} {piece : List α} (h : mark ∉ piece) (rest : List α) :
    splitList mark (piece ++ mark :: rest) = piece :: splitList mark rest := by
  induction piece with
  | nil => rw [List.nil_append, splitList_cons, if_pos rfl]
  | cons x piece ih =>
    obtain ⟨hx, hpiece⟩ := List.ne_and_not_mem_of_not_mem_cons h
    rw [List.cons_append, splitList_cons, ih hpiece, if_neg hx.symm]
    rfl

end Pieces

section Ends

variable {α : Type} {drop : α → Bool}

theorem stripWhere_append {front : List α} (h : ∀ x ∈ front, drop x) (xs : List α) :
    stripWhere drop (front ++ xs) = stripWhere drop xs := by
  rw [stripWhere, List.dropWhile_append_of_pos h, stripWhere]

theorem stripWhere_concat {x : α} (hx : drop x) (xs : List α) : stripWhere drop (xs ++ [x]) = stripWhere drop xs := by
  unfold stripWhere
  rw [List.dropWhile_append]
  split_ifs with hempty
  · simp [List.isEmpty_iff.mp hempty, hx]
  · simp [hx]

/-- An item in front that stays in front of all that stays. -/
theorem head?_stripWhere_cons {x : α} (hx : ¬ drop x) (xs : List α) : (stripWhere drop (x :: xs)).head? = some x := by
  rw [stripWhere, List.dropWhile_cons_of_neg hx, List.reverse_cons, List.dropWhile_append]
  split_ifs <;> simp [hx]

/-- Items stay when those at both ends do. -/
theorem stripWhere_of_ends {xs : List α} (hfirst : ∀ x ∈ xs.head?, ¬ drop x) (hlast : ∀ x ∈ xs.getLast?, ¬ drop x) :
    stripWhere drop xs = xs := by
  have hkeep : ∀ ys : List α, (∀ x ∈ ys.head?, ¬ drop x) → ys.dropWhile drop = ys := by
    intro ys hys
    cases ys with
    | nil => rfl
    | cons y ys => exact List.dropWhile_cons_of_neg (hys y rfl)
  rw [stripWhere, hkeep xs hfirst, hkeep xs.reverse (by simpa using hlast), List.reverse_reverse]

theorem stripWhere_concat_all {trail : List α} (h : ∀ x ∈ trail, drop x) (xs : List α) :
    stripWhere drop (xs ++ trail) = stripWhere drop xs := by
  induction trail generalizing xs with
  | nil => rw [List.append_nil]
  | cons x trail ih =>
    obtain ⟨hx, htrail⟩ := List.forall_mem_cons.mp h
    rw [List.append_cons, ih htrail, stripWhere_concat hx]

end Ends

namespace Base64

variable (a : Alphabet)

theorem value?_digit {n : Nat} (h : n < 64) : value? a (digit a n) = some n := by
  have hall : ∀ k : Fin 64, value? a (digit a k) = some k.val := by
    cases a <;> decide
  exact hall ⟨n, h⟩

/-- The digits of octets, as numbers. -/
def values : List UInt8 → List Nat
  | x :: y :: z :: rest =>
    let n := (x.toNat * 256 + y.toNat) * 256 + z.toNat
    n / 262144 :: n / 4096 % 64 :: n / 64 % 64 :: n % 64 :: values rest
  | [x, y] =>
    let n := (x.toNat * 256 + y.toNat) * 4
    [n / 4096, n / 64 % 64, n % 64]
  | [x] =>
    let n := x.toNat * 16
    [n / 64, n % 64]
  | [] => []

theorem encode_eq_map (bytes : List UInt8) : encode a bytes = (values bytes).map (digit a) := by
  fun_induction encode a bytes with
  | case1 x y z rest n ih => simp only [values, List.map_cons, ih, n]
  | case2 => rfl
  | case3 => rfl
  | case4 => rfl

theorem values_lt (bytes : List UInt8) : ∀ n ∈ values bytes, n < 64 := by
  fun_induction values bytes with
  | case1 x y z rest n ih =>
    have hx := x.toNat_lt
    have hy := y.toNat_lt
    have hz := z.toNat_lt
    simp only [List.mem_cons]
    rintro k (rfl | rfl | rfl | rfl | hk)
    iterate 4 omega
    exact ih k hk
  | case2 x y n =>
    have hx := x.toNat_lt
    have hy := y.toNat_lt
    simp only [List.mem_cons, List.not_mem_nil, or_false]
    rintro k (rfl | rfl | rfl) <;> omega
  | case3 x n =>
    have hx := x.toNat_lt
    simp only [List.mem_cons, List.not_mem_nil, or_false]
    rintro k (rfl | rfl) <;> omega
  | case4 => simp

theorem ofValues?_values (bytes : List UInt8) : ofValues? (values bytes) = some bytes := by
  fun_induction values bytes with
  | case1 x y z rest n ih =>
    have hx := x.toNat_lt
    have hy := y.toNat_lt
    have hz := z.toNat_lt
    have hn : ((n / 262144 * 64 + n / 4096 % 64) * 64 + n / 64 % 64) * 64 + n % 64 = n := by omega
    have hx' : n / 65536 = x.toNat := by omega
    have hy' : n / 256 % 256 = y.toNat := by omega
    have hz' : n % 256 = z.toNat := by omega
    simp [ofValues?, ih, hn, hx', hy', hz']
  | case2 x y n =>
    have hx := x.toNat_lt
    have hy := y.toNat_lt
    have hx' : ((n / 4096 * 64 + n / 64 % 64) * 64 + n % 64) / 4 / 256 = x.toNat := by omega
    have hy' : ((n / 4096 * 64 + n / 64 % 64) * 64 + n % 64) / 4 % 256 = y.toNat := by omega
    simp [ofValues?, hx', hy']
  | case3 x n =>
    have hx := x.toNat_lt
    have hx' : (n / 64 * 64 + n % 64) / 16 = x.toNat := by omega
    simp [ofValues?, hx']
  | case4 => rfl

/-- Digits are neither line breaks nor dots. -/
theorem digit_ne {n : Nat} (h : n < 64) : digit a n ≠ '\n' ∧ digit a n ≠ '\r' ∧ digit a n ≠ '.' := by
  have hall : ∀ k : Fin 64, digit a k ≠ '\n' ∧ digit a k ≠ '\r' ∧ digit a k ≠ '.' := by
    cases a <;> decide
  exact hall ⟨n, h⟩

theorem dot_not_mem_encode (bytes : List UInt8) : '.' ∉ encode a bytes := by
  rw [encode_eq_map, List.mem_map]
  rintro ⟨n, hn, hdot⟩
  exact (digit_ne a (values_lt bytes n hn)).2.2 hdot

theorem skipBreaks_encode (bytes : List UInt8) : skipBreaks (encode a bytes) = encode a bytes := by
  rw [encode_eq_map, skipBreaks, List.filter_eq_self]
  intro c hc
  obtain ⟨n, hn, rfl⟩ := List.mem_map.mp hc
  obtain ⟨hline, hreturn, -⟩ := digit_ne a (values_lt bytes n hn)
  simp [hline, hreturn]

theorem mapM_value?_digit {ns : List Nat} (h : ∀ n ∈ ns, n < 64) :
    (ns.map (digit a)).mapM (value? a) = some ns := by
  induction ns with
  | nil => rfl
  | cons n ns ih =>
    simp [value?_digit a (h n List.mem_cons_self), ih fun k hk => h k (List.mem_cons_of_mem _ hk)]

theorem decode?_encode (bytes : List UInt8) : decode? a (encode a bytes) = some bytes := by
  rw [decode?, skipBreaks_encode, encode_eq_map, mapM_value?_digit a (values_lt bytes)]
  exact ofValues?_values bytes

end Base64

namespace Utf8

theorem tail?_of_toNat {b : UInt8} {n : Nat} (h : b.toNat = n + 0x80) (hn : n < 64) : tail? b = some n := by
  simp only [tail?, UInt8.le_iff_toNat_le, UInt8.reduceToNat, h]
  rw [if_pos (by omega), Nat.add_sub_cancel]

theorem checked?_of_toNat {least code : Nat} {c : Char} (hcode : code = c.toNat) (h : least ≤ code) :
    checked? least code = some c := by
  subst hcode
  rw [checked?, if_pos ⟨h, c.valid⟩, Char.ofNat_toNat]

section Sequences

variable {c : Char} {a b₁ b₂ b₃ : UInt8} {x y₁ y₂ y₃ : Nat} (rest : List UInt8)

theorem sequence?_one (ha : a.toNat = c.toNat) (h : c.toNat < 0x80) : sequence? (a :: rest) = some (c, 1) := by
  simp only [sequence?, UInt8.lt_iff_toNat_lt, UInt8.reduceToNat, ha]
  rw [if_pos h, Char.ofNat_toNat]

theorem sequence?_two (ha : a.toNat = x + 0xC0) (hx : x < 32) (hb₁ : b₁.toNat = y₁ + 0x80) (hy₁ : y₁ < 64)
    (hcode : x * 64 + y₁ = c.toNat) (hleast : 0x80 ≤ c.toNat) :
    sequence? (a :: b₁ :: rest) = some (c, 2) := by
  have hchar : checked? 0x80 (x * 64 + y₁) = some c := checked?_of_toNat hcode (hcode ▸ hleast)
  simp only [sequence?, UInt8.lt_iff_toNat_lt, UInt8.le_iff_toNat_le, UInt8.reduceToNat, ha, Nat.add_sub_cancel]
  rw [if_neg (by omega), if_pos (by omega)]
  simp [tail?_of_toNat hb₁ hy₁, hchar]

theorem sequence?_three (ha : a.toNat = x + 0xE0) (hx : x < 16) (hb₁ : b₁.toNat = y₁ + 0x80) (hy₁ : y₁ < 64)
    (hb₂ : b₂.toNat = y₂ + 0x80) (hy₂ : y₂ < 64) (hcode : (x * 64 + y₁) * 64 + y₂ = c.toNat)
    (hleast : 0x800 ≤ c.toNat) : sequence? (a :: b₁ :: b₂ :: rest) = some (c, 3) := by
  have hchar : checked? 0x800 ((x * 64 + y₁) * 64 + y₂) = some c := checked?_of_toNat hcode (hcode ▸ hleast)
  simp only [sequence?, UInt8.lt_iff_toNat_lt, UInt8.le_iff_toNat_le, UInt8.reduceToNat, ha, Nat.add_sub_cancel]
  rw [if_neg (by omega), if_neg (by omega), if_pos (by omega)]
  simp [tail?_of_toNat hb₁ hy₁, tail?_of_toNat hb₂ hy₂, hchar]

theorem sequence?_four (ha : a.toNat = x + 0xF0) (hb₁ : b₁.toNat = y₁ + 0x80) (hy₁ : y₁ < 64)
    (hb₂ : b₂.toNat = y₂ + 0x80) (hy₂ : y₂ < 64) (hb₃ : b₃.toNat = y₃ + 0x80) (hy₃ : y₃ < 64)
    (hcode : ((x * 64 + y₁) * 64 + y₂) * 64 + y₃ = c.toNat) (hleast : 0x10000 ≤ c.toNat)
    (hmost : c.toNat < 0x110000) : sequence? (a :: b₁ :: b₂ :: b₃ :: rest) = some (c, 4) := by
  have hchar : checked? 0x10000 (((x * 64 + y₁) * 64 + y₂) * 64 + y₃) = some c :=
    checked?_of_toNat hcode (hcode ▸ hleast)
  simp only [sequence?, UInt8.lt_iff_toNat_lt, UInt8.le_iff_toNat_le, UInt8.reduceToNat, ha, Nat.add_sub_cancel]
  rw [if_neg (by omega), if_neg (by omega), if_neg (by omega), if_pos (by omega)]
  simp [tail?_of_toNat hb₁ hy₁, tail?_of_toNat hb₂ hy₂, tail?_of_toNat hb₃ hy₃, hchar]

end Sequences

theorem toNat_octet {n : Nat} (h : n < 256) : (UInt8.ofNat n).toNat = n := by
  rw [UInt8.toNat_ofNat', Nat.mod_eq_of_lt h]

/-- A character is read from the front of what it was written to. -/
theorem sequence?_encodeChar (c : Char) (rest : List UInt8) :
    sequence? (String.utf8EncodeChar c ++ rest) = some (c, (String.utf8EncodeChar c).length) := by
  have hval : c.val.toNat = c.toNat := rfl
  have hmost : c.toNat < 0x110000 := by
    have hvalid := c.valid
    simp only [UInt32.isValidChar, Nat.isValidChar] at hvalid
    omega
  unfold String.utf8EncodeChar
  dsimp only
  split_ifs with h1 h2 h3
  · exact sequence?_one rest (toNat_octet (by omega)) (by omega)
  · exact sequence?_two rest (toNat_octet (by omega)) (by omega) (toNat_octet (by omega)) (by omega)
      (by omega) (by omega)
  · exact sequence?_three rest (toNat_octet (by omega)) (by omega) (toNat_octet (by omega)) (by omega)
      (toNat_octet (by omega)) (by omega) (by omega) (by omega)
  · exact sequence?_four rest (toNat_octet (by omega)) (toNat_octet (by omega)) (by omega)
      (toNat_octet (by omega)) (by omega) (toNat_octet (by omega)) (by omega) (by omega) (by omega) hmost

theorem symbolsInto_skip (read : List Symbol) (front rest : List UInt8) :
    symbolsInto read front.length (front ++ rest) = symbolsInto read 0 rest := by
  induction front with
  | nil => rfl
  | cons b front ih => 
    rw [List.length_cons, List.cons_append, ← ih]
    rfl

theorem symbolsInto_encode (read : List Symbol) (cs : List Char) :
    symbolsInto read 0 (encode cs) = read.reverse ++ cs.map Symbol.char := by
  induction cs generalizing read with
  | nil => simp [encode, symbolsInto]
  | cons c cs ih =>
    obtain ⟨a, front, hc⟩ := List.exists_cons_of_ne_nil (String.utf8EncodeChar_ne_nil (c := c))
    have hseq := sequence?_encodeChar c (encode cs)
    rw [hc, List.cons_append] at hseq
    have henc : encode (c :: cs) = a :: (front ++ encode cs) := by
      simp [encode, hc]
    rw [henc, symbolsInto, hseq]
    simp only [List.length_cons, Nat.add_sub_cancel]
    rw [symbolsInto_skip, ih]
    simp

theorem symbols_encode (cs : List Char) : symbols (encode cs) = cs.map .char := symbolsInto_encode [] cs

/-- What was written is read as it was. -/
theorem decode_encode (cs : List Char) : decode (encode cs) = cs := by
  rw [decode, symbols_encode, List.map_map]
  exact List.map_id' cs

theorem valid?_ofString (s : String) : valid? (ofString s) = some s := by
  have hvalid : isValid (ofString s) = true := by
    rw [isValid, ofString, symbols_encode, List.all_map]
    exact List.all_eq_true.mpr fun _ _ => rfl
  rw [valid?, if_pos hvalid, toString, ofString, decode_encode, String.ofList_toList]

end Utf8

namespace Hex

theorem value?_digit {n : Nat} (h : n < 16) : value? (digit n) = some n := by
  have hall : ∀ k : Fin 16, value? (digit k) = some k.val := by decide
  exact hall ⟨n, h⟩

theorem digits_four (n : Nat) :
    digits 4 n = [digit (n / 16 / 16 / 16 % 16), digit (n / 16 / 16 % 16), digit (n / 16 % 16), digit (n % 16)] := rfl

theorem ofByte_eq (b : UInt8) : ofByte b = [digit (b.toNat / 16 % 16), digit (b.toNat % 16)] := rfl

/-- Octets that are written in digits are read back. -/
theorem toBytes?_ofBytes (bs : List UInt8) : toBytes? (ofBytes bs) = some bs := by
  induction bs with
  | nil => rfl
  | cons b bs ih =>
    have hb : b.toNat < 256 := b.toNat_lt
    have hjoin : b.toNat / 16 % 16 * 16 + b.toNat % 16 = b.toNat := by omega
    rw [ofBytes, List.flatMap_cons, ← ofBytes, ofByte_eq, List.cons_append, List.cons_append, List.nil_append, toBytes?,
      value?_digit (Nat.mod_lt _ (by decide)), value?_digit (Nat.mod_lt _ (by decide)), ih]
    simp only [Option.bind_eq_bind, Option.bind_some, Option.pure_def, hjoin, UInt8.ofNat_toNat]

/-- The digits that octets are written in. -/
def lowerDigits : List Char := "0123456789abcdef".toList

theorem mem_lowerDigits_of_mem {bs : List UInt8} {c : Char} (h : c ∈ ofBytes bs) : c ∈ lowerDigits := by
  have hdigit : ∀ k : Fin 16, digit k ∈ lowerDigits := by decide
  obtain ⟨b, -, hb⟩ := List.mem_flatMap.mp h
  simp only [ofByte_eq, List.mem_cons, List.not_mem_nil, or_false] at hb
  rcases hb with rfl | rfl
  · exact hdigit ⟨_, Nat.mod_lt _ (by decide)⟩
  · exact hdigit ⟨_, Nat.mod_lt _ (by decide)⟩

end Hex

end BinFleet.Text
