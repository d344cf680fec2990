import BinFleet.Proofs.Symbols
import BinFleet.Proofs.Uuid

namespace BinFleet.Text.Utf8

theorem encode_ascii {cs : List Char} (h : ∀ c ∈ cs, c.toNat < 0x80) :
    encode cs = cs.map fun c => UInt8.ofNat c.toNat := by
  induction cs with
  | nil => rfl
  | cons c cs ih =>
    obtain ⟨hc, hcs⟩ := List.forall_mem_cons.mp h
    rw [encode, List.flatMap_cons, encodeChar_ascii hc, ← encode, ih hcs]
    rfl

end BinFleet.Text.Utf8

namespace BinFleet.Uuid

open Text.Hex
open Text.Utf8 (encode encode_ascii)

section Texts

theorem toNat_of_mem_ofBytes {bs : List UInt8} {c : Char} (h : c ∈ ofBytes bs) : c.toNat < 0x80 := by
  have hdigits : lowerDigits.all (·.toNat < 0x80) = true := by decide
  exact of_decide_eq_true (List.all_eq_true.mp hdigits c (mem_lowerDigits_of_mem h))

theorem letters_encode {cs : List Char} (h : ∀ c ∈ cs, c.toNat < 0x80) : letters (encode cs) = cs := by
  rw [encode_ascii h, letters, List.map_map]
  refine (List.map_congr_left fun c hc => ?_).trans (List.map_id cs)
  have hoctet : (UInt8.ofNat c.toNat).toNat = c.toNat := Text.Utf8.toNat_octet (by have := h c hc; omega)
  rw [Function.comp_apply, hoctet, Char.ofNat_toNat, id]

/-- The octets of the digits, without the dashes. -/
def digitOctets (u : Uuid) : Octets := encode (ofBytes u.bytes)

theorem letters_digitOctets (u : Uuid) : letters u.digitOctets = ofBytes u.bytes :=
  letters_encode fun _ => toNat_of_mem_ofBytes

theorem length_digitOctets (u : Uuid) : u.digitOctets.length = 32 := by
  have hletters := congrArg List.length u.letters_digitOctets
  rwa [letters, List.length_map, length_ofBytes, u.length_eq] at hletters

theorem isHexDigit_of_mem {u : Uuid} {b : UInt8} (h : b ∈ u.digitOctets) : isHexDigit b = true := by
  have hletter : Char.ofNat b.toNat ∈ ofBytes u.bytes := by
    rw [← letters_digitOctets]
    exact List.mem_map_of_mem h
  have hread : lowerDigits.all (value? · |>.isSome) = true := by decide
  rw [← (octet_cases b).1]
  exact List.all_eq_true.mp hread _ (mem_lowerDigits_of_mem hletter)

theorem ofString_render (u : Uuid) : Text.Utf8.ofString u.render = spread 0x2d u.digitOctets := by
  have hascii : ∀ c ∈ ofBytes u.bytes, c.toNat < 0x80 := fun _ => toNat_of_mem_ofBytes
  have hall : ∀ c ∈ spread '-' (ofBytes u.bytes), c.toNat < 0x80 := by
    intro c hc
    by_cases hdash : c = '-'
    · subst hdash
      decide
    · -- without the dashes, the characters are the digits
      have hkept : c ∈ (spread '-' (ofBytes u.bytes)).filter (· != '-') := List.mem_filter.mpr ⟨hc, bne_iff_ne.mpr hdash⟩
      rw [filter_spread rfl] at hkept
      exact hascii c (List.mem_filter.mp hkept).1
  rw [Text.Utf8.ofString, render, String.toList_ofList, renderChars_eq, encode_ascii hall, map_spread, digitOctets,
    encode_ascii hascii]
  rfl

theorem canonical_render (u : Uuid) : Canonical (Text.Utf8.ofString u.render) := by
  rw [ofString_render, canonical_spread_iff u.length_digitOctets]
  exact fun b hb => isHexDigit_of_mem hb

theorem digitsOf_render (u : Uuid) : digitsOf (Text.Utf8.ofString u.render) = u.digitOctets := by
  rw [digitsOf, ofString_render, filter_spread (by decide), List.filter_eq_self]
  intro b hb
  rw [bne_iff_ne]
  rintro rfl
  exact Bool.false_ne_true (isHexDigit_of_mem hb)

theorem ofLeading_bytes (u : Uuid) : ofLeading u.bytes = u := by
  obtain ⟨bytes, hlength⟩ := u
  simp [ofLeading, hlength]

/-- What is written is read as it was. -/
theorem parse_render (u : Uuid) : parse u.render = (u, none) := by
  obtain ⟨bs, hbytes, hparse⟩ := parseOctets_of_readable (canonical_iff_readable.mp u.canonical_render).1
  rw [digitsOf_render, letters_digitOctets, toBytes?_ofBytes] at hbytes
  rw [parse, hparse, ← Option.some.inj hbytes, ofLeading_bytes]

theorem render_injective : Function.Injective render := by
  intro u v h
  exact congrArg Prod.fst (u.parse_render.symm.trans (h ▸ v.parse_render))

end Texts

section Bits

/-- The bit at a place, counted from the highest of the first octet. -/
def bit (bs : Octets) (n : Nat) : Bool := (bs.getD (n / 8) 0).toBitVec.getMsbD (n % 8)

/-- The places of the version and of the variant. -/
def fixedPlaces : List Nat := [48, 49, 50, 51, 64, 65]

/-- A new octet keeps the random bits that `keep` has and `mark` has not. -/
theorem getMsbD_stamp {keep mark : UInt8} {k : Nat} (hkeep : keep.toBitVec.getMsbD k = true)
    (hmark : mark.toBitVec.getMsbD k = false) (b : UInt8) :
    ((b &&& keep) ||| mark).toBitVec.getMsbD k = b.toBitVec.getMsbD k := by
  rw [UInt8.toBitVec_or, UInt8.toBitVec_and, BitVec.getMsbD_or, BitVec.getMsbD_and, hkeep, hmark, Bool.and_true,
    Bool.or_false]

variable {bs : List UInt8}

theorem getD_stamped (h : 16 ≤ bs.length) (f g : UInt8 → UInt8) {i : Nat} (hi : i < 16) :
    (((bs.take 16).modify 6 f).modify 8 g).getD i 0 =
      if i = 6 then f (bs.getD 6 0) else if i = 8 then g (bs.getD 8 0) else bs.getD i 0 := by
  have hget : ∀ j < 16, bs[j]? = some (bs.getD j 0) := by
    intro j hj
    rw [List.getD_eq_getElem?_getD, List.getElem?_eq_getElem (by omega)]
    rfl
  rw [List.getD_eq_getElem?_getD, List.getElem?_modify, List.getElem?_modify, List.getElem?_take_of_lt hi, hget i hi]
  by_cases h6 : i = 6
  · subst h6
    rfl
  by_cases h8 : i = 8
  · subst h8
    rfl
  · simp [h6, h8, Ne.symm h6, Ne.symm h8]

/-- An octet of a new identifier: the random octet, at two places with its mark. -/
def newOctet (bs : List UInt8) (i : Nat) : UInt8 :=
  if i = 6 then (bs.getD 6 0 &&& 0x0f) ||| 0x40 else if i = 8 then (bs.getD 8 0 &&& 0x3f) ||| 0x80 else bs.getD i 0

theorem generate_of_enough (h : 16 ≤ bs.length) :
    ∃ u, generate bs = (u, none) ∧ ∀ i < 16, u.bytes.getD i 0 = newOctet bs i := by
  have hnew : ofRandom bs = .ok ⟨_, length_stamped h _ _⟩ := dif_pos h
  exact ⟨_, by rw [generate, hnew], fun i hi => getD_stamped h _ _ hi⟩

theorem generate_of_few (h : bs.length < 16) : ∃ e, generate bs = (zero, some e) := by
  have hfew : ofRandom bs = .error (.noRandomness (!bs.isEmpty)) := dif_neg (by omega)
  exact ⟨_, by rw [generate, hfew]⟩

theorem newOctet_marks (bs : List UInt8) : newOctet bs 6 >>> 4 = 4 ∧ newOctet bs 8 >>> 6 = 2 := by
  have hall : ∀ k : Fin 256, ((UInt8.ofNat k &&& 0x0f) ||| 0x40) >>> 4 = 4 ∧
      ((UInt8.ofNat k &&& 0x3f) ||| 0x80) >>> 6 = 2 := by
    decide +kernel
  have hoctet : ∀ b : UInt8, ((b &&& 0x0f) ||| 0x40) >>> 4 = 4 ∧ ((b &&& 0x3f) ||| 0x80) >>> 6 = 2 := by
    intro b
    have hb := hall ⟨b.toNat, b.toNat_lt⟩
    rwa [UInt8.ofNat_toNat] at hb
  exact ⟨(hoctet _).1, (hoctet _).2⟩

/-- All bits of a new identifier are random but those of its version and of its variant. -/
theorem bit_of_new {u : Uuid} (h : ∀ i < 16, u.bytes.getD i 0 = newOctet bs i) {n : Nat} (hn : n < 128)
    (hfree : n ∉ fixedPlaces) : bit u.bytes n = bit bs n := by
  have hversion : ∀ k < 8, 4 ≤ k →
      (0x0f : UInt8).toBitVec.getMsbD k = true ∧ (0x40 : UInt8).toBitVec.getMsbD k = false := by decide
  have hvariant : ∀ k < 8, 2 ≤ k →
      (0x3f : UInt8).toBitVec.getMsbD k = true ∧ (0x80 : UInt8).toBitVec.getMsbD k = false := by decide
  simp only [fixedPlaces, List.mem_cons, List.not_mem_nil, or_false, not_or] at hfree
  rw [bit, bit, h _ (by omega), newOctet]
  split_ifs with h6 h8
  · obtain ⟨hkeep, hmark⟩ := hversion (n % 8) (by omega) (by omega)
    rw [getMsbD_stamp hkeep hmark, h6]
  · obtain ⟨hkeep, hmark⟩ := hvariant (n % 8) (by omega) (by omega)
    rw [getMsbD_stamp hkeep hmark, h8]
  · rfl

end Bits

/-- The text of an identifier is read as that identifier, also into a variable, so no two identifiers
have the same text. Sixteen random octets give a new identifier of version 4 and variant 10 with the
random bits at all other places; fewer give zero and an error. -/
theorem text_and_bits_determine (u old : Uuid) (bs : List UInt8) :
    parse u.render = (u, none) ∧ readInto old (Text.Utf8.ofString u.render) = (u, none) ∧ Function.Injective render ∧
    (16 ≤ bs.length → ∃ v, generate bs = (v, none) ∧ v.bytes.getD 6 0 >>> 4 = 4 ∧ v.bytes.getD 8 0 >>> 6 = 2 ∧
      ∀ n < 128, n ∉ fixedPlaces → bit v.bytes n = bit bs n) ∧
    (bs.length < 16 → ∃ e, generate bs = (zero, some e)) := by
  have hparse : parseOctets (Text.Utf8.ofString u.render) = (u, none) := u.parse_render
  refine ⟨u.parse_render, by rw [readInto, hparse], render_injective, fun h => ?_, generate_of_few⟩
  obtain ⟨v, hv, hoctets⟩ := generate_of_enough h
  obtain ⟨hversion, hvariant⟩ := newOctet_marks bs
  exact ⟨v, hv, by rw [hoctets 6 (by decide), hversion], by rw [hoctets 8 (by decide), hvariant],
    fun n => bit_of_new hoctets⟩

/-- Ones stay ones at all places but the fixed ones; two octets are too few. -/
theorem text_and_bits_of_ones : (16 ≤ (List.replicate 16 0xff : List UInt8).length ∧
      ∃ v, generate (List.replicate 16 0xff) = (v, none) ∧ v.bytes.getD 6 0 >>> 4 = 4 ∧ v.bytes.getD 8 0 >>> 6 = 2 ∧
        (∀ n < 128, n ∉ fixedPlaces → bit v.bytes n = true) ∧ parse v.render = (v, none)) ∧
    ([0x12, 0x34] : List UInt8).length < 16 ∧ ∃ e, generate [0x12, 0x34] = (zero, some e) := by
  have hones : ∀ n < 128, bit (List.replicate 16 0xff) n = true := by decide
  obtain ⟨v, hv, hversion, hvariant, hbits⟩ :=
    (text_and_bits_determine zero zero (List.replicate 16 0xff)).2.2.2.1 (by decide)
  refine ⟨⟨by decide, v, hv, hversion, hvariant, fun n hn hfree => ?_, (text_and_bits_determine v zero []).1⟩, by decide,
    (text_and_bits_determine zero zero [0x12, 0x34]).2.2.2.2 (by decide)⟩
  rw [hbits n hn hfree, hones n hn]

end BinFleet.Uuid
