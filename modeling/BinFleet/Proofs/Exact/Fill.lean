import BinFleet.Fill
import BinFleet.Marker
import BinFleet.Proofs.Exact.Scalar
import BinFleet.Proofs.Text

namespace BinFleet

namespace Fill

open Scalar

variable {range d d' : ℚ}

theorem percentage_of_pos (hrange : 0 < range) (d : ℚ) : percentage d range = 100 * min range (max 0 d) / range := by
  have hnot : ¬ Scalar.le range (Scalar.ofNat 0 : ℚ) = true := by
    change ¬ decide (range ≤ ((0 : ℕ) : ℚ)) = true
    simpa using hrange
  rw [percentage, if_neg hnot]
  rfl

theorem percentage_nonneg (hrange : 0 < range) (d : ℚ) : 0 ≤ percentage d range := by
  rw [percentage_of_pos hrange]
  positivity

theorem percentage_le (hrange : 0 < range) (d : ℚ) : percentage d range ≤ 100 := by
  rw [percentage_of_pos hrange, div_le_iff₀ hrange]
  gcongr
  exact min_le_left _ _

theorem percentage_mono (hrange : 0 < range) (h : d ≤ d') : percentage d range ≤ percentage d' range := by
  rw [percentage_of_pos hrange, percentage_of_pos hrange]
  gcongr

theorem channel_eq (v : ℚ) : (channel v : ℤ) = max 0 (min 255 (truncRat v)) := by
  have hcast : (max ((0 : ℕ) : ℚ) (min ((255 : ℕ) : ℚ) (truncRat v)) : ℚ) = (max 0 (min 255 (truncRat v)) : ℤ) := by
    push_cast
    rfl
  change (((truncRat (max ((0 : ℕ) : ℚ) (min ((255 : ℕ) : ℚ) (truncRat v)))).toNat : ℕ) : ℤ) = _
  rw [hcast, truncRat_intCast, Int.toNat_of_nonneg (le_max_left _ _)]

theorem channel_mono {v w : ℚ} (h : v ≤ w) : (channel v : ℤ) ≤ channel w := by
  rw [channel_eq, channel_eq]
  exact max_le_max le_rfl (min_le_min le_rfl (truncRat_mono h))

theorem channel_le (v : ℚ) : (channel v : ℤ) ≤ 255 := by
  rw [channel_eq]
  omega

/-- Red before it is cut: full up to yellow, then falling. -/
def redLevel (p : ℚ) : ℚ := if 255 < 5 * p then 500 - 5 * p else 255

theorem color_eq (p : ℚ) : color p = ⟨channel (redLevel p), channel (min 255 (5 * p)), 0⟩ := by
  have hred : (if Scalar.lt (Scalar.ofNat 255) (Scalar.ofNat 5 * p) then Scalar.ofNat 500 - Scalar.ofNat 5 * p
      else Scalar.ofNat 255) = redLevel p := by
    change (if decide (((255 : ℕ) : ℚ) < (5 : ℕ) * p) = true then ((500 : ℕ) : ℚ) - (5 : ℕ) * p else (255 : ℕ)) = _
    simp only [decide_eq_true_eq, Nat.cast_ofNat, redLevel]
  rw [color, hred]
  rfl

theorem redLevel_antitone : Antitone redLevel := by
  intro p p' hle
  unfold redLevel
  split_ifs <;> linarith

/-- A higher share has less red and more green. -/
theorem color_mono {p p' : ℚ} (h : p ≤ p') : (color p').red ≤ (color p).red ∧ (color p).green ≤ (color p').green := by
  rw [color_eq, color_eq]
  refine ⟨channel_mono (redLevel_antitone h), channel_mono (min_le_min le_rfl ?_)⟩
  linarith

/-- Each channel lies between 0 and 255. -/
def InGamut (c : Rgb) : Prop := ∀ v ∈ [c.red, c.green, c.blue], 0 ≤ v ∧ v ≤ 255

theorem color_inGamut (p : ℚ) : InGamut (color p) := by
  intro v hv
  rw [color_eq] at hv
  simp only [List.mem_cons, List.not_mem_nil, or_false] at hv
  rcases hv with rfl | rfl | rfl
  · exact ⟨Int.natCast_nonneg _, channel_le _⟩
  · exact ⟨Int.natCast_nonneg _, channel_le _⟩
  · decide

theorem color_blue (p : ℚ) : (color p).blue = 0 := by
  rw [color_eq]

/-- Six digits of the lower case whose pairs are the channels of a colour. -/
structure Spells (digits : List Char) (c : Rgb) : Prop where
  length : digits.length = 6
  lower : ∀ x ∈ digits, x ∈ Text.Hex.lowerDigits
  read : (Text.Hex.toBytes? digits).map (List.map fun b => (b.toNat : ℤ)) = some [c.red, c.green, c.blue]

theorem channelHex_eq {v : ℤ} (h : 0 ≤ v ∧ v ≤ 255) :
    ∃ b : UInt8, Rgb.channelHex v = Text.Hex.ofByte b ∧ (b.toNat : ℤ) = v := by
  have hoctet : (UInt8.ofNat v.toNat).toNat = v.toNat := Text.Utf8.toNat_octet (by omega)
  refine ⟨UInt8.ofNat v.toNat, ?_, by omega⟩
  rw [Rgb.channelHex, Text.Hex.ofByte, hoctet, Nat.min_eq_right (by omega)]

theorem hexChars_spells {c : Rgb} (h : InGamut c) : ∃ digits, c.hexChars = '#' :: digits ∧ Spells digits c := by
  obtain ⟨r, hred, hr⟩ := channelHex_eq (h c.red (by simp))
  obtain ⟨g, hgreen, hg⟩ := channelHex_eq (h c.green (by simp))
  obtain ⟨b, hblue, hb⟩ := channelHex_eq (h c.blue (by simp))
  refine ⟨Text.Hex.ofBytes [r, g, b], ?_, rfl, fun x => Text.Hex.mem_lowerDigits_of_mem, ?_⟩
  · rw [Rgb.hexChars, hred, hgreen, hblue]
    simp [Text.Hex.ofBytes]
  · rw [Text.Hex.toBytes?_ofBytes, Option.map_some, List.map_cons, List.map_cons, List.map_cons, List.map_nil, hr, hg, hb]

/-- The colour shows how far the contents of a bin are away: farther is less red and more green, and
whatever the share, the icon has the text of its colour. -/
theorem color_pictures_distance (hrange : 0 < range) (h : d ≤ d') :
    (0 ≤ percentage d range ∧ percentage d range ≤ percentage d' range ∧ percentage d' range ≤ 100) ∧
    ((color (percentage d' range)).red ≤ (color (percentage d range)).red ∧
      (color (percentage d range)).green ≤ (color (percentage d' range)).green) ∧
    ∀ p : ℚ, InGamut (color p) ∧ (color p).blue = 0 ∧
      ∃ digits, (Icon.ofPercent p).fillColor = String.ofList ('#' :: digits) ∧ Spells digits (color p) := by
  have hmono := percentage_mono hrange h
  refine ⟨⟨percentage_nonneg hrange d, hmono, percentage_le hrange d'⟩, color_mono hmono, fun p => ?_⟩
  obtain ⟨digits, hchars, hdigits⟩ := hexChars_spells (color_inGamut p)
  refine ⟨color_inGamut p, color_blue p, digits, ?_, hdigits⟩
  change String.ofList (color p).hexChars = _
  rw [hchars]

/-- Two bins on both sides of yellow, and a share that is out of bounds. -/
theorem yellow_turns_green :
    color (percentage (45 : ℚ) 100) = ⟨255, 225, 0⟩ ∧ color (percentage (60 : ℚ) 100) = ⟨200, 255, 0⟩ ∧
      (color (percentage (60 : ℚ) 100)).red ≤ (color (percentage (45 : ℚ) 100)).red ∧
      ∃ digits, (Icon.ofPercent (120 : ℚ)).fillColor = String.ofList ('#' :: digits) ∧ Spells digits ⟨0, 255, 0⟩ := by
  have hover : color (120 : ℚ) = ⟨0, 255, 0⟩ := by decide +kernel
  obtain ⟨-, ⟨hred, -⟩, hall⟩ :=
    color_pictures_distance (show (0 : ℚ) < 100 by norm_num) (show (45 : ℚ) ≤ 60 by norm_num)
  exact ⟨by decide +kernel, by decide +kernel, hred, hover ▸ (hall 120).2.2⟩

end Fill

end BinFleet
