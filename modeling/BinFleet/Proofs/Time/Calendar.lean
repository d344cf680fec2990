import BinFleet.Time.Calendar
import Mathlib.Tactic.Common

namespace BinFleet.Time

theorem le_daysInMonth (year : Int) (month : Nat) : 28 ≤ daysInMonth year month := by
  rw [daysInMonth]
  split_ifs <;> omega

namespace Date

/-- A day of an era of 400 years by its century, its cycle of four years there, the year of that and
the day of this. Only the last year of a cycle has 366 days, and only in the last century the last
cycle has it. -/
structure EraDay (doe century cycle year day : Int) : Prop where
  sum : doe = 36524 * century + 1461 * cycle + 365 * year + day
  centuries : 0 ≤ century ∧ century ≤ 3
  cycles : 0 ≤ cycle ∧ cycle ≤ 24
  years : 0 ≤ year ∧ year ≤ 3
  days : 0 ≤ day ∧ day ≤ 365
  leap : day = 365 → year = 3 ∧ (cycle < 24 ∨ century = 3)

theorem exists_eraDay {doe : Int} (h0 : 0 ≤ doe) (h1 : doe < 146097) :
    ∃ century cycle year day : Int, EraDay doe century cycle year day := by
  by_cases hlast : doe = 146096
  · exact ⟨3, 24, 3, 365, by omega, by omega, by omega, by omega, by omega, by omega⟩
  · have hr0 : 0 ≤ doe % 36524 % 1461 := by omega
    have hr1 : doe % 36524 % 1461 < 1461 := by omega
    have hc : 0 ≤ doe / 36524 ∧ doe / 36524 ≤ 3 := by omega
    have hq : 0 ≤ doe % 36524 / 1461 ∧ doe % 36524 / 1461 ≤ 24 := by omega
    have hq' : doe % 36524 / 1461 = 24 → doe % 36524 % 1461 < 1460 := by omega
    have hsum : doe = 36524 * (doe / 36524) + 1461 * (doe % 36524 / 1461) + doe % 36524 % 1461 := by omega
    generalize doe / 36524 = c at *
    generalize doe % 36524 / 1461 = q at *
    generalize doe % 36524 % 1461 = r at *
    by_cases hleap : r = 1460
    · exact ⟨c, q, 3, 365, by omega, by omega, by omega, by omega, by omega, by omega⟩
    · exact ⟨c, q, r / 365, r % 365, by omega, by omega, by omega, by omega, by omega, by omega⟩

namespace EraDay

variable {doe century cycle year day : Int} (h : EraDay doe century cycle year day)
include h

omit h in
/-- The estimate of the year counts a leap day too many at most, and only late in a cycle. -/
theorem estimate_range (late : Int) {year day : Int} (hlate : 0 ≤ late ∧ late ≤ 96) (hyear : 0 ≤ year ∧ year ≤ 3)
    (hday : 0 ≤ day ∧ day ≤ 365) (hlong : day = 365 → year = 3) :
    0 ≤ day - (late + 365 * year + day) / 1460 ∧ day - (late + 365 * year + day) / 1460 ≤ 364 := by
  by_cases hsmall : late + 365 * year + day < 1460
  · have hzero : (late + 365 * year + day) / 1460 = 0 := Int.ediv_eq_zero_of_lt (by omega) hsmall
    omega
  · have hone : (late + 365 * year + day) / 1460 = 1 := by omega
    omega

theorem centuries_eq : doe / 36524 - doe / 146096 = century := by
  by_cases hlast : 1461 * cycle + 365 * year + day < 36524
  · have hcentury : doe / 36524 = century := by
      rw [h.sum]
      have := h.cycles
      have := h.years
      have := h.days
      omega
    have hlt : doe / 146096 = 0 := by
      rw [h.sum]
      have := h.centuries
      have := h.cycles
      have := h.years
      have := h.days
      omega
    omega
  · have hcycle : cycle = 24 ∧ year = 3 ∧ day = 365 := by
      have := h.cycles
      have := h.years
      have := h.days
      omega
    have hcentury : century = 3 := by
      rcases (h.leap hcycle.2.2).2 with hlt | heq
      · omega
      · exact heq
    rw [h.sum, hcycle.1, hcycle.2.1, hcycle.2.2, hcentury]
    decide

/-- The year of the era that a day falls into. -/
theorem yearOfEra_eq :
    (doe - doe / 1460 + doe / 36524 - doe / 146096) / 365 = 100 * century + 4 * cycle + year := by
  have hcenturies := h.centuries_eq
  have hlate : 0 ≤ 24 * century + cycle ∧ 24 * century + cycle ≤ 96 := by
    have := h.centuries
    have := h.cycles
    omega
  have hestimate := estimate_range (24 * century + cycle) hlate h.years h.days fun hlong => (h.leap hlong).1
  have hcycles : doe / 1460 = 25 * century + cycle + (24 * century + cycle + 365 * year + day) / 1460 := by
    rw [h.sum]
    omega
  have hsum := h.sum
  generalize (24 * century + cycle + 365 * year + day) / 1460 = t at hcycles hestimate
  have htotal : doe - doe / 1460 + doe / 36524 - doe / 146096 =
      365 * (100 * century + 4 * cycle + year) + (day - t) := by
    rw [hcycles]
    omega
  rw [htotal]
  omega

theorem start_eq {yoe : Int} (hyoe : yoe = 100 * century + 4 * cycle + year) :
    365 * yoe + yoe / 4 - yoe / 100 = doe - day := by
  obtain ⟨hsum, hcentury, hcycle, hyear, hday, -⟩ := h
  have h4 : yoe / 4 = 25 * century + cycle := by omega
  have h100 : yoe / 100 = century := by omega
  omega

end EraDay

/-- A year by its era and the year of that, a day by the day of the year, where March is the first
month. -/
structure Parts (days era yoe doy : Int) : Prop where
  sum : days + 719468 = era * 146097 + (yoe * 365 + yoe / 4 - yoe / 100 + doy)
  year : 0 ≤ yoe ∧ yoe < 400
  day : 0 ≤ doy ∧ doy ≤ 365
  leap : doy = 365 → isLeap (yoe + era * 400 + 1) = true

/-- The date of a day of a year. -/
def ofParts (era yoe doy : Int) : Date :=
  let mp := (5 * doy + 2) / 153
  let month := if mp < 10 then mp + 3 else mp - 9
  let year := yoe + era * 400
  ⟨if month ≤ 2 then year + 1 else year, month.toNat, (doy - (153 * mp + 2) / 5 + 1).toNat⟩

theorem ofDays_eq (days : Int) : ∃ era yoe doy, Parts days era yoe doy ∧ ofDays days = ofParts era yoe doy := by
  obtain ⟨century, cycle, year, day, h⟩ :=
    exists_eraDay (Int.emod_nonneg (days + 719468) (by decide)) (Int.emod_lt_of_pos (days + 719468) (by decide))
  have hsplit := Int.mul_ediv_add_emod (days + 719468) 146097
  have hyoe := h.yearOfEra_eq
  have hstart := h.start_eq rfl
  refine ⟨(days + 719468) / 146097, 100 * century + 4 * cycle + year, day, ⟨?_, ?_, h.days, ?_⟩, ?_⟩
  · omega
  · have := h.centuries
    have := h.cycles
    have := h.years
    omega
  · intro hlong
    obtain ⟨hyear, hcycle⟩ := h.leap hlong
    have := h.centuries
    have := h.cycles
    simp only [isLeap, Bool.and_eq_true, beq_iff_eq, Bool.or_eq_true, bne_iff_ne]
    refine ⟨by omega, ?_⟩
    rcases hcycle with hlt | hlast
    · left
      omega
    · by_cases hlt : cycle < 24
      · left
        omega
      · right
        omega
  · simp only [ofDays, ofParts, hyoe, hstart]
    rw [Int.sub_sub_self]

namespace Parts

variable {days era yoe doy : Int} (h : Parts days era yoe doy)
include h

/-- The first ten months, from March on. -/
theorem ofParts_early {mp : Int} (hmp : (5 * doy + 2) / 153 = mp) (hearly : mp < 10) :
    ofParts era yoe doy = ⟨yoe + era * 400, (mp + 3).toNat, (doy - (153 * mp + 2) / 5 + 1).toNat⟩ := by
  have hday := h.day
  simp only [ofParts, hmp, if_pos hearly]
  rw [if_neg (by omega)]

/-- January and February. -/
theorem ofParts_late {mp : Int} (hmp : (5 * doy + 2) / 153 = mp) (hlate : ¬ mp < 10) :
    ofParts era yoe doy = ⟨yoe + era * 400 + 1, (mp - 9).toNat, (doy - (153 * mp + 2) / 5 + 1).toNat⟩ := by
  have hday := h.day
  simp only [ofParts, hmp, if_neg hlate]
  rw [if_pos (by omega)]

theorem toDays_ofParts : toDays (ofParts era yoe doy) = days := by
  obtain ⟨mp, hmp⟩ : ∃ mp, (5 * doy + 2) / 153 = mp := ⟨_, rfl⟩
  have hday := h.day
  have hyear := h.year
  have hsum := h.sum
  have hera : (yoe + era * 400) / 400 = era := by omega
  have hyoe : (yoe + era * 400) % 400 = yoe := by omega
  have hrest : 0 ≤ doy - (153 * mp + 2) / 5 := by omega
  have hrange : 0 ≤ mp ∧ mp ≤ 11 := by omega
  by_cases hearly : mp < 10
  · have hmonth : ¬ (mp + 3).toNat ≤ 2 := by omega
    rw [h.ofParts_early hmp hearly, toDays]
    simp only [if_neg hmonth, hera, hyoe]
    rw [Int.toNat_of_nonneg (by omega), Int.toNat_of_nonneg (by omega), Int.add_sub_cancel]
    omega
  · have hmonth : (mp - 9).toNat ≤ 2 := by omega
    rw [h.ofParts_late hmp hearly, toDays]
    simp only [if_pos hmonth, Int.add_sub_cancel, hera, hyoe]
    rw [Int.toNat_of_nonneg (by omega), Int.toNat_of_nonneg (by omega), Int.sub_add_cancel]
    omega

/-- Months of a date that the calendar has. -/
theorem month_range : 1 ≤ (ofParts era yoe doy).month ∧ (ofParts era yoe doy).month ≤ 12 := by
  obtain ⟨mp, hmp⟩ : ∃ mp, (5 * doy + 2) / 153 = mp := ⟨_, rfl⟩
  have hday := h.day
  by_cases hearly : mp < 10
  · rw [h.ofParts_early hmp hearly]
    simp only
    omega
  · rw [h.ofParts_late hmp hearly]
    simp only
    omega

theorem day_range : 1 ≤ (ofParts era yoe doy).day ∧
    (ofParts era yoe doy).day ≤ daysInMonth (ofParts era yoe doy).year (ofParts era yoe doy).month := by
  obtain ⟨mp, hmp⟩ : ∃ mp, (5 * doy + 2) / 153 = mp := ⟨_, rfl⟩
  have hday := h.day
  have hrange : 0 ≤ mp ∧ mp ≤ 11 := by omega
  by_cases hearly : mp < 10
  · rw [h.ofParts_early hmp hearly]
    have hcases : mp = 0 ∨ mp = 1 ∨ mp = 2 ∨ mp = 3 ∨ mp = 4 ∨ mp = 5 ∨ mp = 6 ∨ mp = 7 ∨ mp = 8 ∨ mp = 9 := by omega
    rcases hcases with rfl | rfl | rfl | rfl | rfl | rfl | rfl | rfl | rfl | rfl <;>
      simp [daysInMonth] <;> omega
  · rw [h.ofParts_late hmp hearly]
    by_cases hfebruary : mp = 11
    · subst hfebruary
      have hleap := h.leap
      by_cases hlong : doy = 365
      · simp [daysInMonth, hleap hlong, hlong]
      · have := le_daysInMonth (yoe + era * 400 + 1) 2
        simp only [Int.reduceSub, Int.reduceToNat, Int.reduceMul, Int.reduceAdd, Int.reduceDiv]
        omega
    · obtain rfl : mp = 10 := by omega
      simp [daysInMonth]
      omega

end Parts

theorem toDays_ofDays (days : Int) : toDays (ofDays days) = days := by
  obtain ⟨era, yoe, doy, h, heq⟩ := ofDays_eq days
  rw [heq, h.toDays_ofParts]

theorem toDays_range {d : Date} (hyear : 0 ≤ d.year ∧ d.year ≤ 9999) (hmonth : 1 ≤ d.month ∧ d.month ≤ 12)
    (hday : 1 ≤ d.day ∧ d.day ≤ 31) : -719528 ≤ d.toDays ∧ d.toDays ≤ 2932896 := by
  rw [toDays]
  by_cases hearly : d.month ≤ 2
  · simp only [if_pos hearly]
    omega
  · simp only [if_neg hearly]
    omega

/-- The days of the years of four digits. -/
theorem year_ofDays {days : Int} (h : -719528 ≤ days ∧ days ≤ 2932896) :
    0 ≤ (ofDays days).year ∧ (ofDays days).year ≤ 9999 := by
  obtain ⟨era, yoe, doy, hparts, heq⟩ := ofDays_eq days
  obtain ⟨mp, hmp⟩ : ∃ mp, (5 * doy + 2) / 153 = mp := ⟨_, rfl⟩
  have hday := hparts.day
  have hyear := hparts.year
  have hsum := hparts.sum
  have hera : -1 ≤ era ∧ era ≤ 24 := by omega
  -- the year before year 0 belongs to it from January on
  have hfirst : era = -1 → yoe = 399 ∧ 306 ≤ doy := by
    intro hneg
    subst hneg
    have hyoe : yoe = 399 := by omega
    subst hyoe
    omega
  rw [heq]
  by_cases hearly : mp < 10
  · rw [hparts.ofParts_early hmp hearly]
    have hnonneg : 0 ≤ era := by
      rcases Int.lt_or_le era 0 with hneg | hnonneg
      · have := hfirst (by omega)
        omega
      · exact hnonneg
    simp only
    omega
  · rw [hparts.ofParts_late hmp hearly]
    have hlast : era = 24 → yoe < 399 := by
      intro hlast
      omega
    simp only
    omega

/-- A date that the calendar has. -/
structure Valid (d : Date) : Prop where
  month : 1 ≤ d.month ∧ d.month ≤ 12
  day : 1 ≤ d.day ∧ d.day ≤ daysInMonth d.year d.month

theorem ofDays_valid (days : Int) : (ofDays days).Valid := by
  obtain ⟨era, yoe, doy, h, heq⟩ := ofDays_eq days
  rw [heq]
  exact ⟨h.month_range, h.day_range⟩

end Date

end BinFleet.Time
