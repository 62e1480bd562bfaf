import SwapFloor.Time.Calendar

/-!
# Dates and day numbers

The years of an era begin in March, so that a leap day is the last of its year. An era has four
centuries, a century has twenty-five spans of four years, and the last year of a span has one day
more, unless the century ends with it; the last century has it anyway (`InEra`).

Main statements: the date of a day number has this number (`dayNumber_ofDayNumber`), and it exists
in the calendar if it lies in the years covered (`isValid_ofDayNumber`).
-/

namespace SwapFloor.Calendar

/-- A day of an era as its century, span of four years, year and day of the year. -/
structure InEra (dayOfEra century span year day : Int) : Prop where
  sum : dayOfEra = 36524 * century + 1461 * span + 365 * year + day
  century_mem : 0 ≤ century ∧ century ≤ 3
  span_mem : 0 ≤ span ∧ span ≤ 24
  year_mem : 0 ≤ year ∧ year ≤ 3
  day_mem : 0 ≤ day ∧ day ≤ 365
  leap : day = 365 → year = 3 ∧ (span = 24 → century = 3)

variable {n dayOfEra c q k t : Int}

theorem exists_inEra (h : 0 ≤ dayOfEra ∧ dayOfEra ≤ 146096) :
    ∃ c q k t, InEra dayOfEra c q k t := by
  have hcentury : ∃ c r, dayOfEra = 36524 * c + r ∧ 0 ≤ c ∧ c ≤ 3 ∧ 0 ≤ r ∧
      (r ≤ 36523 ∨ c = 3 ∧ r = 36524) := by
    by_cases hlast : dayOfEra = 146096
    · exact ⟨3, 36524, by omega⟩
    · exact ⟨dayOfEra / 36524, dayOfEra % 36524, by omega⟩
  obtain ⟨c, r, heq, hc0, hc3, hr0, hr⟩ := hcentury
  have hyear : ∃ k t, r % 1461 = 365 * k + t ∧ 0 ≤ k ∧ k ≤ 3 ∧ 0 ≤ t ∧
      (t ≤ 364 ∨ k = 3 ∧ t = 365) := by
    by_cases hlast : r % 1461 = 1460
    · exact ⟨3, 365, by omega⟩
    · exact ⟨r % 1461 / 365, r % 1461 % 365, by omega⟩
  obtain ⟨k, t, hm, hk0, hk3, ht0, ht⟩ := hyear
  refine ⟨c, r / 1461, k, t, ?_, ⟨hc0, hc3⟩, ?_, ⟨hk0, hk3⟩, ?_, ?_⟩
  · omega
  · omega
  · omega
  · omega

/-- The quotient that counts the years of an era up to a day. -/
theorem InEra.yearOfEra (h : InEra dayOfEra c q k t) :
    (dayOfEra - dayOfEra / 1460 + dayOfEra / 36524 - dayOfEra / 146096) / 365
      = 100 * c + 4 * q + k := by
  obtain ⟨heq, hc, hq, hk, ht, hleap⟩ := h
  have hrest : 1461 * q + 365 * k + t ≤ 36523 ∨ c = 3 ∧ 1461 * q + 365 * k + t = 36524 := by
    omega
  have hcentury : dayOfEra / 36524 - dayOfEra / 146096 = c := by
    rcases hrest with hrest | ⟨rfl, hrest⟩
    · have h1 : dayOfEra / 36524 = c := by omega
      have h2 : dayOfEra / 146096 = 0 := by omega
      omega
    · obtain rfl : dayOfEra = 146096 := by omega
      decide
  have hspan : dayOfEra / 1460 = 25 * c + q ∨
      dayOfEra / 1460 = 25 * c + q + 1 ∧ 1460 ≤ 24 * c + q + 365 * k + t := by
    omega
  omega

/-- A remainder counts for nothing in the quotient. -/
theorem ediv_of_rest {m r a d : Int} (h : m = r + a * d) (hr : 0 ≤ r) (hd : r < d) : m / d = a := by
  have hne : d ≠ 0 := by omega
  rw [h, Int.add_mul_ediv_right _ _ hne, Int.ediv_eq_zero_of_lt hr hd, Int.zero_add]

/-- The leap days before a year of an era. -/
theorem InEra.leapDays (h : InEra dayOfEra c q k t) :
    (100 * c + 4 * q + k) / 4 = 25 * c + q ∧ (100 * c + 4 * q + k) / 100 = c := by
  obtain ⟨-, hc, hq, hk, -, -⟩ := h
  constructor
  · exact ediv_of_rest (r := k) (by omega) hk.1 (by omega)
  · exact ediv_of_rest (r := 4 * q + k) (by omega) (by omega) (by omega)

theorem InEra.era_eq (h : InEra dayOfEra c q k t) (era : Int) :
    (100 * c + 4 * q + k + era * 400) / 400 = era := by
  obtain ⟨-, hc, hq, hk, -, -⟩ := h
  exact ediv_of_rest (r := 100 * c + 4 * q + k) rfl (by omega) (by omega)

/-- A date is given by the era and the parts of the day in it. -/
theorem ofDayNumber_eq (h : InEra ((n + 719468) % 146097) c q k t) :
    ∃ month day : Nat, ∃ shifted : Int, 0 ≤ shifted ∧ shifted ≤ 11 ∧
      shifted = (5 * t + 2) / 153 ∧ (day : Int) = t - (153 * shifted + 2) / 5 + 1 ∧
      (month : Int) = (if shifted < 10 then shifted + 3 else shifted - 9) ∧
      Date.ofDayNumber n = ⟨100 * c + 4 * q + k + (n + 719468) / 146097 * 400 +
        (if (month : Int) ≤ 2 then 1 else 0), month, day⟩ := by
  have hyear := h.yearOfEra
  obtain ⟨hfour, hhundred⟩ := h.leapDays
  have ht := h.day_mem
  have hera : n + 719468 - (n + 719468) / 146097 * 146097 = (n + 719468) % 146097 := by
    omega
  have hday : (n + 719468) % 146097 - (365 * (100 * c + 4 * q + k)
      + (100 * c + 4 * q + k) / 4 - (100 * c + 4 * q + k) / 100) = t := by
    rw [hfour, hhundred, h.sum]
    omega
  clear h hfour hhundred
  generalize hs : (5 * t + 2) / 153 = s
  have hs0 : 0 ≤ s ∧ s ≤ 11 := by omega
  refine ⟨(if s < 10 then s + 3 else s - 9).toNat, (t - (153 * s + 2) / 5 + 1).toNat, s, hs0.1,
    hs0.2, rfl, ?_, ?_, ?_⟩
  · omega
  · split <;> omega
  · have hmonth : ((if s < 10 then s + 3 else s - 9).toNat : Int)
        = if s < 10 then s + 3 else s - 9 := by
      split <;> omega
    rw [hmonth]
    unfold Date.ofDayNumber
    simp only [Int.fdiv_eq_ediv_of_nonneg _ (by decide : (0 : Int) ≤ 146097),
      Int.fdiv_eq_ediv_of_nonneg _ (by decide : (0 : Int) ≤ 1460),
      Int.fdiv_eq_ediv_of_nonneg _ (by decide : (0 : Int) ≤ 36524),
      Int.fdiv_eq_ediv_of_nonneg _ (by decide : (0 : Int) ≤ 146096),
      Int.fdiv_eq_ediv_of_nonneg _ (by decide : (0 : Int) ≤ 365),
      Int.fdiv_eq_ediv_of_nonneg _ (by decide : (0 : Int) ≤ 4),
      Int.fdiv_eq_ediv_of_nonneg _ (by decide : (0 : Int) ≤ 100),
      Int.fdiv_eq_ediv_of_nonneg _ (by decide : (0 : Int) ≤ 153),
      Int.fdiv_eq_ediv_of_nonneg _ (by decide : (0 : Int) ≤ 5), hera, hyear, hday, hs]

theorem exists_parts (n : Int) : ∃ c q k t, InEra ((n + 719468) % 146097) c q k t := by
  have hday : 0 ≤ (n + 719468) % 146097 ∧ (n + 719468) % 146097 ≤ 146096 := by omega
  exact exists_inEra hday

/-- The date of a day number has this number. -/
theorem dayNumber_ofDayNumber (n : Int) : (Date.ofDayNumber n).dayNumber = n := by
  obtain ⟨c, q, k, t, h⟩ := exists_parts n
  obtain ⟨month, day, s, hs0, hs11, -, hday, hmonth, hdate⟩ := ofDayNumber_eq h
  obtain ⟨hfour, hhundred⟩ := h.leapDays
  have hera := h.era_eq ((n + 719468) / 146097)
  have heq := h.sum
  have hn := Int.mul_ediv_add_emod (n + 719468) 146097
  generalize (n + 719468) / 146097 = era at hdate hera hn
  generalize (n + 719468) % 146097 = dayOfEra at heq hn
  generalize hyears : 100 * c + 4 * q + k = years at hdate hera hfour hhundred
  generalize hshifted : (153 * s + 2) / 5 = shiftedDays at hday
  rw [hdate]
  unfold Date.dayNumber
  simp only [Int.fdiv_eq_ediv_of_nonneg _ (by decide : (0 : Int) ≤ 400),
    Int.fdiv_eq_ediv_of_nonneg _ (by decide : (0 : Int) ≤ 4),
    Int.fdiv_eq_ediv_of_nonneg _ (by decide : (0 : Int) ≤ 100),
    Int.fdiv_eq_ediv_of_nonneg _ (by decide : (0 : Int) ≤ 5)]
  by_cases hlate : s < 10
  · rw [if_pos hlate] at hmonth
    have hafter : ¬ month ≤ 2 := by omega
    have hafter' : ¬ (month : Int) ≤ 2 := by omega
    have hback : (month : Int) - 3 = s := by omega
    simp only [if_neg hafter, if_neg hafter', Int.add_zero, hera, Int.add_sub_cancel, hfour,
      hhundred, hback, hshifted]
    omega
  · rw [if_neg hlate] at hmonth
    have hbefore : month ≤ 2 := by omega
    have hbefore' : (month : Int) ≤ 2 := by omega
    have hback : (month : Int) + 9 = s := by omega
    simp only [if_pos hbefore, if_pos hbefore', hera, Int.add_sub_cancel, hfour, hhundred,
      hback, hshifted]
    omega

/-- The last day of a year of an era is a leap day. -/
theorem InEra.isLeapYear (h : InEra dayOfEra c q k 365) (era : Int) :
    isLeapYear (100 * c + 4 * q + k + era * 400 + 1) = true := by
  obtain ⟨heq, hc, hq, hk, -, hleap⟩ := h
  obtain ⟨rfl, hlast⟩ := hleap rfl
  unfold Calendar.isLeapYear
  simp only [Bool.and_eq_true, Bool.or_eq_true, beq_iff_eq, bne_iff_ne]
  by_cases hspan : q = 24
  · have := hlast hspan
    omega
  · omega

/-- The days of a month, counted from March: 31, of April, June, September and November 30, and
of February 28 and a leap day. -/
theorem day_le_of_shifted {s day : Int} (hs : s = (5 * t + 2) / 153) (ht : 0 ≤ t ∧ t ≤ 365)
    (hday : day = t - (153 * s + 2) / 5 + 1) :
    1 ≤ day ∧ day ≤ 31 ∧ (s = 1 ∨ s = 3 ∨ s = 6 ∨ s = 8 → day ≤ 30) ∧
      (s = 11 → day ≤ 28 ∨ t = 365 ∧ day = 29) := by
  have hcases : s = 0 ∨ s = 1 ∨ s = 2 ∨ s = 3 ∨ s = 4 ∨ s = 5 ∨ s = 6 ∨ s = 7 ∨ s = 8 ∨ s = 9 ∨
      s = 10 ∨ s = 11 := by
    omega
  rcases hcases with rfl | rfl | rfl | rfl | rfl | rfl | rfl | rfl | rfl | rfl | rfl | rfl <;>
    omega

/-- The years before and after those covered are too far away. -/
theorem InEra.year_mem_covered {era b : Int} (h : InEra dayOfEra c q k t)
    (hn : n + 719468 = 146097 * era + dayOfEra) (hfirst : -96465292 ≤ n) (hlast : n ≤ 95026236)
    (hb : t < 306 → b = 0) (hb' : 306 ≤ t → b = 1) :
    firstYear ≤ 100 * c + 4 * q + k + era * 400 + b ∧
      100 * c + 4 * q + k + era * 400 + b ≤ lastYear := by
  obtain ⟨heq, hc, hq, hk, ht, -⟩ := h
  have hb01 : 0 ≤ b ∧ b ≤ 1 := by omega
  have hera : -656 ≤ era ∧ era ≤ 655 := by omega
  have hcases : c = 0 ∨ c = 1 ∨ c = 2 ∨ c = 3 := by omega
  constructor
  · show -262143 ≤ _
    by_cases hedge : era = -656
    · subst hedge
      rcases hcases with rfl | rfl | rfl | rfl <;> omega
    · omega
  · show _ ≤ 262142
    by_cases hedge : era = 655
    · subst hedge
      rcases hcases with rfl | rfl | rfl | rfl <;> omega
    · omega

theorem shifted_lt_ten_iff {s : Int} (hs : s = (5 * t + 2) / 153) : s < 10 ↔ t < 306 := by
  omega

/-- The date of a day number exists, if it lies in the years covered. -/
theorem isValid_ofDayNumber (hfirst : -96465292 ≤ n) (hlast : n ≤ 95026236) :
    (Date.ofDayNumber n).isValid = true := by
  obtain ⟨c, q, k, t, h⟩ := exists_parts n
  obtain ⟨month, day, s, hs0, hs11, hs, hday, hmonth, hdate⟩ := ofDayNumber_eq h
  have hyear := h.year_mem_covered (Int.mul_ediv_add_emod (n + 719468) 146097).symm hfirst hlast
    (b := if (month : Int) ≤ 2 then 1 else 0)
  have hleap := fun ht : t = 365 => (ht ▸ h).isLeapYear ((n + 719468) / 146097)
  have hmonths := shifted_lt_ten_iff hs
  obtain ⟨hday1, hday31, hday30, hfebruary⟩ := day_le_of_shifted hs h.day_mem hday
  generalize (n + 719468) / 146097 = era at hdate hyear hleap
  generalize 100 * c + 4 * q + k = years at hdate hyear hleap
  clear h hs hday
  rw [hdate]
  unfold Date.isValid
  simp only [Bool.and_eq_true, decide_eq_true_eq]
  by_cases hlate : s < 10
  · rw [if_pos hlate] at hmonth
    have hafter : ¬ (month : Int) ≤ 2 := by omega
    have hother : month ≠ 2 := by omega
    rw [if_neg hafter] at hyear
    obtain ⟨hfirstYear, hlastYear⟩ := hyear (fun _ => rfl) (by omega)
    rw [if_neg hafter]
    have hlength : day ≤ monthLength (years + era * 400 + 0) month := by
      unfold monthLength
      rw [if_neg (by simpa using hother)]
      split
      · rename_i hshort
        simp only [Bool.or_eq_true, beq_iff_eq] at hshort
        have := hday30 (by omega)
        omega
      · omega
    exact ⟨⟨⟨⟨⟨hfirstYear, hlastYear⟩, by omega⟩, by omega⟩, by omega⟩, hlength⟩
  · rw [if_neg hlate] at hmonth
    have hbefore : (month : Int) ≤ 2 := by omega
    rw [if_pos hbefore] at hyear
    obtain ⟨hfirstYear, hlastYear⟩ := hyear (by omega) (fun _ => rfl)
    rw [if_pos hbefore]
    have hlength : day ≤ monthLength (years + era * 400 + 1) month := by
      unfold monthLength
      by_cases hsecond : month = 2
      · rw [if_pos (by simpa using hsecond)]
        rcases hfebruary (by omega) with hshort | ⟨ht, h29⟩
        · split <;> omega
        · rw [if_pos (hleap ht)]
          omega
      · obtain rfl : month = 1 := by omega
        rw [if_neg (by decide), if_neg (by decide)]
        omega
    exact ⟨⟨⟨⟨⟨hfirstYear, hlastYear⟩, by omega⟩, by omega⟩, by omega⟩, hlength⟩

end SwapFloor.Calendar
