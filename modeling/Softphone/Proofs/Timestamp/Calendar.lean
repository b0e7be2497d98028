import Softphone.Timestamp

/-!
# The calendar

Every day has a date, and the date has the number of the day (`Timestamp.dayOfDate_dateOfDay`). So the date of a
day is in the calendar (`Timestamp.isDate_dateOfDay`).
-/

namespace Softphone.Timestamp

/-- A day of four hundred years falls into the year that is computed for it. -/
theorem dayOfYear_bounds {day year : Int} (hfirst : 0 ≤ day) (hlast : day < daysPerEra)
    (hyear : year = (day - day / 1460 + day / 36524 - day / 146096) / 365) :
    0 ≤ day - (365 * year + year / 4 - year / 100) ∧
      day - (365 * year + year / 4 - year / 100) ≤ 365 := by
  rw [daysPerEra] at hlast
  -- Within a century all quotients but two are fixed, and the rest is linear.
  have hcentury : day / 36524 = 0 ∨ day / 36524 = 1 ∨ day / 36524 = 2 ∨ day / 36524 = 3 ∨
      day = 146096 := by omega
  rcases hcentury with hday | hday | hday | hday | rfl
  · have : year / 100 = 0 := by omega
    omega
  · have : year / 100 = 1 := by omega
    omega
  · have : year / 100 = 2 := by omega
    omega
  · have : year / 100 = 3 := by omega
    omega
  · subst hyear
    decide

/-- The date of a day. Eras, years and months are counted from the first of March, and `day` is the day of the
year. -/
theorem exists_dateOfDay (n : Int) : ∃ era year day month : Int,
    n = era * daysPerEra + (365 * year + year / 4 - year / 100) + day - 719468 ∧
    (0 ≤ year ∧ year ≤ 399) ∧ (0 ≤ day ∧ day ≤ 365) ∧ month = (5 * day + 2) / 153 ∧
    dateOfDay n = (year + era * 400 + (if month < 10 then 0 else 1),
      (if month < 10 then month + 3 else month - 9).toNat, (day - (153 * month + 2) / 5 + 1).toNat) := by
  obtain ⟨era, hera⟩ : ∃ era, (n + 719468) / daysPerEra = era := ⟨_, rfl⟩
  obtain ⟨dayOfEra, hday⟩ : ∃ day, n + 719468 - era * daysPerEra = day := ⟨_, rfl⟩
  obtain ⟨year, hyear⟩ : ∃ year, (dayOfEra - dayOfEra / 1460 + dayOfEra / 36524 - dayOfEra / 146096) / 365 =
    year := ⟨_, rfl⟩
  have hrange : 0 ≤ dayOfEra ∧ dayOfEra < daysPerEra := by
    rw [daysPerEra] at *
    omega
  have hbounds := dayOfYear_bounds hrange.1 hrange.2 hyear.symm
  refine ⟨era, year, _, _, ?_, ?_, hbounds, rfl, ?_⟩
  · omega
  · rw [daysPerEra] at hrange
    omega
  · unfold dateOfDay
    simp only [hera, hday, hyear]
    congr 1
    split <;> split <;> omega

/-- **The date of a day has its number.** -/
theorem dayOfDate_dateOfDay (n : Int) :
    dayOfDate (dateOfDay n).1 (dateOfDay n).2.1 (dateOfDay n).2.2 = n := by
  obtain ⟨era, year, day, month, hn, hyear, hday, hmonth, hdate⟩ := exists_dateOfDay n
  have hera : (year + era * 400) / 400 = era := by omega
  rw [hdate, hn]
  unfold dayOfDate
  dsimp only
  by_cases hspring : month < 10
  · have hnumber : ((month + 3).toNat : Int) = month + 3 := by omega
    rw [if_pos hspring, if_pos hspring, if_neg (by omega), if_pos (by omega), hnumber, Int.add_zero, hera]
    omega
  · have hnumber : ((month - 9).toNat : Int) = month - 9 := by omega
    rw [if_neg hspring, if_neg hspring, if_pos (by omega), if_neg (by omega), hnumber,
      Int.add_sub_cancel, hera]
    omega

theorem isDate_dateOfDay (n : Int) :
    isDate (dateOfDay n).1 (dateOfDay n).2.1 (dateOfDay n).2.2 = true := by
  have hrange : 1 ≤ (dateOfDay n).2.1 ∧ (dateOfDay n).2.1 ≤ 12 ∧ 1 ≤ (dateOfDay n).2.2 := by
    obtain ⟨era, year, day, month, -, -, hday, hmonth, hdate⟩ := exists_dateOfDay n
    rw [hdate]
    dsimp only
    split <;> omega
  unfold isDate
  simp [dayOfDate_dateOfDay, hrange]

/-- Months and days have two digits at most. -/
theorem dateOfDay_lt (n : Int) : (dateOfDay n).2.1 < 100 ∧ (dateOfDay n).2.2 < 100 := by
  obtain ⟨era, year, day, month, -, -, hday, hmonth, hdate⟩ := exists_dateOfDay n
  rw [hdate]
  dsimp only
  split <;> omega

end Softphone.Timestamp
