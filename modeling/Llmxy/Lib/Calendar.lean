import Mathlib.Algebra.Ring.Int.Defs
import Mathlib.Data.Int.Order.Basic
import Mathlib.Tactic.Common

/-!
# Calendar months

Instants are microseconds since 1970-01-01 00:00 UTC in the proleptic Gregorian
calendar, which is the calendar of Python's `datetime`.

## Main definitions

* `civilOfDay`, `dayOfCivil` — the year and month of a day, and the first day of a
  month.
* `nextMonthStart` — the first instant of the next month, `lt_nextMonthStart`.
-/

namespace Llmxy

/-- Microseconds in a day. -/
def day : ℤ := 24 * 3600 * 1000000

/-- Year and month of a day number.  The year is counted from March, so that the
leap day is the last of it. -/
def civilOfDay (z : ℤ) : ℤ × ℤ :=
  let z := z + 719468
  let era := z / 146097
  let doe := z - era * 146097
  let yoe := (doe - doe / 1460 + doe / 36524 - doe / 146096) / 365
  let doy := doe - (365 * yoe + yoe / 4 - yoe / 100)
  let mp := (5 * doy + 2) / 153
  let m := if mp < 10 then mp + 3 else mp - 9
  (yoe + era * 400 + if m ≤ 2 then 1 else 0, m)

/-- The day number of the first day of a month. -/
def dayOfCivil (y m : ℤ) : ℤ :=
  let y := if m ≤ 2 then y - 1 else y
  let era := y / 400
  let yoe := y - era * 400
  let doy := (153 * (if 2 < m then m - 3 else m + 9) + 2) / 5
  era * 146097 + (yoe * 365 + yoe / 4 - yoe / 100 + doy) - 719468

/-- The first instant of the month after `now`. -/
def nextMonthStart (now : ℤ) : ℤ :=
  let c := civilOfDay (now / day)
  (if 12 < c.2 + 1 then dayOfCivil (c.1 + 1) 1 else dayOfCivil c.1 (c.2 + 1)) * day

/-- 2024-02-29 is followed by 2024-03-01. -/
example : nextMonthStart (19782 * day + 5) = 19783 * day := by decide

/-- The years of an era before a day, and the days before them. -/
theorem yearOfEra_bounds {doe yoe : ℤ} (h0 : 0 ≤ doe) (h1 : doe ≤ 146096)
    (hy : yoe = (doe - doe / 1460 + doe / 36524 - doe / 146096) / 365) :
    0 ≤ yoe ∧ yoe ≤ 399 ∧ 365 * yoe + yoe / 4 - yoe / 100 ≤ doe ∧
      doe < 365 * (yoe + 1) + (yoe + 1) / 4 - (yoe + 1) / 100 + (yoe + 1) / 400 := by
  by_cases hlast : doe = 146096
  · subst hlast
    have hyoe : yoe = 399 := by omega
    subst hyoe
    decide
  · have hera : doe / 146096 = 0 := by omega
    rw [hera, sub_zero] at hy
    have hcentury : yoe / 100 = doe / 36524 := by omega
    have hleap : yoe / 4 ≤ doe / 1460 := by omega
    have hleap' : doe / 1460 ≤ (yoe + 1) / 4 := by omega
    refine ⟨by omega, by omega, by omega, ?_⟩
    by_cases hend : yoe + 1 = 100 * (yoe / 100 + 1)
    · omega
    · have hsame : (yoe + 1) / 100 = yoe / 100 := by omega
      omega




section
variable {era yoe m : ℤ}

/-- The first day of a month from March on. -/
theorem dayOfCivil_late (hy0 : 0 ≤ yoe) (hy : yoe ≤ 399) (hm : 2 < m) :
    dayOfCivil (yoe + era * 400) m =
      era * 146097 + (yoe * 365 + yoe / 4 - yoe / 100 + (153 * (m - 3) + 2) / 5) - 719468 := by
  have hera : (yoe + era * 400) / 400 = era := by omega
  simp only [dayOfCivil, if_neg (not_le.mpr hm), if_pos hm, hera, add_sub_cancel_right]

/-- The first day of January or February, in the year counted from March. -/
theorem dayOfCivil_early (hy0 : 0 ≤ yoe) (hy : yoe ≤ 399) (hm : m ≤ 2) :
    dayOfCivil (yoe + era * 400 + 1) m =
      era * 146097 + (yoe * 365 + yoe / 4 - yoe / 100 + (153 * (m + 9) + 2) / 5) - 719468 := by
  have hera : (yoe + era * 400) / 400 = era := by omega
  simp only [dayOfCivil, if_pos hm, if_neg (not_lt.mpr hm), hera, add_sub_cancel_right]

end

/-- A day comes before the first day of the next month. -/
theorem lt_dayOfCivil_next (z : ℤ) :
    z < if 12 < (civilOfDay z).2 + 1 then dayOfCivil ((civilOfDay z).1 + 1) 1
      else dayOfCivil (civilOfDay z).1 ((civilOfDay z).2 + 1) := by
  obtain ⟨era, hera⟩ : ∃ era, era = (z + 719468) / 146097 := ⟨_, rfl⟩
  obtain ⟨doe, hdoe⟩ : ∃ doe, doe = z + 719468 - era * 146097 := ⟨_, rfl⟩
  obtain ⟨yoe, hyoe⟩ : ∃ yoe, yoe = (doe - doe / 1460 + doe / 36524 - doe / 146096) / 365 :=
    ⟨_, rfl⟩
  obtain ⟨doy, hdoy⟩ : ∃ doy, doy = doe - (365 * yoe + yoe / 4 - yoe / 100) := ⟨_, rfl⟩
  obtain ⟨mp, hmp⟩ : ∃ mp, mp = (5 * doy + 2) / 153 := ⟨_, rfl⟩
  have hcivil : civilOfDay z = (yoe + era * 400 + if (if mp < 10 then mp + 3 else mp - 9) ≤ 2
      then 1 else 0, if mp < 10 then mp + 3 else mp - 9) := by
    subst hmp hdoy hyoe hdoe hera
    rfl
  obtain ⟨hy0, hy, hle, hlt⟩ := yearOfEra_bounds (by omega) (by omega) hyoe
  have hmp0 : 0 ≤ mp := by omega
  have hmp11 : mp ≤ 11 := by omega
  rw [hcivil]
  by_cases hm : mp < 10
  · have h3 : ¬ mp + 3 ≤ 2 := by omega
    simp only [if_pos hm, if_neg h3, add_zero]
    by_cases h9 : mp = 9
    · rw [if_pos (by omega), dayOfCivil_early hy0 hy (by omega)]
      omega
    · rw [if_neg (by omega), dayOfCivil_late hy0 hy (by omega)]
      omega
  · have h9 : mp - 9 ≤ 2 := by omega
    simp only [if_neg hm, if_pos h9]
    rw [if_neg (by omega)]
    by_cases h10 : mp = 10
    · rw [dayOfCivil_early hy0 hy (by omega)]
      omega
    · -- March opens the next year, and perhaps the next era
      by_cases hlast : yoe = 399
      · have hnext : yoe + era * 400 + 1 = 0 + (era + 1) * 400 := by omega
        rw [hnext, dayOfCivil_late le_rfl (by omega) (by omega)]
        omega
      · have hnext : yoe + era * 400 + 1 = yoe + 1 + era * 400 := by omega
        rw [hnext, dayOfCivil_late (by omega) (by omega) (by omega)]
        omega

/-- The next month starts after the instant. -/
theorem lt_nextMonthStart (now : ℤ) : now < nextMonthStart now := by
  have hnext := lt_dayOfCivil_next (now / day)
  have hnow : now < (now / day + 1) * day := Int.lt_ediv_add_one_mul_self now (by decide)
  rw [nextMonthStart]
  refine lt_of_lt_of_le hnow ?_
  rw [day]
  rw [day] at hnext
  omega

end Llmxy
