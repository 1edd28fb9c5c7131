/- The proleptic Gregorian calendar counted from March: years and months begin at given days, and
integer formulas find the year and the month of a day again. -/
import Mathlib

namespace Calendar

/-- The day on which a year that begins in March begins. -/
def yearStart (y : ℤ) : ℤ := 365 * y + y / 4 - y / 100 + y / 400

theorem yearStart_zero : yearStart 0 = 0 := rfl

theorem yearStart_era (era y : ℤ) : yearStart (era * 400 + y) = era * 146097 + yearStart y := by
  simp only [yearStart]
  omega

theorem yearStart_succ (y : ℤ) : yearStart (y + 1) = yearStart y +
    if (y + 1) % 4 = 0 ∧ ((y + 1) % 100 ≠ 0 ∨ (y + 1) % 400 = 0) then 366 else 365 := by
  simp only [yearStart]
  split
  · rename_i leap
    omega
  · rename_i common
    omega

def yearOfDay (day : ℤ) : ℤ := (day - day / 1460 + day / 36524 - day / 146096) / 365

theorem yearOfDay_parts {century four year day : ℤ} (centuries : 0 ≤ century ∧ century ≤ 3)
    (fours : 0 ≤ four ∧ four ≤ 24) (years : 0 ≤ year ∧ year ≤ 3) (first : 0 ≤ day)
    (last : day ≤ if year = 3 ∧ (four ≠ 24 ∨ century = 3) then 365 else 364) :
    yearOfDay (36524 * century + 1461 * four + 365 * year + day) = 100 * century + 4 * four + year := by
  rw [yearOfDay]
  have most : day ≤ 365 := by
    split at last <;> omega
  have short : day = 365 → year = 3 ∧ (four ≠ 24 ∨ century = 3) := by
    intro full
    by_contra other
    rw [if_neg other] at last
    omega
  have centuryOf : (36524 * century + 1461 * four + 365 * year + day) / 36524 -
      (36524 * century + 1461 * four + 365 * year + day) / 146096 = century := by
    by_cases closes : 1461 * four + 365 * year + day = 36524
    · have closing : century = 3 := by omega
      have sum : 36524 * century + 1461 * four + 365 * year + day = 146096 := by omega
      rw [sum, closing]
      rfl
    · have inside : 1461 * four + 365 * year + day < 36524 := by omega
      have own : (36524 * century + 1461 * four + 365 * year + day) / 36524 = century := by omega
      have before : (36524 * century + 1461 * four + 365 * year + day) / 146096 = 0 := by omega
      rw [own, before, sub_zero]
  have fourOf : (36524 * century + 1461 * four + 365 * year + day) / 1460 = 25 * century + four +
      (24 * century + four + 365 * year + day) / 1460 := by
    omega
  have carried : (24 * century + four + 365 * year + day) / 1460 =
      if 1460 ≤ 24 * century + four + 365 * year + day then 1 else 0 := by
    split <;> omega
  have sum : 36524 * century + 1461 * four + 365 * year + day -
        (36524 * century + 1461 * four + 365 * year + day) / 1460 +
        (36524 * century + 1461 * four + 365 * year + day) / 36524 -
        (36524 * century + 1461 * four + 365 * year + day) / 146096 =
      365 * (100 * century + 4 * four + year) +
        (day - (24 * century + four + 365 * year + day) / 1460) := by
    omega
  rw [sum, carried]
  split
  · omega
  · omega

theorem exists_parts {day : ℤ} (first : 0 ≤ day) (last : day < 146097) :
    ∃ century four year rest : ℤ, (0 ≤ century ∧ century ≤ 3) ∧ (0 ≤ four ∧ four ≤ 24) ∧
      (0 ≤ year ∧ year ≤ 3) ∧ 0 ≤ rest ∧
      (rest ≤ if year = 3 ∧ (four ≠ 24 ∨ century = 3) then 365 else 364) ∧
      36524 * century + 1461 * four + 365 * year + rest = day := by
  obtain ⟨century, centuries, inside, short⟩ : ∃ century, (0 ≤ century ∧ century ≤ 3) ∧
      (0 ≤ day - 36524 * century) ∧ day - 36524 * century ≤ if century = 3 then 36524 else 36523 := by
    by_cases closing : day = 146096
    · exact ⟨3, by omega, by omega, by rw [if_pos rfl]; omega⟩
    · refine ⟨day / 36524, by omega, by omega, ?_⟩
      split <;> omega
  have most : day - 36524 * century ≤ 36524 := by split at short <;> omega
  obtain ⟨four, fours, inside', short'⟩ : ∃ four, (0 ≤ four ∧ four ≤ 24) ∧
      0 ≤ day - 36524 * century - 1461 * four ∧
      day - 36524 * century - 1461 * four ≤ if four ≠ 24 ∨ century = 3 then 1460 else 1459 := by
    refine ⟨(day - 36524 * century) / 1461, by omega, by omega, ?_⟩
    split at short
    · rename_i closing
      rw [if_pos (.inr closing)]
      omega
    · split <;> omega
  have most' : day - 36524 * century - 1461 * four ≤ 1460 := by split at short' <;> omega
  by_cases closing : day - 36524 * century - 1461 * four = 1460
  · have leap : four ≠ 24 ∨ century = 3 := by
      by_contra other
      rw [if_neg other] at short'
      omega
    refine ⟨century, four, 3, 365, centuries, fours, by omega, by omega, ?_, by omega⟩
    rw [if_pos ⟨rfl, leap⟩]
  · refine ⟨century, four, (day - 36524 * century - 1461 * four) / 365,
      (day - 36524 * century - 1461 * four) % 365, centuries, fours, by omega, by omega, ?_, by omega⟩
    split <;> omega

theorem yearStart_parts {century four year : ℤ} (centuries : 0 ≤ century ∧ century ≤ 3)
    (fours : 0 ≤ four ∧ four ≤ 24) (years : 0 ≤ year ∧ year ≤ 3) :
    yearStart (100 * century + 4 * four + year) = 36524 * century + 1461 * four + 365 * year := by
  have quarter : (100 * century + 4 * four + year) / 4 = 25 * century + four := by omega
  have hundred : (100 * century + 4 * four + year) / 100 = century := by omega
  have era : (100 * century + 4 * four + year) / 400 = 0 := by omega
  rw [yearStart, quarter, hundred, era]
  omega

theorem yearOfDay_spec {day : ℤ} (first : 0 ≤ day) (last : day < 146097) :
    (0 ≤ yearOfDay day ∧ yearOfDay day < 400) ∧ yearStart (yearOfDay day) ≤ day ∧
      day < yearStart (yearOfDay day + 1) := by
  obtain ⟨century, four, year, rest, centuries, fours, years, least, most, rfl⟩ := exists_parts first last
  rw [yearOfDay_parts centuries fours years least most, yearStart_succ,
    yearStart_parts centuries fours years]
  refine ⟨⟨by omega, by omega⟩, by omega, ?_⟩
  by_cases long : year = 3 ∧ (four ≠ 24 ∨ century = 3)
  · rw [if_pos long] at most
    rw [if_pos (by omega)]
    omega
  · rw [if_neg long] at most
    split <;> omega

theorem yearOfDay_next_era {day : ℤ} (first : 0 ≤ day) (last : day < 146096) :
    yearOfDay (day + 146097) = yearOfDay day + 400 := by
  obtain ⟨century, four, year, rest, centuries, fours, years, least, most, rfl⟩ :=
    exists_parts first (by omega)
  rw [yearOfDay_parts centuries fours years least most, yearOfDay]
  have full : rest ≤ 365 := by
    split at most <;> omega
  have short : rest = 365 → year = 3 := by
    intro leap
    by_contra other
    rw [if_neg (fun both => other both.1)] at most
    omega
  -- The last day of a century other than the era's counts to the next one.
  have centuryOf : (36524 * century + 1461 * four + 365 * year + rest + 146097) / 36524 -
      (36524 * century + 1461 * four + 365 * year + rest + 146097) / 146096 = century + 3 +
        if 1461 * four + 365 * year + rest = 36523 ∧ century < 3 then 1 else 0 := by
    by_cases closes : 1461 * four + 365 * year + rest = 36523
    · have sum : 36524 * century + 1461 * four + 365 * year + rest + 146097 = 36524 * (century + 5) := by
        omega
      rw [sum, Int.mul_ediv_cancel_left _ (by decide)]
      split <;> omega
    · have own : (36524 * century + 1461 * four + 365 * year + rest + 146097) / 36524 = century + 4 := by
        have inside : 1461 * four + 365 * year + rest < 36523 := by omega
        omega
      have era : (36524 * century + 1461 * four + 365 * year + rest + 146097) / 146096 = 1 := by omega
      rw [own, era, if_neg fun both => closes both.1]
      omega
  have fourOf : (36524 * century + 1461 * four + 365 * year + rest + 146097) / 1460 =
      25 * century + four + 100 + (24 * century + four + 365 * year + rest + 97) / 1460 := by
    omega
  have carried : (24 * century + four + 365 * year + rest + 97) / 1460 =
      if 1460 ≤ 24 * century + four + 365 * year + rest + 97 then 1 else 0 := by
    split <;> omega
  have sum : 36524 * century + 1461 * four + 365 * year + rest + 146097 -
        (36524 * century + 1461 * four + 365 * year + rest + 146097) / 1460 +
        (36524 * century + 1461 * four + 365 * year + rest + 146097) / 36524 -
        (36524 * century + 1461 * four + 365 * year + rest + 146097) / 146096 =
      365 * (100 * century + 4 * four + year + 400) +
        (rest + (if 1461 * four + 365 * year + rest = 36523 ∧ century < 3 then 1 else 0) -
          (24 * century + four + 365 * year + rest + 97) / 1460) := by
    omega
  rw [sum, carried]
  have ended : 1461 * four + 365 * year + rest = 36523 → year = 3 := by omega
  split <;> split <;> omega

theorem yearStart_strictMono : StrictMono yearStart := by
  apply strictMono_int_of_lt_succ
  intro y
  rw [yearStart_succ]
  split <;> omega

theorem year_unique {day y y' : ℤ} (here : yearStart y ≤ day ∧ day < yearStart (y + 1))
    (here' : yearStart y' ≤ day ∧ day < yearStart (y' + 1)) : y = y' := by
  have below := yearStart_strictMono.lt_iff_lt.mp (here.1.trans_lt here'.2)
  have above := yearStart_strictMono.lt_iff_lt.mp (here'.1.trans_lt here.2)
  omega

/-- The day of a year that begins in March on which a month begins. -/
def monthStart (m : ℤ) : ℤ := (153 * m + 2) / 5

def monthOfDay (day : ℤ) : ℤ := (5 * day + 2) / 153

theorem monthOfDay_eq_iff {m day : ℤ} :
    monthOfDay day = m ↔ monthStart m ≤ day ∧ day < monthStart (m + 1) := by
  simp only [monthOfDay, monthStart]
  constructor
  · rintro rfl
    constructor <;> omega
  · rintro ⟨begun, ended⟩
    omega

def yearOf (day : ℤ) : ℤ := day / 146097 * 400 + yearOfDay (day % 146097)

theorem yearOf_eq_iff {y day : ℤ} : yearOf day = y ↔ yearStart y ≤ day ∧ day < yearStart (y + 1) := by
  have own : yearStart (yearOf day) ≤ day ∧ day < yearStart (yearOf day + 1) := by
    obtain ⟨-, begun, ended⟩ := yearOfDay_spec (Int.emod_nonneg day (by decide))
      (Int.emod_lt_of_pos day (by decide))
    rw [yearOf, add_assoc, yearStart_era, yearStart_era]
    omega
  constructor
  · rintro rfl
    exact own
  · exact fun here => year_unique own here

end Calendar
