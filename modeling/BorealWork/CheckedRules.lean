/- The rule of a footer as the machine follows it, every operation in its width: it never traps, and
comes to what the rule over unbounded numbers comes to. -/
import BorealWork.PosixRules
import BorealWork.Library.Traps

namespace Boreal.TimeZones.Machine
open Drain Traps
open WorkModel (daysInMonth isLeapYear)

def i64 : ℤ → Option ℤ := signed 64

def i32 : ℤ → Option ℤ := signed 32

def u8 : ℕ → Option ℕ := unsigned 8

/-- The quotient of an era, rounded towards zero. -/
def eraOf (n length : ℤ) : Option ℤ :=
  (if 0 ≤ n then some n else i64 (n - (length - 1))).map (·.tdiv length)

def daysFromCivil (year : ℤ) (month day : ℕ) : Option ℤ := do
  let year ← i64 (year - if month ≤ 2 then 1 else 0)
  let era ← eraOf year 400
  let eras ← i64 (era * 400)
  let yearOfEra ← i64 (year - eras)
  let monthOfYear ← i64 (month + if 2 < month then -3 else 9)
  let dayOfYear ← i64 (153 * monthOfYear)
  let dayOfYear ← i64 (dayOfYear + 2)
  let dayOfYear ← i64 (dayOfYear.tdiv 5 + day)
  let dayOfYear ← i64 (dayOfYear - 1)
  let dayOfEra ← i64 (yearOfEra * 365)
  let dayOfEra ← i64 (dayOfEra + yearOfEra.tdiv 4)
  let dayOfEra ← i64 (dayOfEra - yearOfEra.tdiv 100)
  let dayOfEra ← i64 (dayOfEra + dayOfYear)
  let days ← i64 (era * 146097)
  let days ← i64 (days + dayOfEra)
  i64 (days - 719468)

def civilYear (days : ℤ) : Option ℤ := do
  let z ← i64 (days + 719468)
  let era ← eraOf z 146097
  let eras ← i64 (era * 146097)
  let dayOfEra ← i64 (z - eras)
  let leapless ← i64 (dayOfEra - dayOfEra.tdiv 1460)
  let leapless ← i64 (leapless + dayOfEra.tdiv 36524)
  let leapless ← i64 (leapless - dayOfEra.tdiv 146096)
  let yearOfEra := leapless.tdiv 365
  let years ← i64 (era * 400)
  let year ← i64 (yearOfEra + years)
  let begun ← i64 (365 * yearOfEra)
  let begun ← i64 (begun + yearOfEra.tdiv 4)
  let begun ← i64 (begun - yearOfEra.tdiv 100)
  let dayOfYear ← i64 (dayOfEra - begun)
  let months ← i64 (5 * dayOfYear)
  let months ← i64 (months + 2)
  let monthPrime := months.tdiv 153
  let before ← i64 (153 * monthPrime)
  let before ← i64 (before + 2)
  let day ← i64 (dayOfYear - before.tdiv 5)
  let _day ← i64 (day + 1)
  let month ← i64 (monthPrime + if monthPrime < 10 then 3 else -9)
  i64 (year + if month ≤ 2 then 1 else 0)

theorem i64_eq {v : ℤ} (low : -2 ^ 63 ≤ v) (high : v < 2 ^ 63) : i64 v = some v :=
  signed_of_fits (by omega) (by omega)

theorem i64_bind {α : Type} {v : ℤ} {f : ℤ → Option α} (low : -2 ^ 63 ≤ v) (high : v < 2 ^ 63) :
    i64 v >>= f = f v := by rw [i64_eq low high]; rfl

theorem eraOf_bind {α : Type} {n k : ℤ} {f : ℤ → Option α} (positive : 0 < k) (small : k < 2 ^ 32)
    (low : -2 ^ 62 ≤ n) : eraOf n k >>= f = f (n / k) := by
  rw [← WorkModel.shifted_tdiv n k positive, eraOf]
  split
  · rfl
  · rw [i64_eq (by omega) (by omega)]
    rfl

theorem daysFromCivil_settled {year : ℤ} {month day : ℕ} (years : -2 ^ 40 ≤ year ∧ year ≤ 2 ^ 40)
    (months : month ≤ 255) (days : day ≤ 255) :
    daysFromCivil year month day = some (WorkModel.daysFromCivil year month day) ∧
      -2 ^ 52 ≤ WorkModel.daysFromCivil year month day ∧ WorkModel.daysFromCivil year month day ≤ 2 ^ 52 := by
  have first : (year - if month ≤ 2 then 1 else 0) = if month ≤ 2 then year - 1 else year := by
    split <;> omega
  obtain ⟨y, start, inside⟩ : ∃ y : ℤ, (if month ≤ 2 then year - 1 else year) = y ∧
      (-2 ^ 41 ≤ y ∧ y ≤ 2 ^ 41) := ⟨_, rfl, by split <;> omega⟩
  obtain ⟨m, shifted, inYear⟩ : ∃ m : ℤ, (month + if 2 < month then -3 else 9) = m ∧ (0 ≤ m ∧ m ≤ 264) :=
    ⟨_, rfl, by split <;> omega⟩
  have floor : (if 0 ≤ y then y else y - 399).tdiv 400 = y / 400 := WorkModel.shifted_tdiv y 400 (by decide)
  have fifth : (153 * m + 2).tdiv 5 = (153 * m + 2) / 5 := Int.tdiv_eq_ediv_of_nonneg (by omega)
  have fourth : (y - y / 400 * 400).tdiv 4 = (y - y / 400 * 400) / 4 := Int.tdiv_eq_ediv_of_nonneg (by omega)
  have century : (y - y / 400 * 400).tdiv 100 = (y - y / 400 * 400) / 100 :=
    Int.tdiv_eq_ediv_of_nonneg (by omega)
  simp only [daysFromCivil, WorkModel.daysFromCivil, first, start, shifted, floor]
  simp only [fifth, fourth, century]
  refine ⟨?_, by omega, by omega⟩
  rw [i64_bind (by omega) (by omega), eraOf_bind (by omega) (by omega) (by omega)]
  simp (disch := omega) only [↓i64_bind, ↓i64_eq, fifth, fourth, century]

theorem tdiv_bounds {bound : ℤ} (n k : ℤ) (low : -bound ≤ n) (high : n ≤ bound) :
    -bound ≤ n.tdiv k ∧ n.tdiv k ≤ bound := by
  have smaller := Int.natAbs_tdiv_le_natAbs n k
  omega

theorem civilYear_settled {days : ℤ} (inside : -2 ^ 47 ≤ days ∧ days ≤ 2 ^ 47) :
    civilYear days = some (TimeZones.civilYear days) ∧
      -2 ^ 39 ≤ TimeZones.civilYear days ∧ TimeZones.civilYear days ≤ 2 ^ 39 := by
  obtain ⟨low, high⟩ := inside
  have floor : (if 0 ≤ days + 719468 then days + 719468 else days + 719468 - 146096).tdiv 146097 =
      (days + 719468) / 146097 := WorkModel.shifted_tdiv (days + 719468) 146097 (by decide)
  have rest : days + 719468 - (days + 719468) / 146097 * 146097 = (days + 719468) % 146097 := by omega
  have least := Int.emod_nonneg (days + 719468) (show (146097 : ℤ) ≠ 0 by decide)
  have most := Int.emod_lt_of_pos (days + 719468) (show (0 : ℤ) < 146097 by decide)
  simp only [civilYear, TimeZones.civilYear, floor, rest]
  rw [i64_bind (by omega) (by omega), eraOf_bind (by omega) (by omega) (by omega)]
  rw [i64_bind (by omega) (by omega)]
  simp only [rest]
  rw [i64_bind (by omega) (by omega)]
  generalize (days + 719468) % 146097 = doe at *
  have q1 : doe.tdiv 1460 = doe / 1460 := Int.tdiv_eq_ediv_of_nonneg least
  have q2 : doe.tdiv 36524 = doe / 36524 := Int.tdiv_eq_ediv_of_nonneg least
  have q3 : doe.tdiv 146096 = doe / 146096 := Int.tdiv_eq_ediv_of_nonneg least
  have year : (doe - doe / 1460 + doe / 36524 - doe / 146096).tdiv 365 =
      (doe - doe / 1460 + doe / 36524 - doe / 146096) / 365 := Int.tdiv_eq_ediv_of_nonneg (by omega)
  simp only [q1, q2, q3]
  simp (disch := omega) only [↓i64_bind]
  simp only [year]
  obtain ⟨yoe, same, years⟩ : ∃ yoe : ℤ, (doe - doe / 1460 + doe / 36524 - doe / 146096) / 365 = yoe ∧
      (0 ≤ yoe ∧ yoe ≤ 400) := ⟨_, rfl, by omega⟩
  have q4 : yoe.tdiv 4 = yoe / 4 := Int.tdiv_eq_ediv_of_nonneg years.1
  have q5 : yoe.tdiv 100 = yoe / 100 := Int.tdiv_eq_ediv_of_nonneg years.1
  simp only [same, q4, q5]
  simp (disch := omega) only [↓i64_bind]
  obtain ⟨day, ofYear, near⟩ : ∃ day : ℤ, doe - (365 * yoe + yoe / 4 - yoe / 100) = day ∧
      (-2 ^ 20 ≤ day ∧ day ≤ 2 ^ 20) := ⟨_, rfl, by omega⟩
  have months := @tdiv_bounds (2 ^ 24) (5 * day + 2) 153 (by omega) (by omega)
  simp only [ofYear]
  generalize (5 * day + 2).tdiv 153 = monthPrime at *
  have before := @tdiv_bounds (2 ^ 32) (153 * monthPrime + 2) 5 (by omega) (by omega)
  simp (disch := omega) only [↓i64_bind]
  have turned : ∀ month : ℤ, 0 ≤ (if month ≤ 2 then 1 else 0 : ℤ) ∧ (if month ≤ 2 then 1 else 0 : ℤ) ≤ 1 := by
    intro month
    split <;> decide
  have next := turned (monthPrime + if monthPrime < 10 then 3 else -9)
  exact ⟨i64_eq (by omega) (by omega), by omega, by omega⟩

section Rules

/-- What is absent ends a computation as a failure without a text. -/
def absent {α : Type} (found : Option α) : Except Unit α := found.elim (.error ()) .ok

def daysInMonth (year : ℤ) (month : ℕ) : Option ℕ :=
  if 1 ≤ month ∧ month ≤ 12 then some (WorkModel.daysInMonth year month) else none

def lastOfMonth (year : ℤ) (month weekday : ℕ) : Trapping Unit ℕ := do
  let last ← absent (daysInMonth year month)
  let lastDay ← daysFromCivil year month last
  let lastDay ← i64 (lastDay + 4)
  let ahead ← u8 ((lastDay % 7).toNat + 7)
  let ahead ← minus ahead weekday
  minus last (ahead % 7)

def dayOfMonth (firstWeekday week weekday : ℕ) : Option ℕ := do
  let ahead ← u8 (weekday + 7)
  let ahead ← minus ahead firstWeekday
  let day ← u8 (1 + ahead % 7)
  let weeks ← minus week 1
  let days ← u8 (weeks * 7)
  u8 (day + days)

def PosixTransitionDay.dayOf (year : ℤ) : PosixTransitionDay → Trapping Unit ℤ
  | .julianNoLeap day => do
    let newYear ← daysFromCivil year 1 1
    let within ← i64 (day - 1)
    let within ← i64 (within + if isLeapYear year ∧ 60 ≤ day then 1 else 0)
    absent (checked (newYear + within))
  | .julian day => do
    let newYear ← daysFromCivil year 1 1
    absent (checked (newYear + day))
  | .monthWeekday month week weekday => do
    let firstDay ← daysFromCivil year month 1
    let firstDay ← i64 (firstDay + 4)
    let monthDay ← if week = 5 then lastOfMonth year month weekday
      else liftM (dayOfMonth (firstDay % 7).toNat week weekday)
    daysFromCivil year month monthDay

def PosixTransitionRule.atUtc (rule : PosixTransitionRule) (year offsetBefore : ℤ) : Trapping Unit ℤ := do
  let day ← PosixTransitionDay.dayOf year rule.day
  let midnight ← absent (checked (day * 86400))
  let localTime ← absent (checked (midnight + rule.transitionSeconds))
  absent (checked (localTime - offsetBefore))

def saturated (value : ℤ) : ℤ := max (-2 ^ 63) (min value (2 ^ 63 - 1))

def yearsAround (year : ℤ) : List ℤ :=
  (List.range (saturated (year + 2) + 1 - saturated (year - 2)).toNat).map fun k : ℕ =>
    saturated (year - 2) + k

def PosixTimeZone.changes (rule : PosixTimeZone) (daylight : PosixDaylight) (year : ℤ) :
    Option (List (ℤ × ℤ)) := do
  let changes ← (yearsAround year).mapM fun candidate => do
    let start ← (PosixTransitionRule.atUtc daylight.start candidate rule.standardOffset).run
    let stop ← (PosixTransitionRule.atUtc daylight.stop candidate daylight.offset).run
    return (start.toOption.map fun at_ => (at_, daylight.offset)).toList ++
      (stop.toOption.map fun at_ => (at_, rule.standardOffset)).toList
  return changes.flatten

def PosixTimeZone.offsetAt (sort : List (ℤ × ℤ) → List (ℤ × ℤ)) (rule : PosixTimeZone) (instant : ℤ) :
    Option ℤ :=
  match rule.daylight with
  | none => some rule.standardOffset
  | some daylight =>
    if daylight.offset < rule.standardOffset then some daylight.offset
    else do
      let year ← civilYear (instant / 86400)
      let changes ← PosixTimeZone.changes rule daylight year
      return (latestOffset (sort changes) instant).getD rule.standardOffset

variable {year : ℤ} {month week weekday : ℕ} {day : PosixTransitionDay} {rule : PosixTransitionRule}
  {zone : PosixTimeZone} {daylight : PosixDaylight}

/-- Years of instants in 64 bits, with room to spare. -/
def Near (year : ℤ) : Prop := -2 ^ 40 ≤ year ∧ year ≤ 2 ^ 40

theorem daysInMonth_bounds (year : ℤ) (inYear : 1 ≤ month ∧ month ≤ 12) :
    28 ≤ WorkModel.daysInMonth year month ∧ WorkModel.daysInMonth year month ≤ 31 := by
  refine ⟨?_, WorkModel.daysInMonth_le year month⟩
  obtain ⟨first, last⟩ := inYear
  interval_cases month <;> rw [WorkModel.daysInMonth] <;> first | omega | split <;> omega

theorem u8_eq {value : ℕ} (small : value < 256) : u8 value = some value := unsigned_of_lt small

theorem lastOfMonth_settles (near : Near year) (inYear : 1 ≤ month ∧ month ≤ 12) (inWeek : weekday ≤ 6) :
    Settles (lastOfMonth year month weekday) (.ok (WorkModel.daysInMonth year month -
      (((WorkModel.daysFromCivil year month (WorkModel.daysInMonth year month) + 4) % 7).toNat + 7 -
        weekday) % 7)) := by
  have length := daysInMonth_bounds year inYear
  obtain ⟨day, low, high⟩ := daysFromCivil_settled near (show month ≤ 255 by omega)
    (show WorkModel.daysInMonth year month ≤ 255 by omega)
  rw [lastOfMonth, daysInMonth, if_pos inYear]
  refine .passes day (.passes (i64_eq (by omega) (by omega)) (.passes (u8_eq (by omega)) ?_))
  refine .passes (minus_of_le (by omega)) ?_
  exact .operation (minus_of_le (by omega))

theorem dayOfMonth_eq {firstWeekday : ℕ} (first : firstWeekday ≤ 6) (inMonth : 1 ≤ week ∧ week ≤ 5)
    (inWeek : weekday ≤ 6) : dayOfMonth firstWeekday week weekday =
      some (1 + (weekday + 7 - firstWeekday) % 7 + (week - 1) * 7) := by
  simp only [dayOfMonth, u8_eq (show weekday + 7 < 256 by omega), Option.bind_eq_bind, Option.bind_some,
    minus_of_le (show firstWeekday ≤ weekday + 7 by omega), minus_of_le inMonth.1,
    u8_eq (show 1 + (weekday + 7 - firstWeekday) % 7 < 256 by omega),
    u8_eq (show (week - 1) * 7 < 256 by omega),
    u8_eq (show 1 + (weekday + 7 - firstWeekday) % 7 + (week - 1) * 7 < 256 by omega)]

theorem PosixTransitionDay.dayOf_settles (near : Near year) (sound : day.Sound) :
    Settles (PosixTransitionDay.dayOf year day) (absent (day.dayOf year)) := by
  have newYear := daysFromCivil_settled near (show 1 ≤ 255 by decide) (show 1 ≤ 255 by decide)
  cases day with
  | julianNoLeap day =>
    obtain ⟨first, last⟩ := sound
    exact .passes newYear.1 (.passes (i64_eq (by omega) (by omega))
      (.passes (i64_eq (by split <;> omega) (by split <;> omega)) rfl))
  | julian day => exact .passes newYear.1 rfl
  | monthWeekday month week weekday =>
    obtain ⟨inYear, inMonth, inWeek⟩ := sound
    obtain ⟨firstDay, low, high⟩ := daysFromCivil_settled near (show month ≤ 255 by omega)
      (show 1 ≤ 255 by decide)
    have length := daysInMonth_bounds year inYear
    refine .passes firstDay (.passes (i64_eq (by omega) (by omega)) ?_)
    change Settles _ (absent (some _))
    by_cases last : week = 5
    · rw [if_pos last, if_pos last]
      refine (lastOfMonth_settles near inYear inWeek).known ?_
      exact .operation (daysFromCivil_settled near (by omega) (by omega)).1
    · rw [if_neg last, if_neg last]
      refine (Settles.operation (dayOfMonth_eq (by omega) inMonth inWeek)).known ?_
      exact .operation (daysFromCivil_settled near (by omega) (by omega)).1

theorem absent_bind {α β : Type} (found : Option α) (f : α → Option β) :
    absent (found >>= f) = absent found >>= fun a => absent (f a) := by
  cases found <;> rfl

theorem PosixTransitionRule.atUtc_settles (near : Near year) (sound : rule.Sound) (offsetBefore : ℤ) :
    Settles (PosixTransitionRule.atUtc rule year offsetBefore) (absent (rule.atUtc year offsetBefore)) := by
  rw [PosixTransitionRule.atUtc, TimeZones.PosixTransitionRule.atUtc]
  simp only [absent_bind]
  refine (PosixTransitionDay.dayOf_settles near sound.day).bind fun day _ => ?_
  exact .step fun midnight _ => .step fun localTime _ => rfl

theorem yearsAround_near (near : -2 ^ 39 ≤ year ∧ year ≤ 2 ^ 39) :
    yearsAround year = [year - 2, year - 1, year, year + 1, year + 2] := by
  have low : saturated (year - 2) = year - 2 := by
    rw [saturated]
    omega
  have high : saturated (year + 2) = year + 2 := by
    rw [saturated]
    omega
  have five : (year + 2 + 1 - (year - 2)).toNat = 5 := by omega
  rw [yearsAround, low, high, five]
  simp only [List.range, List.range.loop, List.map_cons, List.map_nil, List.cons.injEq, and_true]
  omega

theorem toOption_absent {α : Type} (found : Option α) : (absent found).toOption = found := by
  cases found <;> rfl

theorem PosixTimeZone.changes_settled (near : -2 ^ 39 ≤ year ∧ year ≤ 2 ^ 39) (sound : zone.Sound daylight) :
    PosixTimeZone.changes zone daylight year = some (zone.changes daylight year) := by
  have each (candidate : ℤ) (around : Near candidate) :
      (do
        let start ← (PosixTransitionRule.atUtc daylight.start candidate zone.standardOffset).run
        let stop ← (PosixTransitionRule.atUtc daylight.stop candidate daylight.offset).run
        return (start.toOption.map fun at_ => (at_, daylight.offset)).toList ++
          (stop.toOption.map fun at_ => (at_, zone.standardOffset)).toList : Option (List (ℤ × ℤ))) =
      some (((daylight.start.atUtc candidate zone.standardOffset).map fun at_ =>
          (at_, daylight.offset)).toList ++
        ((daylight.stop.atUtc candidate daylight.offset).map fun at_ =>
          (at_, zone.standardOffset)).toList) := by
    have start : (PosixTransitionRule.atUtc daylight.start candidate zone.standardOffset).run = some _ :=
      PosixTransitionRule.atUtc_settles around sound.start zone.standardOffset
    have stop : (PosixTransitionRule.atUtc daylight.stop candidate daylight.offset).run = some _ :=
      PosixTransitionRule.atUtc_settles around sound.stop daylight.offset
    rw [start, stop]
    simp only [Option.bind_eq_bind, Option.bind_some, toOption_absent]
    rfl
  rw [PosixTimeZone.changes, yearsAround_near near, TimeZones.PosixTimeZone.changes]
  simp only [List.mapM_cons, List.mapM_nil]
  rw [each (year - 2) (by rw [Near]; omega), each (year - 1) (by rw [Near]; omega),
    each year (by rw [Near]; omega), each (year + 1) (by rw [Near]; omega),
    each (year + 2) (by rw [Near]; omega)]
  rfl

theorem PosixTimeZone.offsetAt_settled {sort : List (ℤ × ℤ) → List (ℤ × ℤ)} {instant : ℤ}
    (fits : -2 ^ 63 ≤ instant ∧ instant < 2 ^ 63)
    (sound : ∀ daylight, zone.daylight = some daylight → zone.Sound daylight) :
    PosixTimeZone.offsetAt sort zone instant = some (zone.offsetAt sort instant) := by
  rw [PosixTimeZone.offsetAt, TimeZones.PosixTimeZone.offsetAt]
  cases ruled : zone.daylight with
  | none => rfl
  | some daylight =>
    dsimp only
    split
    · rfl
    · obtain ⟨year, near⟩ := @civilYear_settled (instant / 86400) (by omega)
      rw [year]
      simp only [Option.bind_eq_bind, Option.bind_some, PosixTimeZone.changes_settled near (sound _ ruled)]
      rfl

end Rules

end Boreal.TimeZones.Machine
