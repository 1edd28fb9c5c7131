/- The rule of a footer: its days in the calendar, and the offset of an instant as that of the latest
yearly change, which is always among those of the two years before and after. -/
import BorealWork.CivilCalendar
import BorealWork.TimeZoneReaders
import BorealWork.Library.Outcomes

namespace Boreal.TimeZones
open Calendar Drain Outcomes
open Source (utf8)
open WorkModel (LocalDate civilDate civilDate_spec civilDate_dayNumber daysFromCivil daysInMonth
  dayNumber_eq isLeapYear)

/-- What the footer's syntax allows of a day. -/
def PosixTransitionDay.Sound : PosixTransitionDay → Prop
  | .julianNoLeap day => 1 ≤ day ∧ day ≤ 365
  | .julian day => day ≤ 365
  | .monthWeekday month week weekday => (1 ≤ month ∧ month ≤ 12) ∧ (1 ≤ week ∧ week ≤ 5) ∧ weekday ≤ 6

structure PosixTransitionRule.Sound (rule : PosixTransitionRule) : Prop where
  day : rule.day.Sound
  time : -604799 ≤ rule.transitionSeconds ∧ rule.transitionSeconds ≤ 604799

structure PosixTimeZone.Sound (zone : PosixTimeZone) (daylight : PosixDaylight) : Prop where
  standard : -86400 ≤ zone.standardOffset ∧ zone.standardOffset ≤ 86400
  offset : -86400 ≤ daylight.offset ∧ daylight.offset ≤ 86400
  start : daylight.start.Sound
  stop : daylight.stop.Sound

theorem ensures_refuseFooter (c : Prop) [Decidable c] (message : String) :
    Ensures (refuseFooter c message) fun _ => ¬ c := by
  intro s u s' done
  obtain ⟨passed, allowed, -⟩ := map_eq_ok.mp done
  exact refuse_eq_ok.mp allowed

theorem ensures_clockValue (extended transition : Bool) :
    Ensures (clockValue extended transition) fun value => -604799 ≤ value ∧ value ≤ 604799 := by
  have signed : Ensures (do
      if (← peek) = some '+'.toUInt8 then
        advance
        return (1, true)
      else if (← peek) = some '-'.toUInt8 then
        advance
        return (-1, true)
      else return (1, false) : PosixParser (ℤ × Bool)) fun sign => sign.1 = 1 ∨ sign.1 = -1 := by
    refine .last fun _ => .ite (fun _ => .last fun _ => .pure (.inl rfl)) fun _ => ?_
    exact .last fun _ => .ite (fun _ => .last fun _ => .pure (.inr rfl)) fun _ => .pure (.inl rfl)
  refine signed.bind fun sign unit => .last fun hours => ?_
  refine (ensures_refuseFooter _ _).bind fun _ hour => .last fun minutes => .last fun seconds => ?_
  refine (ensures_refuseFooter _ _).bind fun _ inside => .pure ?_
  have hour : hours ≤ 167 := by
    split_ifs at hour <;> omega
  rcases unit with positive | negative
  · rw [positive]
    omega
  · rw [negative]
    omega

theorem ensures_transitionDay : Ensures transitionDay PosixTransitionDay.Sound := by
  refine .last fun first => ?_
  cases first with
  | none => exact nofun
  | some byte =>
    refine .ite (fun _ => .last fun _ => .last fun day => ?_) fun _ => .ite (fun _ => ?_) fun _ => ?_
    · exact (ensures_refuseFooter _ _).bind fun _ inside => .pure (not_not.mp inside)
    · refine .last fun _ => .last fun month => .last fun _ => .last fun week => .last fun _ => ?_
      refine .last fun weekday => (ensures_refuseFooter _ _).bind fun _ inside => .pure ?_
      rw [not_or, not_or, not_not, not_not, not_lt] at inside
      exact inside
    · refine .ite (fun _ => .last fun day => ?_) fun _ => nofun
      exact (ensures_refuseFooter _ _).bind fun _ inside => .pure (not_lt.mp inside)

theorem ensures_transitionRule (extended : Bool) :
    Ensures (transitionRule extended) PosixTransitionRule.Sound := by
  refine ensures_transitionDay.bind fun day sound => .last fun _ => .ite (fun _ => ?_) fun _ => ?_
  · refine .last fun _ => (ensures_clockValue extended true).bind fun seconds time => ?_
    exact .pure ⟨sound, time⟩
  · have usual : (-604799 : ℤ) ≤ 7200 ∧ (7200 : ℤ) ≤ 604799 := by decide
    exact .pure ⟨sound, usual⟩

theorem ensures_posixTimeZone (extended : Bool) : Ensures (posixTimeZone extended)
    fun zone => ∀ daylight, zone.daylight = some daylight → zone.Sound daylight := by
  refine .last fun _ => .last fun west => .last fun rest => .ite (fun _ => .pure nofun) fun _ => ?_
  refine .last fun _ => .last fun _ => .last fun offset => ?_
  refine (ensures_refuseFooter _ _).bind fun _ inside => .last fun _ => ?_
  refine (ensures_transitionRule extended).bind fun start soundStart => .last fun _ => ?_
  refine (ensures_transitionRule extended).bind fun stop soundStop => .last fun rest => .last fun _ => ?_
  refine .pure fun daylight same => ?_
  cases same
  rw [not_or, not_not, not_not] at inside
  exact ⟨inside.1, inside.2, soundStart, soundStop⟩

theorem PosixTimeZone.sound {value : List UInt8} {extended : Bool} {zone : PosixTimeZone}
    (parsed : PosixTimeZone.parse value extended = .ok zone) {daylight : PosixDaylight}
    (ruled : zone.daylight = some daylight) : zone.Sound daylight := by
  obtain ⟨-, done⟩ := check_eq_ok.mp parsed
  obtain ⟨⟨accepted, rest⟩, run, made⟩ := bind_eq_ok.mp done
  cases made
  exact ensures_posixTimeZone extended value accepted rest run daylight ruled

def newYear (year : ℤ) : ℤ := LocalDate.dayNumber ⟨year, 1, 1⟩

theorem newYear_eq (year : ℤ) : newYear year = yearStart (year - 1) - 719162 := by
  have before : LocalDate.marchYear ⟨year, 1, 1⟩ = year - 1 := rfl
  have month : LocalDate.marchMonth ⟨year, 1, 1⟩ = 10 := rfl
  have start : monthStart 10 = 306 := rfl
  rw [newYear, dayNumber_eq ⟨le_rfl, Nat.le_of_ble_eq_true rfl⟩, before, month, start]
  change yearStart (year - 1) + 306 + 1 - 719469 = _
  omega

theorem newYear_succ (year : ℤ) :
    newYear (year + 1) = newYear year + if isLeapYear year then 366 else 365 := by
  have next := yearStart_succ (year - 1)
  rw [sub_add_cancel] at next
  rw [newYear_eq, newYear_eq, add_sub_cancel_right, next]
  by_cases leap : isLeapYear year = true
  · rw [if_pos leap, if_pos ((WorkModel.leap_iff year).mp leap)]
    omega
  · rw [if_neg leap, if_neg fun other => leap ((WorkModel.leap_iff year).mpr other)]
    omega

theorem newYear_sub {year year' : ℤ} (le : year ≤ year') :
    365 * (year' - year) ≤ newYear year' - newYear year ∧
      newYear year' - newYear year ≤ 366 * (year' - year) := by
  induction year', le using Int.leInduction with
  | base => omega
  | succ year' le ih =>
    have next := newYear_succ year'
    split_ifs at next <;> omega

theorem newYear_le_iff {year n : ℤ} : newYear year ≤ n ↔ year ≤ (civilDate n).year := by
  obtain ⟨onCalendar, number⟩ := civilDate_spec n
  have first : LocalDate.OnCalendar ⟨year, 1, 1⟩ :=
    ⟨⟨le_rfl, Nat.le_of_ble_eq_true rfl⟩, le_rfl, Nat.le_of_ble_eq_true rfl⟩
  have positive := onCalendar.month.1
  have positive' := onCalendar.day.1
  have order := WorkModel.dayNumber_le_iff first onCalendar
  rw [number] at order
  rw [newYear, order, ← not_lt, LocalDate.lt_iff]
  dsimp only
  omega

theorem year_eq_iff {year n : ℤ} : (civilDate n).year = year ↔ newYear year ≤ n ∧ n < newYear (year + 1) := by
  rw [← not_le, newYear_le_iff, newYear_le_iff]
  omega

theorem civilYear_eq (n : ℤ) : civilYear n = (civilDate n).year := by
  have least := Int.emod_nonneg (n + 719468) (show (146097 : ℤ) ≠ 0 by decide)
  have most := Int.emod_lt_of_pos (n + 719468) (show (0 : ℤ) < 146097 by decide)
  obtain ⟨⟨first, last⟩, -, -⟩ := yearOfDay_spec least most
  have floor : (if 0 ≤ n + 719468 then n + 719468 else n + 719468 - 146096).tdiv 146097 =
      (n + 719468) / 146097 := WorkModel.shifted_tdiv (n + 719468) 146097 (by decide)
  have rest : n + 719468 - (n + 719468) / 146097 * 146097 = (n + 719468) % 146097 := by omega
  have early : yearOfDay ((n + 719468) % 146097) / 400 = 0 := by omega
  have day : WorkModel.dayOfEra ((n + 719468) % 146097) = WorkModel.yearDay n := by
    rw [WorkModel.dayOfEra, WorkModel.yearDay, yearOf, yearStart_era, yearStart, early]
    omega
  obtain ⟨low, -, high⟩ := WorkModel.yearDay_bounds n
  have date : (civilDate n).year =
      (n + 719468) / 146097 * 400 + yearOfDay ((n + 719468) % 146097) +
        if monthOfDay (WorkModel.yearDay n) < 10 then 0 else 1 := rfl
  have months : 0 ≤ monthOfDay (WorkModel.yearDay n) ∧ monthOfDay (WorkModel.yearDay n) ≤ 11 :=
    WorkModel.monthOfDay_bounds n
  simp only [civilYear, floor, rest, date]
  generalize (n + 719468) % 146097 = doe at *
  have year : (doe - doe.tdiv 1460 + doe.tdiv 36524 - doe.tdiv 146096).tdiv 365 = yearOfDay doe := by
    rw [Int.tdiv_eq_ediv_of_nonneg least, Int.tdiv_eq_ediv_of_nonneg least,
      Int.tdiv_eq_ediv_of_nonneg least, Int.tdiv_eq_ediv_of_nonneg (by omega)]
    rfl
  have ofYear : doe - (365 * yearOfDay doe + (yearOfDay doe).tdiv 4 - (yearOfDay doe).tdiv 100) =
      WorkModel.yearDay n := by
    rw [Int.tdiv_eq_ediv_of_nonneg first, Int.tdiv_eq_ediv_of_nonneg first, ← day]
    rfl
  have month : (5 * WorkModel.yearDay n + 2).tdiv 153 = monthOfDay (WorkModel.yearDay n) :=
    Int.tdiv_eq_ediv_of_nonneg (by omega)
  rw [year, ofYear, month]
  by_cases spring : monthOfDay (WorkModel.yearDay n) < 10
  · rw [if_pos spring, if_pos spring, if_neg (by omega)]
    omega
  · rw [if_neg spring, if_neg spring, if_pos (by omega)]
    omega

section Days

/-- The day of a month is in its first seven days, in the seven after them, and so on; the fifth week is
the last seven days. -/
def InWeek (week length day : ℕ) : Prop :=
  if week = 5 then length < day + 7 else (week - 1) * 7 < day ∧ day ≤ week * 7

/-- The day that a rule means in a year: that of the same month and day as in the common year 1970; that
so many days after the new year; or one of the weekdays of a month, of which the fifth is the last. -/
def PosixTransitionDay.Falls (year n : ℤ) : PosixTransitionDay → Prop
  | .julianNoLeap day => civilDate n = ⟨year, (civilDate (day - 1)).month, (civilDate (day - 1)).day⟩
  | .julian day => n = newYear year + day
  | .monthWeekday month week weekday =>
    (civilDate n).year = year ∧ (civilDate n).month = month ∧ (n + 4) % 7 = weekday ∧
      InWeek week (daysInMonth year month) (civilDate n).day

variable {year n : ℤ} {day : PosixTransitionDay}

theorem dayNumber_newYear {date : LocalDate} (month : 1 ≤ date.month ∧ date.month ≤ 12) :
    date.dayNumber = newYear date.year + date.day - 1 +
      if date.month ≤ 2 then monthStart (date.month + 9) - 306
      else monthStart (date.month - 3) + if isLeapYear date.year then 60 else 59 := by
  have next := newYear_succ date.year
  rw [newYear_eq, newYear_eq, add_sub_cancel_right] at next
  rw [dayNumber_eq month, newYear_eq]
  by_cases winter : date.month ≤ 2
  · have year : date.marchYear = date.year - 1 := if_pos winter
    have ofMonth : date.marchMonth = date.month + 9 := by rw [LocalDate.marchMonth, if_neg (by omega)]
    rw [if_pos winter, year, ofMonth]
    omega
  · have year : date.marchYear = date.year := if_neg winter
    have ofMonth : date.marchMonth = date.month - 3 := by
      rw [LocalDate.marchMonth, if_pos (by omega)]
      rfl
    rw [if_neg winter, year, ofMonth]
    split_ifs at next ⊢ <;> omega

theorem daysInMonth_common (year : ℤ) (month : ℕ) : daysInMonth 1970 month ≤ daysInMonth year month := by
  have common : isLeapYear 1970 = false := by decide
  unfold daysInMonth
  rw [common]
  split <;> simp only [Bool.false_eq_true, if_false, le_refl]
  split <;> omega

theorem falls_julianNoLeap {count : ℕ} (sound : 1 ≤ count ∧ count ≤ 365) :
    (PosixTransitionDay.julianNoLeap count).Falls year n ↔
      n = newYear year + (count - 1 + if isLeapYear year ∧ 60 ≤ count then 1 else 0) := by
  obtain ⟨onCalendar, number⟩ := civilDate_spec (count - 1)
  have common : (civilDate (count - 1)).year = 1970 := by
    have start : newYear 1970 = 0 := by decide
    have stop : newYear (1970 + 1) = 365 := by decide
    rw [year_eq_iff, start, stop]
    omega
  have own := dayNumber_newYear onCalendar.month
  have start : newYear 1970 = 0 := by decide
  have usual : isLeapYear 1970 = false := by decide
  rw [number, common, start, usual] at own
  rw [PosixTransitionDay.Falls]
  generalize civilDate (count - 1) = date at *
  have positive := onCalendar.month.1
  have first := onCalendar.day.1
  have last := onCalendar.day.2
  rw [common] at last
  have moved : LocalDate.OnCalendar ⟨year, date.month, date.day⟩ :=
    ⟨onCalendar.month, first, last.trans (daysInMonth_common year date.month)⟩
  have there : LocalDate.dayNumber ⟨year, date.month, date.day⟩ =
      newYear year + (count - 1 + if isLeapYear year ∧ 60 ≤ count then 1 else 0) := by
    rw [dayNumber_newYear moved.month]
    dsimp only
    by_cases winter : date.month ≤ 2
    · have short : date.day + 3 * date.month ≤ 34 := by
        obtain january | february : date.month = 1 ∨ date.month = 2 := by omega
        · rw [january] at last ⊢
          exact Nat.add_le_add_right last 3
        · rw [february] at last ⊢
          exact Nat.add_le_add_right last 6
      rw [if_pos winter] at own ⊢
      rw [monthStart] at own ⊢
      rw [if_neg (by omega)]
      omega
    · rw [if_neg winter, if_neg Bool.false_ne_true] at own
      rw [if_neg winter]
      rw [monthStart] at own ⊢
      have behind : 60 ≤ count := by omega
      simp only [behind, and_true]
      split_ifs <;> omega
  constructor
  · intro falls
    rw [← there, ← falls]
    exact (civilDate_spec n).2.symm
  · rintro rfl
    rw [← there]
    exact civilDate_dayNumber moved

theorem daysFromCivil_day (year : ℤ) (month day : ℕ) :
    daysFromCivil year month day = daysFromCivil year month 1 + day - 1 := by
  simp only [daysFromCivil]
  push_cast
  ring

section Weeks

variable {first : ℤ} {length week weekday count count' : ℕ}

theorem InWeek.unique (inWeek : InWeek week length count) (inWeek' : InWeek week length count')
    (most : count ≤ length ∧ count' ≤ length)
    (same : (first + count - 1 + 4) % 7 = (first + count' - 1 + 4) % 7) : count = count' := by
  rw [InWeek] at inWeek inWeek'
  split_ifs at inWeek inWeek' <;> omega

theorem lastWeek_found (long : 28 ≤ length) (weekdays : weekday ≤ 6)
    (found : count = length - (((first + length - 1 + 4) % 7).toNat + 7 - weekday) % 7) :
    (1 ≤ count ∧ count ≤ length) ∧ (first + count - 1 + 4) % 7 = weekday ∧ InWeek 5 length count := by
  rw [InWeek, if_pos rfl]
  omega

theorem week_found (long : 28 ≤ length) (weeks : 1 ≤ week ∧ week ≤ 4) (weekdays : weekday ≤ 6)
    (found : count = 1 + (weekday + 7 - ((first + 4) % 7).toNat) % 7 + (week - 1) * 7) :
    (1 ≤ count ∧ count ≤ length) ∧ (first + count - 1 + 4) % 7 = weekday ∧ InWeek week length count := by
  rw [InWeek, if_neg (by omega)]
  omega

end Weeks

theorem daysInMonth_long (year : ℤ) {month : ℕ} (inYear : 1 ≤ month ∧ month ≤ 12) :
    28 ≤ daysInMonth year month := by
  refine le_trans ?_ (daysInMonth_common year month)
  obtain ⟨first, last⟩ := inYear
  interval_cases month <;> decide

theorem exists_monthDay (year : ℤ) {month week weekday : ℕ} (inYear : 1 ≤ month ∧ month ≤ 12)
    (weeks : 1 ≤ week ∧ week ≤ 5) (weekdays : weekday ≤ 6) :
    ∃ count : ℕ, (PosixTransitionDay.monthWeekday month week weekday).dayOf year =
        some (daysFromCivil year month 1 + count - 1) ∧
      (1 ≤ count ∧ count ≤ daysInMonth year month) ∧
      (daysFromCivil year month 1 + count - 1 + 4) % 7 = weekday ∧
      InWeek week (daysInMonth year month) count := by
  have long := daysInMonth_long year inYear
  simp only [PosixTransitionDay.dayOf]
  rw [daysFromCivil_day year month (daysInMonth year month)]
  by_cases final : week = 5
  · subst final
    rw [if_pos rfl, daysFromCivil_day]
    exact ⟨_, rfl, lastWeek_found long weekdays rfl⟩
  · rw [if_neg final, daysFromCivil_day]
    exact ⟨_, rfl, week_found long ⟨weeks.1, by omega⟩ weekdays rfl⟩

theorem falls_monthWeekday {month week weekday : ℕ} (inYear : 1 ≤ month ∧ month ≤ 12)
    (weeks : 1 ≤ week ∧ week ≤ 5) (weekdays : weekday ≤ 6) :
    (PosixTransitionDay.monthWeekday month week weekday).dayOf year = some n ↔
      (PosixTransitionDay.monthWeekday month week weekday).Falls year n := by
  obtain ⟨count, found, within, weekdayOf, inWeek⟩ := exists_monthDay year inYear weeks weekdays
  have moved : LocalDate.OnCalendar ⟨year, month, count⟩ := ⟨inYear, within⟩
  rw [found, Option.some.injEq, PosixTransitionDay.Falls]
  constructor
  · rintro rfl
    have date : civilDate (daysFromCivil year month 1 + count - 1) = ⟨year, month, count⟩ := by
      rw [← daysFromCivil_day, ← civilDate_dayNumber moved]
      rfl
    rw [date]
    exact ⟨rfl, rfl, weekdayOf, inWeek⟩
  · rintro ⟨sameYear, sameMonth, weekdayOf', inWeek'⟩
    obtain ⟨onCalendar, number⟩ := civilDate_spec n
    have most := onCalendar.day.2
    rw [sameYear, sameMonth] at most
    rw [LocalDate.dayNumber, sameYear, sameMonth, daysFromCivil_day] at number
    rw [← number] at weekdayOf'
    rw [inWeek.unique inWeek' ⟨within.2, most⟩ (weekdayOf.trans weekdayOf'.symm), number]

theorem PosixTransitionDay.Falls.within (sound : day.Sound) (falls : day.Falls year n) :
    newYear year ≤ n ∧ n ≤ newYear (year + 1) := by
  cases day with
  | julianNoLeap count =>
    have inside := year_eq_iff.mp (congrArg LocalDate.year falls)
    exact ⟨inside.1, inside.2.le⟩
  | julian count =>
    have next := newYear_sub (le_add_of_nonneg_right zero_le_one : year ≤ year + 1)
    have short : count ≤ 365 := sound
    rw [falls]
    omega
  | monthWeekday month week weekday =>
    have inside := year_eq_iff.mp falls.1
    exact ⟨inside.1, inside.2.le⟩

/-- Years whose changes are far from the ends of the range. -/
def InRange (year : ℤ) : Prop :=
  -2 ^ 63 + 2 ^ 21 ≤ newYear year * 86400 ∧ newYear (year + 1) * 86400 < 2 ^ 63 - 2 ^ 21

theorem PosixTransitionDay.dayOf_eq_some (sound : day.Sound) (inRange : InRange year) :
    day.dayOf year = some n ↔ day.Falls year n := by
  obtain ⟨least, most⟩ := inRange
  have next := newYear_sub (le_add_of_nonneg_right zero_le_one : year ≤ year + 1)
  have fits {value : ℤ} (small : newYear year ≤ value ∧ value ≤ newYear year + 366) :
      checked value = some value := if_pos ⟨by omega, by omega⟩
  cases day with
  | julianNoLeap count =>
    obtain ⟨first, last⟩ := sound
    rw [falls_julianNoLeap ⟨first, last⟩, PosixTransitionDay.dayOf]
    change checked (newYear year + _) = some n ↔ _
    rw [fits (by split_ifs <;> omega), Option.some.injEq, eq_comm]
  | julian count =>
    have short : count ≤ 365 := sound
    rw [PosixTransitionDay.dayOf, PosixTransitionDay.Falls]
    change checked (newYear year + _) = some n ↔ _
    rw [fits (by omega), Option.some.injEq, eq_comm]
  | monthWeekday month week weekday => exact falls_monthWeekday sound.1 sound.2.1 sound.2.2

theorem PosixTransitionDay.exists_falls (sound : day.Sound) (year : ℤ) : ∃ n, day.Falls year n := by
  cases day with
  | julianNoLeap count => exact ⟨_, (falls_julianNoLeap sound).mpr rfl⟩
  | julian count => exact ⟨_, rfl⟩
  | monthWeekday month week weekday =>
    obtain ⟨count, found, -⟩ := exists_monthDay year sound.1 sound.2.1 sound.2.2
    exact ⟨_, (falls_monthWeekday sound.1 sound.2.1 sound.2.2).mp found⟩

def PosixTransitionRule.instantOn (rule : PosixTransitionRule) (n offsetBefore : ℤ) : ℤ :=
  n * 86400 + rule.transitionSeconds - offsetBefore

theorem PosixTransitionRule.atUtc_eq_some {rule : PosixTransitionRule} (sound : rule.Sound)
    (inRange : InRange year) {offsetBefore : ℤ} (near : -86400 ≤ offsetBefore ∧ offsetBefore ≤ 86400)
    {t : ℤ} : rule.atUtc year offsetBefore = some t ↔
      ∃ n, rule.day.Falls year n ∧ t = rule.instantOn n offsetBefore := by
  have each {n : ℤ} (falls : rule.day.Falls year n) :
      (do
        let midnight ← checked (n * 86400)
        let localTime ← checked (midnight + rule.transitionSeconds)
        checked (localTime - offsetBefore)) = some (rule.instantOn n offsetBefore) := by
    obtain ⟨first, last⟩ := falls.within sound.day
    obtain ⟨least, most⟩ := inRange
    obtain ⟨early, late⟩ := sound.time
    have fits {value : ℤ} (small : -2 ^ 63 ≤ value ∧ value < 2 ^ 63) : checked value = some value :=
      if_pos small
    simp only [Option.bind_eq_bind]
    rw [fits (by omega), Option.bind_some, fits (by omega), Option.bind_some, fits (by omega)]
    rfl
  rw [atUtc, Option.bind_eq_bind, Option.bind_eq_some_iff]
  constructor
  · rintro ⟨n, found, computed⟩
    have falls := (PosixTransitionDay.dayOf_eq_some sound.day inRange).mp found
    exact ⟨n, falls, Option.some.inj (computed.symm.trans (each falls))⟩
  · rintro ⟨n, falls, rfl⟩
    exact ⟨n, (PosixTransitionDay.dayOf_eq_some sound.day inRange).mpr falls, each falls⟩

end Days

section Changes

inductive PosixTimeZone.Change (zone : PosixTimeZone) (daylight : PosixDaylight) (year : ℤ) : ℤ → ℤ → Prop
  | start {n : ℤ} (falls : daylight.start.day.Falls year n) :
      Change zone daylight year (daylight.start.instantOn n zone.standardOffset) daylight.offset
  | stop {n : ℤ} (falls : daylight.stop.day.Falls year n) :
      Change zone daylight year (daylight.stop.instantOn n daylight.offset) zone.standardOffset

/-- Daylight time never begins when it ends. -/
def PosixTimeZone.Apart (zone : PosixTimeZone) (daylight : PosixDaylight) : Prop :=
  ∀ year year' n n', daylight.start.day.Falls year n → daylight.stop.day.Falls year' n' →
    daylight.start.instantOn n zone.standardOffset ≠ daylight.stop.instantOn n' daylight.offset

structure PosixTimeZone.Latest (zone : PosixTimeZone) (daylight : PosixDaylight) (instant t offset : ℤ) :
    Prop where
  change : ∃ year, zone.Change daylight year t offset
  come : t ≤ instant
  last : ∀ year t' offset', zone.Change daylight year t' offset' → t' ≤ instant → t' ≤ t

variable {zone : PosixTimeZone} {daylight : PosixDaylight} {year year' t t' offset offset' instant : ℤ}

theorem PosixTimeZone.Apart.offset_eq (apart : zone.Apart daylight)
    (change : zone.Change daylight year t offset) (change' : zone.Change daylight year' t offset') :
    offset = offset' := by
  generalize same : t = s at change'
  cases change with
  | start falls =>
    cases change' with
    | start falls' => rfl
    | stop falls' => exact absurd same (apart _ _ _ _ falls falls')
  | stop falls =>
    cases change' with
    | start falls' => exact absurd same.symm (apart _ _ _ _ falls' falls)
    | stop falls' => rfl

theorem PosixTimeZone.Change.within (sound : zone.Sound daylight)
    (change : zone.Change daylight year t offset) :
    newYear year * 86400 - 691199 ≤ t ∧ t ≤ newYear (year + 1) * 86400 + 691199 := by
  obtain ⟨standard, own, start, stop⟩ := sound
  cases change with
  | start falls =>
    have inside := falls.within start.day
    have time := start.time
    rw [PosixTransitionRule.instantOn]
    omega
  | stop falls =>
    have inside := falls.within stop.day
    have time := stop.time
    rw [PosixTransitionRule.instantOn]
    omega

theorem PosixTimeZone.Change.again (sound : zone.Sound daylight)
    (change : zone.Change daylight year t offset) (after : year < year') :
    ∃ t', zone.Change daylight year' t' offset ∧ t ≤ t' := by
  have between := newYear_sub (Int.add_one_le_of_lt after)
  cases change with
  | start falls =>
    obtain ⟨n', falls'⟩ := PosixTransitionDay.exists_falls sound.start.day year'
    have inside := falls.within sound.start.day
    have inside' := falls'.within sound.start.day
    refine ⟨_, .start falls', ?_⟩
    rw [PosixTransitionRule.instantOn, PosixTransitionRule.instantOn]
    omega
  | stop falls =>
    obtain ⟨n', falls'⟩ := PosixTransitionDay.exists_falls sound.stop.day year'
    have inside := falls.within sound.stop.day
    have inside' := falls'.within sound.stop.day
    refine ⟨_, .stop falls', ?_⟩
    rw [PosixTransitionRule.instantOn, PosixTransitionRule.instantOn]
    omega

theorem PosixTimeZone.mem_changes (sound : zone.Sound daylight)
    (inRange : ∀ candidate, year - 2 ≤ candidate ∧ candidate ≤ year + 2 → InRange candidate) :
    (t, offset) ∈ zone.changes daylight year ↔
      ∃ candidate, (year - 2 ≤ candidate ∧ candidate ≤ year + 2) ∧
        zone.Change daylight candidate t offset := by
  have listed (candidate : ℤ) : candidate ∈ [year - 2, year - 1, year, year + 1, year + 2] ↔
      year - 2 ≤ candidate ∧ candidate ≤ year + 2 := by
    simp only [List.mem_cons, List.not_mem_nil, or_false]
    omega
  rw [changes, List.mem_flatMap]
  refine exists_congr fun candidate => ?_
  rw [listed]
  refine and_congr_right fun inside => ?_
  have inRange := inRange candidate inside
  have starts (s : ℤ) := @PosixTransitionRule.atUtc_eq_some _ _ sound.start inRange _ sound.standard s
  have stops (s : ℤ) := @PosixTransitionRule.atUtc_eq_some _ _ sound.stop inRange _ sound.offset s
  simp only [List.mem_append, Option.mem_toList, Option.map_eq_some_iff, Prod.mk.injEq, starts, stops]
  constructor
  · rintro (⟨_, ⟨n, falls, rfl⟩, rfl, rfl⟩ | ⟨_, ⟨n, falls, rfl⟩, rfl, rfl⟩)
    · exact .start falls
    · exact .stop falls
  · intro change
    cases change with
    | start falls => exact .inl ⟨_, ⟨_, falls, rfl⟩, rfl, rfl⟩
    | stop falls => exact .inr ⟨_, ⟨_, falls, rfl⟩, rfl, rfl⟩

end Changes

section Evaluation

variable {sort : List (ℤ × ℤ) → List (ℤ × ℤ)} {zone : PosixTimeZone} {daylight : PosixDaylight}
  {t offset instant : ℤ}

structure SortsByTime (sort : List (ℤ × ℤ) → List (ℤ × ℤ)) : Prop where
  perm : ∀ l, (sort l).Perm l
  sorted : ∀ l, (sort l).Pairwise (·.1 ≤ ·.1)

theorem byTime_sorts : SortsByTime byTime where
  perm := List.perm_insertionSort _
  sorted := List.pairwise_insertionSort _

theorem latestOffset_eq {l : List (ℤ × ℤ)} (sorted : l.Pairwise (·.1 ≤ ·.1)) (member : (t, offset) ∈ l)
    (come : t ≤ instant) (last : ∀ change ∈ l, change.1 ≤ instant → change.1 ≤ t)
    (one : ∀ change ∈ l, change.1 = t → change.2 = offset) : latestOffset l instant = some offset := by
  cases found : l.reverse.find? (·.1 ≤ instant) with
  | none =>
    have never := List.find?_eq_none.mp found (t, offset) (List.mem_reverse.mpr member)
    exact absurd (decide_eq_true come) never
  | some change =>
    obtain ⟨here, later, earlier, split, ahead⟩ := List.find?_eq_some_iff_append.mp found
    have listed : change ∈ l := List.mem_reverse.mp (split ▸ List.mem_append_right _ List.mem_cons_self)
    have falling : (later ++ change :: earlier).Pairwise (·.1 ≥ ·.1) :=
      split ▸ List.pairwise_reverse.mpr sorted
    have least : t ≤ change.1 := by
      have placed : (t, offset) ∈ later ++ change :: earlier := split ▸ List.mem_reverse.mpr member
      rcases List.mem_append.mp placed with above | rest
      · exact absurd (decide_eq_true come) (by simpa using ahead _ above)
      · rcases List.mem_cons.mp rest with rfl | below
        · exact le_rfl
        · exact (List.pairwise_cons.mp (List.pairwise_append.mp falling).2.1).1 _ below
    have same := le_antisymm (last change listed (of_decide_eq_true here)) least
    rw [latestOffset, found, Option.map_some, one change listed same]

/-- Instants at least four years from the ends of the range. -/
def FarFromLimits (instant : ℤ) : Prop := -2 ^ 63 + 2 ^ 27 ≤ instant ∧ instant < 2 ^ 63 - 2 ^ 27

theorem civilYear_around (instant : ℤ) : newYear (civilYear (instant / 86400)) * 86400 ≤ instant ∧
    instant < newYear (civilYear (instant / 86400) + 1) * 86400 := by
  obtain ⟨begun, ended⟩ := year_eq_iff.mp (civilYear_eq (instant / 86400)).symm
  omega

theorem FarFromLimits.inRange (far : FarFromLimits instant) {candidate : ℤ}
    (near : civilYear (instant / 86400) - 2 ≤ candidate ∧ candidate ≤ civilYear (instant / 86400) + 2) :
    InRange candidate := by
  obtain ⟨begun, ended⟩ := civilYear_around instant
  generalize civilYear (instant / 86400) = year at *
  obtain ⟨least, most⟩ := far
  have first := newYear_sub near.1
  have span := newYear_sub (show year - 2 ≤ year + 1 by omega)
  have last := newYear_sub (show candidate + 1 ≤ year + 3 by omega)
  have span' := newYear_sub (show year ≤ year + 3 by omega)
  rw [InRange]
  omega

theorem PosixTimeZone.Latest.mem_changes (sound : zone.Sound daylight) (far : FarFromLimits instant)
    (latest : zone.Latest daylight instant t offset) :
    (t, offset) ∈ zone.changes daylight (civilYear (instant / 86400)) := by
  obtain ⟨⟨year, change⟩, come, last⟩ := latest
  obtain ⟨begun, ended⟩ := civilYear_around instant
  rw [PosixTimeZone.mem_changes sound fun candidate near => far.inRange near]
  generalize civilYear (instant / 86400) = center at *
  have within := change.within sound
  by_cases early : year < center - 2
  · -- The same change of a year of the window is no later, and has come too.
    obtain ⟨t', change', le⟩ := change.again sound early
    have within' := change'.within sound
    have span := newYear_sub (show center - 2 + 1 ≤ center by omega)
    obtain rfl := le_antisymm le (last _ _ _ change' (by omega))
    exact ⟨center - 2, by omega, change'⟩
  · by_cases late : center + 2 < year
    · have span := newYear_sub (show center + 1 ≤ year by omega)
      omega
    · exact ⟨year, by omega, change⟩

theorem PosixTimeZone.exists_latest (sound : zone.Sound daylight) (instant : ℤ) :
    ∃ t offset, zone.Latest daylight instant t offset := by
  obtain ⟨n, falls⟩ := PosixTransitionDay.exists_falls sound.start.day (civilYear (instant / 86400) - 2)
  have change : zone.Change daylight _ _ _ := .start falls
  have within := change.within sound
  have span := newYear_sub (show civilYear (instant / 86400) - 2 + 1 ≤ civilYear (instant / 86400) by omega)
  have begun := (civilYear_around instant).1
  obtain ⟨t, ⟨come, year, offset, own⟩, last⟩ := Int.exists_greatest_of_bdd
    (P := fun t => t ≤ instant ∧ ∃ year offset, zone.Change daylight year t offset)
    ⟨instant, fun t come => come.1⟩ ⟨_, by omega, _, _, change⟩
  exact ⟨t, offset, ⟨year, own⟩, come, fun year' t' offset' own' come' => last t' ⟨come', _, _, own'⟩⟩

theorem PosixTimeZone.offsetAt_latest (sorts : SortsByTime sort) (ruled : zone.daylight = some daylight)
    (sound : zone.Sound daylight) (apart : zone.Apart daylight)
    (ahead : zone.standardOffset ≤ daylight.offset) (far : FarFromLimits instant)
    (latest : zone.Latest daylight instant t offset) : zone.offsetAt sort instant = offset := by
  have listed {t offset : ℤ} : (t, offset) ∈ zone.changes daylight (civilYear (instant / 86400)) ↔ _ :=
    PosixTimeZone.mem_changes sound fun candidate near => far.inRange near
  have perm := sorts.perm (zone.changes daylight (civilYear (instant / 86400)))
  have decided := latestOffset_eq (sorts.sorted _) (perm.mem_iff.mpr (latest.mem_changes sound far))
    latest.come
    (fun change member come => by
      obtain ⟨year, -, own⟩ := listed.mp (perm.mem_iff.mp member)
      exact latest.last _ _ _ own come)
    (fun change member same => by
      obtain ⟨year, -, own⟩ := listed.mp (perm.mem_iff.mp member)
      obtain ⟨year', own'⟩ := latest.change
      exact apart.offset_eq (same ▸ own) own')
  rw [PosixTimeZone.offsetAt, ruled]
  dsimp only
  rw [if_neg ahead.not_gt, decided, Option.getD_some]

/-- An accepted rule gives every instant the offset of the latest yearly change, unless daylight time
is behind standard time, when it has no end; without daylight time it is standard time. -/
theorem PosixTimeZone.offsetAt_exact (sorts : SortsByTime sort) {value : List UInt8} {extended : Bool}
    (parsed : PosixTimeZone.parse value extended = .ok zone) (far : FarFromLimits instant) :
    (zone.daylight = none → zone.offsetAt sort instant = zone.standardOffset) ∧
    ∀ daylight, zone.daylight = some daylight → zone.Apart daylight →
      (daylight.offset < zone.standardOffset → zone.offsetAt sort instant = daylight.offset) ∧
      (zone.standardOffset ≤ daylight.offset →
        (∃ t offset, zone.Latest daylight instant t offset) ∧
        ∀ t offset, zone.Latest daylight instant t offset → zone.offsetAt sort instant = offset) := by
  constructor
  · intro plain
    rw [PosixTimeZone.offsetAt, plain]
  · intro daylight ruled apart
    have sound := PosixTimeZone.sound parsed ruled
    constructor
    · intro behind
      rw [PosixTimeZone.offsetAt, ruled]
      exact if_pos behind
    · intro ahead
      refine ⟨PosixTimeZone.exists_latest sound instant, fun t offset latest => ?_⟩
      exact PosixTimeZone.offsetAt_latest sorts ruled sound apart ahead far latest

def easternDaylight : PosixDaylight := ⟨-14400, ⟨.monthWeekday 3 2 0, 7200⟩, ⟨.monthWeekday 11 1 0, 7200⟩⟩

theorem eastern_apart : PosixTimeZone.Apart ⟨-18000, some easternDaylight⟩ easternDaylight := by
  intro year year' n n' _ _
  change n * 86400 + 7200 - -18000 ≠ n' * 86400 + 7200 - -14400
  omega

theorem offsetAt_exact_eastern :
    (∃ t offset, PosixTimeZone.Latest ⟨-18000, some easternDaylight⟩ easternDaylight 1720000000 t offset) ∧
      ∀ t offset, PosixTimeZone.Latest ⟨-18000, some easternDaylight⟩ easternDaylight 1720000000 t offset →
        PosixTimeZone.offsetAt byTime ⟨-18000, some easternDaylight⟩ 1720000000 = offset := by
  have parsed : PosixTimeZone.parse (utf8 "EST5EDT,M3.2.0,M11.1.0") false =
      .ok ⟨-18000, some easternDaylight⟩ := by
    decide +kernel
  exact ((PosixTimeZone.offsetAt_exact byTime_sorts parsed ⟨by decide, by decide⟩).2 _ rfl
    eastern_apart).2 (by decide)

/-- Winter time behind standard time, as in Dublin. -/
def dublinDaylight : PosixDaylight := ⟨0, ⟨.monthWeekday 10 5 0, 7200⟩, ⟨.monthWeekday 3 5 0, 3600⟩⟩

theorem dublinSummer_behind :
    PosixTimeZone.parse (utf8 "IST-1GMT0,M10.5.0,M3.5.0/1") false = .ok ⟨3600, some dublinDaylight⟩ ∧
      PosixTimeZone.Apart ⟨3600, some dublinDaylight⟩ dublinDaylight ∧
      PosixTimeZone.Latest ⟨3600, some dublinDaylight⟩ dublinDaylight 1719792000 1711846800 3600 ∧
      PosixTimeZone.offsetAt byTime ⟨3600, some dublinDaylight⟩ 1719792000 = 0 := by
  have spring : ∀ k < 92, (civilDate (19814 + (k : ℕ))).month ∉ [3, 10] := by decide
  have between {n : ℤ} (after : 19814 ≤ n) (before : n ≤ 19905) : (civilDate n).month ∉ [3, 10] := by
    have inside := spring (n - 19814).toNat (by omega)
    rwa [show (19814 : ℤ) + (n - 19814).toNat = n by omega] at inside
  refine ⟨by decide +kernel, ?_, ⟨⟨2024, ?_⟩, by decide, ?_⟩, by decide⟩
  · intro year year' n n' falls falls' same
    have equal : n * 86400 + 7200 - 3600 = n' * 86400 + 3600 - 0 := same
    obtain rfl : n = n' := by omega
    exact absurd (falls.2.1.symm.trans falls'.2.1) (by decide)
  · have falls : dublinDaylight.stop.day.Falls 2024 19813 := by
      refine ⟨by decide, by decide, by decide, ?_⟩
      rw [InWeek]
      decide
    exact .stop falls
  · intro year t offset change come
    cases change with
    | @start n falls =>
      change n * 86400 + 7200 - 3600 ≤ 1719792000 at come
      change n * 86400 + 7200 - 3600 ≤ 1711846800
      have month : (civilDate n).month = 10 := falls.2.1
      by_contra later
      have summer := between (show 19814 ≤ n by omega) (by omega)
      rw [month] at summer
      exact summer (by decide)
    | @stop n falls =>
      change n * 86400 + 3600 - 0 ≤ 1719792000 at come
      change n * 86400 + 3600 - 0 ≤ 1711846800
      have month : (civilDate n).month = 3 := falls.2.1
      by_contra later
      have summer := between (show 19814 ≤ n by omega) (by omega)
      rw [month] at summer
      exact summer (by decide)

end Evaluation

end Boreal.TimeZones
