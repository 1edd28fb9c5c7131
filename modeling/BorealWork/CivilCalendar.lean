/- Civil dates and day numbers: the integer conversions are inverse to each other, keep the order, and
take the next day of the calendar to the next number. -/
import BorealWork.BusinessTime
import BorealWork.Library.Calendar

namespace Boreal.WorkModel
open Calendar

attribute [ext] LocalDate

/-- The years that fit the 32 bits of the field. -/
def LocalDate.InYears (date : LocalDate) : Prop := -2 ^ 31 ≤ date.year ∧ date.year < 2 ^ 31

structure LocalDate.OnCalendar (date : LocalDate) : Prop where
  month : 1 ≤ date.month ∧ date.month ≤ 12
  day : 1 ≤ date.day ∧ date.day ≤ daysInMonth date.year date.month

variable {date : LocalDate}

theorem LocalDate.validate_eq_ok : date.validate = .ok () ↔ date.OnCalendar := by
  rw [LocalDate.validate, ite_eq_right_iff]
  constructor
  · intro passed
    have inside := not_imp_not.mpr passed nofun
    rw [not_or, not_not, not_or, not_lt] at inside
    exact ⟨inside.1, Nat.one_le_iff_ne_zero.mpr inside.2.1, inside.2.2⟩
  · rintro ⟨month, day⟩ outside
    omega

def LocalDate.next (date : LocalDate) : LocalDate :=
  if date.day < daysInMonth date.year date.month then ⟨date.year, date.month, date.day + 1⟩
  else if date.month < 12 then ⟨date.year, date.month + 1, 1⟩
  else ⟨date.year + 1, 1, 1⟩

def LocalDate.dayNumber (date : LocalDate) : ℤ := daysFromCivil date.year date.month date.day

/-- The day numbers whose year fits. -/
def Supported (n : ℤ) : Prop := daysFromCivil (-2 ^ 31) 1 1 ≤ n ∧ n ≤ daysFromCivil (2 ^ 31 - 1) 12 31

def LocalDate.marchYear (date : LocalDate) : ℤ := if date.month ≤ 2 then date.year - 1 else date.year

def LocalDate.marchMonth (date : LocalDate) : ℤ := date.month + (if 2 < date.month then -3 else 9)

theorem shifted_tdiv (n k : ℤ) (positive : 0 < k) : (if 0 ≤ n then n else n - (k - 1)).tdiv k = n / k := by
  split
  · rename_i nonneg
    exact Int.tdiv_eq_ediv_of_nonneg nonneg
  · rename_i negative
    have mirrored : n - (k - 1) = -(k - 1 - n) := by ring
    have division : (k - 1 - n) / k = -(n / k) := by
      have parts := Int.emod_add_mul_ediv n k
      have least := Int.emod_nonneg n positive.ne'
      have most := Int.emod_lt_of_pos n positive
      have sum : k - 1 - n = k - 1 - n % k + k * -(n / k) := by linarith
      rw [sum, Int.add_mul_ediv_left _ _ positive.ne', Int.ediv_eq_zero_of_lt (by omega) (by omega),
        zero_add]
    rw [mirrored, Int.neg_tdiv, Int.tdiv_eq_ediv_of_nonneg (by omega), division, neg_neg]

theorem dayNumber_eq (month : 1 ≤ date.month ∧ date.month ≤ 12) :
    date.dayNumber = yearStart date.marchYear + monthStart date.marchMonth + date.day - 719469 := by
  have era := shifted_tdiv date.marchYear 400 (by decide)
  have within : 0 ≤ date.marchYear - date.marchYear / 400 * 400 ∧
      date.marchYear - date.marchYear / 400 * 400 < 400 := by omega
  have ofYear : yearStart date.marchYear = date.marchYear / 400 * 146097 +
      yearStart (date.marchYear - date.marchYear / 400 * 400) := by
    rw [← yearStart_era]
    congr 1
    omega
  have months : 0 ≤ date.marchMonth := by
    rw [LocalDate.marchMonth]
    split <;> omega
  have early : (date.marchYear - date.marchYear / 400 * 400) / 400 = 0 := by omega
  rw [LocalDate.dayNumber, daysFromCivil, ofYear]
  change (if 0 ≤ date.marchYear then date.marchYear else date.marchYear - 399).tdiv 400 * 146097 +
    ((date.marchYear - (if 0 ≤ date.marchYear then date.marchYear else date.marchYear - 399).tdiv 400 * 400)
      * 365 + (date.marchYear -
        (if 0 ≤ date.marchYear then date.marchYear else date.marchYear - 399).tdiv 400 * 400).tdiv 4 -
      (date.marchYear -
        (if 0 ≤ date.marchYear then date.marchYear else date.marchYear - 399).tdiv 400 * 400).tdiv 100 +
      ((153 * date.marchMonth + 2).tdiv 5 + date.day - 1)) - 719468 = _
  rw [show (399 : ℤ) = 400 - 1 from rfl, era, Int.tdiv_eq_ediv_of_nonneg within.1,
    Int.tdiv_eq_ediv_of_nonneg within.1, Int.tdiv_eq_ediv_of_nonneg (by omega), yearStart, early, monthStart]
  ring

theorem leap_iff (year : ℤ) :
    isLeapYear year = true ↔ year % 4 = 0 ∧ (year % 100 ≠ 0 ∨ year % 400 = 0) := by
  simp [isLeapYear]

theorem daysInMonth_eq (month : 1 ≤ date.month ∧ date.month ≤ 12) :
    (daysInMonth date.year date.month : ℤ) =
      if date.marchMonth = 11 then yearStart (date.marchYear + 1) - yearStart date.marchYear - monthStart 11
      else monthStart (date.marchMonth + 1) - monthStart date.marchMonth := by
  obtain ⟨year, month, day⟩ := date
  obtain ⟨first, last⟩ := month
  change 1 ≤ month at first
  change month ≤ 12 at last
  by_cases february : month = 2
  · subst february
    change ((if isLeapYear year then 29 else 28 : ℕ) : ℤ) =
      yearStart (year - 1 + 1) - yearStart (year - 1) - monthStart 11
    rw [yearStart_succ, sub_add_cancel, monthStart]
    by_cases leap : isLeapYear year = true
    · rw [if_pos leap, if_pos ((leap_iff year).mp leap)]
      omega
    · rw [if_neg leap, if_neg fun other => leap ((leap_iff year).mpr other)]
      omega
  · have other : LocalDate.marchMonth ⟨year, month, day⟩ ≠ 11 := by
      simp only [LocalDate.marchMonth]
      split <;> omega
    rw [if_neg other]
    interval_cases month <;> simp [LocalDate.marchMonth, monthStart, daysInMonth] at february ⊢

theorem LocalDate.OnCalendar.within (onCalendar : date.OnCalendar) :
    (0 ≤ date.marchMonth ∧ date.marchMonth ≤ 11) ∧
      monthStart date.marchMonth ≤ monthStart date.marchMonth + date.day - 1 ∧
      monthStart date.marchMonth + date.day - 1 < monthStart (date.marchMonth + 1) ∧
      yearStart date.marchYear + (monthStart date.marchMonth + date.day - 1) <
        yearStart (date.marchYear + 1) := by
  obtain ⟨month, first, last⟩ := onCalendar
  have length := daysInMonth_eq month
  have last' : (date.day : ℤ) ≤ daysInMonth date.year date.month := by exact_mod_cast last
  have grows := yearStart_succ date.marchYear
  have months : 0 ≤ date.marchMonth ∧ date.marchMonth ≤ 11 := by
    rw [LocalDate.marchMonth]
    split <;> omega
  refine ⟨months, by omega, ?_⟩
  by_cases february : date.marchMonth = 11
  · rw [if_pos february] at length
    simp only [february, monthStart] at length ⊢
    split at grows
    · omega
    · omega
  · rw [if_neg february] at length
    refine ⟨by omega, ?_⟩
    have early : monthStart (date.marchMonth + 1) ≤ 337 := by
      simp only [monthStart]
      omega
    split at grows
    · omega
    · omega

section Tail

variable {era doe : ℤ}

/-- The conversion behind the division into eras. -/
def civilOfEra (era doe : ℤ) : LocalDate :=
  let yoe := (doe - doe.tdiv 1460 + doe.tdiv 36524 - doe.tdiv 146096).tdiv 365
  let doy := doe - (365 * yoe + yoe.tdiv 4 - yoe.tdiv 100)
  let mp := (5 * doy + 2).tdiv 153
  let day := doy - (153 * mp + 2).tdiv 5 + 1
  let month := mp + (if mp < 10 then 3 else -9)
  let year := yoe + era * 400 + (if month ≤ 2 then 1 else 0)
  ⟨year.bmod (2 ^ 32), (month % 2 ^ 8).toNat, (day % 2 ^ 8).toNat⟩

theorem civilFromDays_era (n : ℤ) :
    civilFromDays n = civilOfEra ((n + 719468) / 146097) ((n + 719468) % 146097) := by
  have floor := shifted_tdiv (n + 719468) 146097 (by decide)
  have rest : n + 719468 - (n + 719468) / 146097 * 146097 = (n + 719468) % 146097 := by omega
  rw [← rest, ← floor]
  rfl

def dayOfEra (doe : ℤ) : ℤ := doe - (365 * yearOfDay doe + yearOfDay doe / 4 - yearOfDay doe / 100)

theorem yearOfEra_eq (nonneg : 0 ≤ doe) :
    (doe - doe.tdiv 1460 + doe.tdiv 36524 - doe.tdiv 146096).tdiv 365 = yearOfDay doe := by
  rw [Int.tdiv_eq_ediv_of_nonneg nonneg, Int.tdiv_eq_ediv_of_nonneg nonneg,
    Int.tdiv_eq_ediv_of_nonneg nonneg, Int.tdiv_eq_ediv_of_nonneg (by omega)]
  rfl

theorem civilOfEra_eq (nonneg : 0 ≤ doe) (years : 0 ≤ yearOfDay doe)
    (inYear : 0 ≤ dayOfEra doe ∧ dayOfEra doe ≤ 366) : civilOfEra era doe =
      ⟨(yearOfDay doe + era * 400 + if monthOfDay (dayOfEra doe) < 10 then 0 else 1).bmod (2 ^ 32),
        (monthOfDay (dayOfEra doe) + if monthOfDay (dayOfEra doe) < 10 then 3 else -9).toNat,
        (dayOfEra doe - monthStart (monthOfDay (dayOfEra doe)) + 1).toNat⟩ := by
  have year := yearOfEra_eq nonneg
  have day : doe - (365 * yearOfDay doe + (yearOfDay doe).tdiv 4 - (yearOfDay doe).tdiv 100) =
      dayOfEra doe := by
    rw [Int.tdiv_eq_ediv_of_nonneg years, Int.tdiv_eq_ediv_of_nonneg years]
    rfl
  obtain ⟨begun, ended⟩ := monthOfDay_eq_iff.mp (rfl : monthOfDay (dayOfEra doe) = _)
  have months : 0 ≤ monthOfDay (dayOfEra doe) ∧ monthOfDay (dayOfEra doe) ≤ 11 := by
    rw [monthOfDay]
    omega
  have month : (5 * dayOfEra doe + 2).tdiv 153 = monthOfDay (dayOfEra doe) :=
    Int.tdiv_eq_ediv_of_nonneg (by omega)
  have start : (153 * monthOfDay (dayOfEra doe) + 2).tdiv 5 = monthStart (monthOfDay (dayOfEra doe)) :=
    Int.tdiv_eq_ediv_of_nonneg (by omega)
  simp only [civilOfEra, year, day, month, start]
  ext
  · by_cases spring : monthOfDay (dayOfEra doe) < 10
    · simp only [if_pos spring]
      rw [if_neg (by omega)]
    · simp only [if_neg spring]
      rw [if_pos (by omega)]
  · change ((monthOfDay (dayOfEra doe) + if monthOfDay (dayOfEra doe) < 10 then 3 else -9) % 2 ^ 8).toNat =
      (monthOfDay (dayOfEra doe) + if monthOfDay (dayOfEra doe) < 10 then 3 else -9).toNat
    split <;> omega
  · change ((dayOfEra doe - monthStart (monthOfDay (dayOfEra doe)) + 1) % 2 ^ 8).toNat =
      (dayOfEra doe - monthStart (monthOfDay (dayOfEra doe)) + 1).toNat
    have short : monthStart (monthOfDay (dayOfEra doe) + 1) ≤
        monthStart (monthOfDay (dayOfEra doe)) + 31 := by
      simp only [monthStart]
      omega
    omega

end Tail

section Conversion

def yearDay (n : ℤ) : ℤ := n + 719468 - yearStart (yearOf (n + 719468))

def civilDate (n : ℤ) : LocalDate where
  year := yearOf (n + 719468) + if monthOfDay (yearDay n) < 10 then 0 else 1
  month := (monthOfDay (yearDay n) + if monthOfDay (yearDay n) < 10 then 3 else -9).toNat
  day := (yearDay n - monthStart (monthOfDay (yearDay n)) + 1).toNat

variable (n : ℤ)

theorem yearDay_bounds : 0 ≤ yearDay n ∧
    yearDay n < yearStart (yearOf (n + 719468) + 1) - yearStart (yearOf (n + 719468)) ∧ yearDay n < 366 := by
  obtain ⟨begun, ended⟩ := yearOf_eq_iff.mp (rfl : yearOf (n + 719468) = _)
  have grows := yearStart_succ (yearOf (n + 719468))
  rw [yearDay]
  split at grows
  · omega
  · omega

theorem monthOfDay_bounds : 0 ≤ monthOfDay (yearDay n) ∧ monthOfDay (yearDay n) ≤ 11 := by
  obtain ⟨least, -, most⟩ := yearDay_bounds n
  rw [monthOfDay]
  omega

theorem civilDate_march : (civilDate n).marchYear = yearOf (n + 719468) ∧
    (civilDate n).marchMonth = monthOfDay (yearDay n) ∧
    monthStart (monthOfDay (yearDay n)) + (civilDate n).day - 1 = yearDay n ∧
    1 ≤ (civilDate n).month ∧ (civilDate n).month ≤ 12 ∧ 1 ≤ (civilDate n).day := by
  obtain ⟨least, most⟩ := monthOfDay_bounds n
  obtain ⟨begun, -⟩ := monthOfDay_eq_iff.mp (rfl : monthOfDay (yearDay n) = _)
  simp only [LocalDate.marchYear, LocalDate.marchMonth, civilDate]
  by_cases spring : monthOfDay (yearDay n) < 10
  · simp only [if_pos spring]
    refine ⟨?_, ?_, by omega, by omega, by omega, by omega⟩
    · rw [if_neg (by omega)]
      omega
    · rw [if_pos (by omega)]
      omega
  · simp only [if_neg spring]
    refine ⟨?_, ?_, by omega, by omega, by omega, by omega⟩
    · rw [if_pos (by omega)]
      omega
    · rw [if_neg (by omega)]
      omega

theorem civilDate_spec : (civilDate n).OnCalendar ∧ (civilDate n).dayNumber = n := by
  obtain ⟨year, month, day, first, last, positive⟩ := civilDate_march n
  obtain ⟨begun, ended⟩ := monthOfDay_eq_iff.mp (rfl : monthOfDay (yearDay n) = _)
  obtain ⟨-, short, -⟩ := yearDay_bounds n
  have length := daysInMonth_eq ⟨first, last⟩
  rw [year, month] at length
  refine ⟨⟨⟨first, last⟩, positive, ?_⟩, ?_⟩
  · suffices inside : ((civilDate n).day : ℤ) ≤ daysInMonth (civilDate n).year (civilDate n).month by
      exact_mod_cast inside
    rw [length]
    split
    · rename_i february
      rw [february] at day
      omega
    · omega
  · rw [dayNumber_eq ⟨first, last⟩, year, month]
    have parts : yearDay n = n + 719468 - yearStart (yearOf (n + 719468)) := rfl
    omega

theorem civilDate_dayNumber {date : LocalDate} (onCalendar : date.OnCalendar) :
    civilDate date.dayNumber = date := by
  obtain ⟨⟨least, most⟩, begun, ended, short⟩ := onCalendar.within
  have number := dayNumber_eq onCalendar.month
  have year : yearOf (date.dayNumber + 719468) = date.marchYear := by
    refine yearOf_eq_iff.mpr ⟨?_, by omega⟩
    have months : 0 ≤ monthStart date.marchMonth := by
      rw [monthStart]
      omega
    have := onCalendar.day
    omega
  have dayOfYear : yearDay date.dayNumber = monthStart date.marchMonth + date.day - 1 := by
    rw [yearDay, year]
    omega
  have month : monthOfDay (yearDay date.dayNumber) = date.marchMonth := by
    rw [dayOfYear]
    exact monthOfDay_eq_iff.mpr ⟨begun, ended⟩
  obtain ⟨⟨first, last⟩, positive, -⟩ := onCalendar
  have unfolded : civilDate date.dayNumber =
      ⟨date.marchYear + if date.marchMonth < 10 then 0 else 1,
        (date.marchMonth + if date.marchMonth < 10 then 3 else -9).toNat,
        (monthStart date.marchMonth + date.day - 1 - monthStart date.marchMonth + 1).toNat⟩ := by
    rw [civilDate, year, month, dayOfYear]
  have inMonth : (monthStart date.marchMonth + date.day - 1 - monthStart date.marchMonth + 1).toNat =
      date.day := by omega
  rw [unfolded, inMonth]
  by_cases winter : date.month ≤ 2
  · have ofYear : date.marchYear = date.year - 1 := if_pos winter
    have ofMonth : date.marchMonth = date.month + 9 := by rw [LocalDate.marchMonth, if_neg (by omega)]
    rw [ofYear, ofMonth, if_neg (by omega), if_neg (by omega)]
    ext
    · exact sub_add_cancel date.year 1
    · change ((date.month : ℤ) + 9 + -9).toNat = date.month
      omega
    · rfl
  · have ofYear : date.marchYear = date.year := if_neg winter
    have ofMonth : date.marchMonth = date.month + -3 := by rw [LocalDate.marchMonth, if_pos (by omega)]
    rw [ofYear, ofMonth, if_pos (by omega), if_pos (by omega)]
    ext
    · exact add_zero date.year
    · change ((date.month : ℤ) + -3 + 3).toNat = date.month
      omega
    · rfl

theorem civilFromDays_eq : civilFromDays n =
    ⟨(civilDate n).year.bmod (2 ^ 32), (civilDate n).month, (civilDate n).day⟩ := by
  have least := Int.emod_nonneg (n + 719468) (show (146097 : ℤ) ≠ 0 by decide)
  have most := Int.emod_lt_of_pos (n + 719468) (show (0 : ℤ) < 146097 by decide)
  obtain ⟨⟨first, last⟩, -, -⟩ := yearOfDay_spec least most
  have early : yearOfDay ((n + 719468) % 146097) / 400 = 0 := by omega
  have day : dayOfEra ((n + 719468) % 146097) = yearDay n := by
    rw [dayOfEra, yearDay, yearOf, yearStart_era, yearStart, early]
    omega
  obtain ⟨low, -, high⟩ := yearDay_bounds n
  rw [civilFromDays_era, civilOfEra_eq least first (by omega), day, add_comm (yearOfDay _)]
  rfl

end Conversion

section Order

variable {date date' : LocalDate}

theorem LocalDate.lt_iff : date < date' ↔ date.year < date'.year ∨
    date.year = date'.year ∧ (date.month < date'.month ∨ date.month = date'.month ∧ date.day < date'.day) := by
  change toLex (date.year, toLex (date.month, date.day)) <
    toLex (date'.year, toLex (date'.month, date'.day)) ↔ _
  rw [Prod.Lex.toLex_lt_toLex, Prod.Lex.toLex_lt_toLex]

theorem LocalDate.lt_next : date < date.next := by
  rw [LocalDate.lt_iff, LocalDate.next]
  split
  · exact .inr ⟨rfl, .inr ⟨rfl, Nat.lt_succ_self _⟩⟩
  · split
    · exact .inr ⟨rfl, .inl (Nat.lt_succ_self _)⟩
    · exact .inl (lt_add_one date.year)

theorem daysInMonth_pos {month : ℕ} (year : ℤ) (inYear : 1 ≤ month ∧ month ≤ 12) :
    1 ≤ daysInMonth year month := by
  obtain ⟨first, last⟩ := inYear
  interval_cases month <;> simp only [daysInMonth] <;> first | omega | (split <;> omega)

theorem daysInMonth_le (year : ℤ) (month : ℕ) : daysInMonth year month ≤ 31 := by
  rw [daysInMonth.eq_def]
  split <;> first | omega | (split <;> omega)

theorem LocalDate.OnCalendar.next (onCalendar : date.OnCalendar) : date.next.OnCalendar := by
  obtain ⟨⟨first, last⟩, positive, -⟩ := onCalendar
  rw [LocalDate.next]
  split
  · rename_i inside
    exact ⟨⟨first, last⟩, Nat.succ_pos _, inside⟩
  · split
    · rename_i earlier
      exact ⟨⟨Nat.succ_pos _, earlier⟩, le_rfl, daysInMonth_pos _ ⟨Nat.succ_pos _, earlier⟩⟩
    · exact ⟨⟨le_rfl, Nat.le_of_ble_eq_true rfl⟩, le_rfl, Nat.le_of_ble_eq_true rfl⟩

theorem LocalDate.OnCalendar.dayNumber_next (onCalendar : date.OnCalendar) :
    date.next.dayNumber = date.dayNumber + 1 := by
  have number := dayNumber_eq onCalendar.month
  have number' := dayNumber_eq onCalendar.next.month
  have length := daysInMonth_eq onCalendar.month
  obtain ⟨⟨first, last⟩, positive, most⟩ := onCalendar
  rw [number', number]
  by_cases inside : date.day < daysInMonth date.year date.month
  · have same : date.next = ⟨date.year, date.month, date.day + 1⟩ := if_pos inside
    rw [same]
    simp only [LocalDate.marchYear, LocalDate.marchMonth]
    omega
  · have full : date.day = daysInMonth date.year date.month := by omega
    rw [← full] at length
    by_cases earlier : date.month < 12
    · have behind : date.next = ⟨date.year, date.month + 1, 1⟩ := by
        rw [LocalDate.next, if_neg inside, if_pos earlier]
      rw [behind]
      by_cases february : date.month = 2
      · -- The March year ends with February.
        have closing : date.marchMonth = 11 := by rw [LocalDate.marchMonth, february]; rfl
        have before : date.marchYear = date.year - 1 := by rw [LocalDate.marchYear, if_pos (by omega)]
        rw [if_pos closing, before, sub_add_cancel] at length
        rw [closing, before]
        simp only [LocalDate.marchYear, LocalDate.marchMonth, february]
        have start : monthStart 0 = 0 := rfl
        norm_num
        omega
      · have inner : date.marchMonth ≠ 11 := by
          rw [LocalDate.marchMonth]
          split <;> omega
        rw [if_neg inner] at length
        have month : LocalDate.marchMonth ⟨date.year, date.month + 1, 1⟩ = date.marchMonth + 1 := by
          simp only [LocalDate.marchMonth]
          split <;> split <;> omega
        have year : LocalDate.marchYear ⟨date.year, date.month + 1, 1⟩ = date.marchYear := by
          simp only [LocalDate.marchYear]
          split <;> split <;> omega
        rw [month, year]
        push_cast
        omega
    · have december : date.month = 12 := by omega
      have behind : date.next = ⟨date.year + 1, 1, 1⟩ := by
        rw [LocalDate.next, if_neg inside, if_neg earlier]
      have month : date.marchMonth = 9 := by rw [LocalDate.marchMonth, december]; rfl
      have year : date.marchYear = date.year := by rw [LocalDate.marchYear, if_neg (by omega)]
      rw [month, if_neg (by decide)] at length
      rw [behind, month, year]
      change yearStart (date.year + 1 - 1) + monthStart 10 + 1 - 719469 = _
      rw [add_sub_cancel_right]
      change (date.day : ℤ) = monthStart 10 - monthStart 9 at length
      omega

theorem civilDate_succ (n : ℤ) : civilDate (n + 1) = (civilDate n).next := by
  obtain ⟨onCalendar, number⟩ := civilDate_spec n
  rw [← number, ← onCalendar.dayNumber_next, number]
  exact civilDate_dayNumber onCalendar.next

theorem civilDate_strictMono : StrictMono civilDate := by
  apply strictMono_int_of_lt_succ
  intro n
  rw [civilDate_succ]
  exact LocalDate.lt_next

theorem dayNumber_lt_iff (onCalendar : date.OnCalendar) (onCalendar' : date'.OnCalendar) :
    date.dayNumber < date'.dayNumber ↔ date < date' := by
  rw [← civilDate_strictMono.lt_iff_lt, civilDate_dayNumber onCalendar, civilDate_dayNumber onCalendar']

theorem dayNumber_le_iff (onCalendar : date.OnCalendar) (onCalendar' : date'.OnCalendar) :
    date.dayNumber ≤ date'.dayNumber ↔ date ≤ date' := by
  rw [← not_lt, dayNumber_lt_iff onCalendar' onCalendar, not_lt]

theorem supported_iff {n : ℤ} : Supported n ↔ (civilDate n).InYears := by
  obtain ⟨onCalendar, number⟩ := civilDate_spec n
  have first : LocalDate.OnCalendar ⟨-2 ^ 31, 1, 1⟩ := ⟨by decide, by decide⟩
  have last : LocalDate.OnCalendar ⟨2 ^ 31 - 1, 12, 31⟩ := ⟨by decide, by decide⟩
  have least := dayNumber_le_iff first onCalendar
  have most := dayNumber_le_iff onCalendar last
  rw [number] at least most
  change LocalDate.dayNumber ⟨-2 ^ 31, 1, 1⟩ ≤ n ∧ n ≤ LocalDate.dayNumber ⟨2 ^ 31 - 1, 12, 31⟩ ↔ _
  obtain ⟨⟨low, high⟩, positive, short⟩ := onCalendar
  have shortMonth : (civilDate n).month = 12 → (civilDate n).day ≤ 31 := by
    intro december
    rwa [december] at short
  rw [least, most, ← not_lt, ← not_lt, LocalDate.lt_iff, LocalDate.lt_iff, LocalDate.InYears]
  dsimp only
  omega

end Order

theorem civilFromDays_supported {n : ℤ} (supported : Supported n) : civilFromDays n = civilDate n := by
  obtain ⟨least, most⟩ := supported_iff.mp supported
  rw [civilFromDays_eq, Int.bmod_eq_of_le (by omega) (by omega)]

theorem dayNumber_supported (inYears : date.InYears) (onCalendar : date.OnCalendar) :
    Supported date.dayNumber := by
  rwa [supported_iff, civilDate_dayNumber onCalendar]

/-- Valid dates and supported day numbers correspond, in order and day by day. -/
theorem civil_days_bijective :
    (∀ date : LocalDate, date.InYears → date.validate = .ok () →
      civilFromDays (daysFromCivil date.year date.month date.day) = date) ∧
    (∀ n, Supported n → (civilFromDays n).InYears ∧ (civilFromDays n).validate = .ok () ∧
      daysFromCivil (civilFromDays n).year (civilFromDays n).month (civilFromDays n).day = n) ∧
    (∀ date date' : LocalDate, date.validate = .ok () → date'.validate = .ok () →
      (date < date' ↔ daysFromCivil date.year date.month date.day <
        daysFromCivil date'.year date'.month date'.day)) ∧
    ∀ n, Supported n → Supported (n + 1) → civilFromDays (n + 1) = (civilFromDays n).next := by
  refine ⟨?_, ?_, ?_, ?_⟩
  · intro date inYears valid
    have onCalendar := LocalDate.validate_eq_ok.mp valid
    exact (civilFromDays_supported (dayNumber_supported inYears onCalendar)).trans
      (civilDate_dayNumber onCalendar)
  · intro n supported
    obtain ⟨onCalendar, number⟩ := civilDate_spec n
    rw [civilFromDays_supported supported]
    exact ⟨supported_iff.mp supported, LocalDate.validate_eq_ok.mpr onCalendar, number⟩
  · intro date date' valid valid'
    exact (dayNumber_lt_iff (LocalDate.validate_eq_ok.mp valid) (LocalDate.validate_eq_ok.mp valid')).symm
  · intro n supported behind
    rw [civilFromDays_supported supported, civilFromDays_supported behind, civilDate_succ]

end Boreal.WorkModel
