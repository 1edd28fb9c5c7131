/- Adding days to a date: the sums keep 64 bits and the year 32, so a far result lands on another date
unless the landing day does not exist there. -/
import BorealWork.CivilCalendar

namespace Boreal.WorkModel
open Calendar

/-- A sum of the release build keeps its low 64 bits. -/
def wrap (n : ℤ) : ℤ := n.bmod (2 ^ 64)

/-- The conversion with its sums in 64 bits; behind the division into eras none leaves them. -/
def wrappingCivilFromDays (days : ℤ) : LocalDate :=
  let z := wrap (days + 719468)
  let era := (if 0 ≤ z then z else wrap (z - 146096)).tdiv 146097
  civilOfEra era (wrap (z - wrap (era * 146097)))

def LocalDate.wrappingAddDays (date : LocalDate) (days : ℤ) : Except ModelError LocalDate := do
  date.validate
  let result := wrappingCivilFromDays (wrap (daysFromCivil date.year date.month date.day + days))
  result.validate
  return result

/-- The day of the eras that a sum lands on. -/
def landing (n : ℤ) : ℤ :=
  if wrap (n + 719468) < -2 ^ 63 + 146096 then wrap (n + 719468) + 2 ^ 64 else wrap (n + 719468)

/-- In the lowest era of 64 bits the second sum wraps too, and the conversion is one day late there
except on the last day of an era. -/
def slip (n : ℤ) : ℤ :=
  if wrap (n + 719468) < -2 ^ 63 + 146096 ∧ landing n % 146097 ≠ 146096 then 1 else 0

/-- The day that a sum lands on is behind the last of February in its year cut to 32 bits. -/
def Lost (n : ℤ) : Prop :=
  336 + (daysInMonth ((yearOf (landing n) + 1).bmod (2 ^ 32)) 2 : ℤ) <
    landing n - yearStart (yearOf (landing n)) + slip n

instance (n : ℤ) : Decidable (Lost n) := inferInstanceAs (Decidable (_ < _))

section Tail

variable {era doe : ℤ}

theorem civilOfEra_onCalendar (nonneg : 0 ≤ doe) (years : 0 ≤ yearOfDay doe)
    (inYear : 0 ≤ dayOfEra doe ∧ dayOfEra doe ≤ 366) : (civilOfEra era doe).OnCalendar ↔
      dayOfEra doe ≤ 336 + daysInMonth ((yearOfDay doe + era * 400 + 1).bmod (2 ^ 32)) 2 := by
  rw [civilOfEra_eq nonneg years inYear]
  obtain ⟨begun, ended⟩ := monthOfDay_eq_iff.mp (rfl : monthOfDay (dayOfEra doe) = _)
  have least := daysInMonth_pos ((yearOfDay doe + era * 400 + 1).bmod (2 ^ 32))
    (show 1 ≤ 2 ∧ 2 ≤ 12 by decide)
  have months : 0 ≤ monthOfDay (dayOfEra doe) ∧ monthOfDay (dayOfEra doe) ≤ 11 := by
    rw [monthOfDay]
    omega
  obtain ⟨first, last⟩ := months
  generalize monthOfDay (dayOfEra doe) = month at begun ended first last ⊢
  by_cases february : month = 11
  · subst february
    have start : monthStart 11 = 337 := rfl
    rw [if_neg (by decide), if_neg (by decide)]
    constructor
    · rintro ⟨-, -, inside⟩
      change (dayOfEra doe - monthStart 11 + 1).toNat ≤
        daysInMonth ((yearOfDay doe + era * 400 + 1).bmod (2 ^ 32)) 2 at inside
      omega
    · intro inside
      refine ⟨(show 1 ≤ 2 ∧ 2 ≤ 12 by decide), ?_, ?_⟩
      · change 1 ≤ (dayOfEra doe - monthStart 11 + 1).toNat
        omega
      · change (dayOfEra doe - monthStart 11 + 1).toNat ≤
          daysInMonth ((yearOfDay doe + era * 400 + 1).bmod (2 ^ 32)) 2
        omega
  · have early : monthStart (month + 1) ≤ 337 := by
      simp only [monthStart]
      omega
    refine iff_of_true ?_ (by omega)
    generalize (yearOfDay doe + era * 400 + if month < 10 then 0 else 1).bmod (2 ^ 32) = year
    have inYear' : 1 ≤ (month + if month < 10 then 3 else -9).toNat ∧
        (month + if month < 10 then 3 else -9).toNat ≤ 12 := by
      split <;> omega
    have march : LocalDate.marchMonth ⟨year, (month + if month < 10 then 3 else -9).toNat,
        (dayOfEra doe - monthStart month + 1).toNat⟩ = month := by
      simp only [LocalDate.marchMonth]
      split <;> split <;> omega
    have length := @daysInMonth_eq ⟨year, (month + if month < 10 then 3 else -9).toNat,
      (dayOfEra doe - monthStart month + 1).toNat⟩ inYear'
    rw [march, if_neg february] at length
    refine ⟨inYear', ?_, ?_⟩
    · change 1 ≤ (dayOfEra doe - monthStart month + 1).toNat
      omega
    · change (dayOfEra doe - monthStart month + 1).toNat ≤
        daysInMonth year (month + if month < 10 then 3 else -9).toNat
      change (daysInMonth year (month + if month < 10 then 3 else -9).toNat : ℤ) = _ at length
      omega

end Tail

section Sums

variable {n : ℤ}

theorem wrap_bounds (n : ℤ) : -2 ^ 63 ≤ wrap n ∧ wrap n < 2 ^ 63 :=
  ⟨Int.le_bmod (by decide), Int.bmod_lt (by decide)⟩

theorem wrap_of_fits (fits : -2 ^ 63 ≤ n ∧ n < 2 ^ 63) : wrap n = n :=
  Int.bmod_eq_of_le (by omega) (by omega)

theorem wrap_below (fits : -2 ^ 63 ≤ n + 2 ^ 64 ∧ n + 2 ^ 64 < 2 ^ 63) : wrap n = n + 2 ^ 64 := by
  rw [wrap, ← Int.add_bmod_right]
  exact wrap_of_fits fits

theorem wrap_add (n m : ℤ) : wrap (wrap n + m) = wrap (n + m) := Int.bmod_add_bmod

theorem landing_wrap : landing (wrap n) = landing n := by rw [landing, landing, wrap_add]

theorem slip_wrap : slip (wrap n) = slip n := by rw [slip, slip, landing_wrap, wrap_add]

theorem lost_wrap : Lost (wrap n) ↔ Lost n := by rw [Lost, Lost, landing_wrap, slip_wrap]

theorem wrappingCivilFromDays_fits (fits : -2 ^ 63 + 146096 ≤ n + 719468 ∧ n + 719468 < 2 ^ 63) :
    wrappingCivilFromDays n = civilFromDays n := by
  have floor := shifted_tdiv (n + 719468) 146097 (by decide)
  have shifted : (if 0 ≤ n + 719468 then n + 719468 else wrap (n + 719468 - 146096)) =
      if 0 ≤ n + 719468 then n + 719468 else n + 719468 - (146097 - 1) := by
    rw [wrap_of_fits (by omega)]
    rfl
  rw [civilFromDays_era]
  simp only [wrappingCivilFromDays, wrap_of_fits (show -2 ^ 63 ≤ n + 719468 ∧ n + 719468 < 2 ^ 63 by omega)]
  rw [shifted, floor]
  have era : wrap ((n + 719468) / 146097 * 146097) = (n + 719468) / 146097 * 146097 :=
    wrap_of_fits (by omega)
  have rest : n + 719468 - (n + 719468) / 146097 * 146097 = (n + 719468) % 146097 := by omega
  rw [era, rest, wrap_of_fits (by omega)]

theorem wrappingCivilFromDays_low (low : wrap (n + 719468) < -2 ^ 63 + 146096) :
    wrappingCivilFromDays n = civilOfEra ((landing n - 146096) / 146097)
      (landing n - (landing n - 146096) / 146097 * 146097) := by
  have bounds := wrap_bounds (n + 719468)
  have lands : landing n = wrap (n + 719468) + 2 ^ 64 := if_pos low
  have second : wrap (wrap (n + 719468) - 146096) = landing n - 146096 := by
    rw [wrap_below (by omega), lands]
    omega
  have quotient : (landing n - 146096).tdiv 146097 = (landing n - 146096) / 146097 :=
    Int.tdiv_eq_ediv_of_nonneg (by omega)
  have product : wrap ((landing n - 146096) / 146097 * 146097) = (landing n - 146096) / 146097 * 146097 :=
    wrap_of_fits (by omega)
  have rest : wrap (wrap (n + 719468) - (landing n - 146096) / 146097 * 146097) =
      landing n - (landing n - 146096) / 146097 * 146097 := by
    rw [wrap_below (by omega), lands]
    omega
  simp only [wrappingCivilFromDays]
  rw [if_neg (by omega), second, quotient, product, rest]

theorem wrappingCivilFromDays_spec (n : ℤ) : ∃ era doe, wrappingCivilFromDays n = civilOfEra era doe ∧
    0 ≤ doe ∧ 0 ≤ yearOfDay doe ∧ yearOfDay doe + era * 400 = yearOf (landing n) ∧
    dayOfEra doe = landing n - yearStart (yearOf (landing n)) + slip n ∧
    0 ≤ dayOfEra doe ∧ dayOfEra doe ≤ 366 := by
  have least := Int.emod_nonneg (landing n) (show (146097 : ℤ) ≠ 0 by decide)
  have most := Int.emod_lt_of_pos (landing n) (show (0 : ℤ) < 146097 by decide)
  obtain ⟨⟨first, last⟩, -, -⟩ := yearOfDay_spec least most
  obtain ⟨begun, ended⟩ := yearOf_eq_iff.mp (rfl : yearOf (landing n) = _)
  have grows : yearStart (yearOf (landing n) + 1) ≤ yearStart (yearOf (landing n)) + 366 := by
    rw [yearStart_succ]
    split <;> omega
  have early : yearOfDay (landing n % 146097) / 400 = 0 := by omega
  have ofYear : yearStart (yearOf (landing n)) = landing n / 146097 * 146097 +
      (365 * yearOfDay (landing n % 146097) + yearOfDay (landing n % 146097) / 4 -
        yearOfDay (landing n % 146097) / 100) := by
    rw [yearOf, yearStart_era, yearStart, early, add_zero]
  have ordinary : dayOfEra (landing n % 146097) = landing n - yearStart (yearOf (landing n)) := by
    rw [dayOfEra]
    omega
  have bounds := wrap_bounds (n + 719468)
  by_cases low : wrap (n + 719468) < -2 ^ 63 + 146096
  · have converted := wrappingCivilFromDays_low low
    by_cases closes : landing n % 146097 = 146096
    · have onTime : slip n = 0 := if_neg fun both => both.2 closes
      have era : (landing n - 146096) / 146097 = landing n / 146097 := by omega
      have rest : landing n - landing n / 146097 * 146097 = landing n % 146097 := by omega
      rw [era, rest] at converted
      refine ⟨_, _, converted, least, first, add_comm _ _, ?_, ?_, ?_⟩ <;> omega
    · have late : slip n = 1 := if_pos ⟨low, closes⟩
      have era : (landing n - 146096) / 146097 = landing n / 146097 - 1 := by omega
      have rest : landing n - (landing n / 146097 - 1) * 146097 = landing n % 146097 + 146097 := by omega
      have next := yearOfDay_next_era least (by omega)
      have behind : dayOfEra (landing n % 146097 + 146097) =
          landing n - yearStart (yearOf (landing n)) + 1 := by
        have quarter : (yearOfDay (landing n % 146097) + 400) / 4 =
            yearOfDay (landing n % 146097) / 4 + 100 := by omega
        have hundred : (yearOfDay (landing n % 146097) + 400) / 100 =
            yearOfDay (landing n % 146097) / 100 + 4 := by omega
        rw [dayOfEra, next, quarter, hundred, ← ordinary, dayOfEra]
        ring
      rw [era, rest] at converted
      refine ⟨_, _, converted, by omega, by omega, ?_, ?_, ?_, ?_⟩
      · rw [next, yearOf]
        omega
      · rw [behind, late]
      · omega
      · omega
  · have lands : landing n = wrap (n + 719468) := if_neg low
    have onTime : slip n = 0 := if_neg fun both => low both.1
    have shifted : wrap (n + 719468) = (wrap (n + 719468) - 719468) + 719468 := by omega
    have unwrapped : wrappingCivilFromDays n = wrappingCivilFromDays (landing n - 719468) := by
      simp only [wrappingCivilFromDays]
      rw [sub_add_cancel, lands, wrap_of_fits bounds]
    have converted : wrappingCivilFromDays n =
        civilOfEra (landing n / 146097) (landing n % 146097) := by
      rw [unwrapped, wrappingCivilFromDays_fits (by omega), civilFromDays_era, sub_add_cancel]
    refine ⟨_, _, converted, least, first, add_comm _ _, ?_, ?_, ?_⟩ <;> omega

theorem wrappingCivilFromDays_onCalendar (n : ℤ) : (wrappingCivilFromDays n).OnCalendar ↔ ¬ Lost n := by
  obtain ⟨era, doe, converted, nonneg, years, year, day, inYear⟩ := wrappingCivilFromDays_spec n
  rw [converted, civilOfEra_onCalendar nonneg years inYear, year, Lost, ← day, not_lt]

theorem wrappingCivilFromDays_inYears (n : ℤ) : (wrappingCivilFromDays n).InYears :=
  ⟨Int.le_bmod (by decide), Int.bmod_lt (by decide)⟩

theorem Supported.within (supported : Supported n) : -2 ^ 62 ≤ n ∧ n < 2 ^ 62 := by
  have first : daysFromCivil (-2 ^ 31) 1 1 = -784353015833 := rfl
  have last : daysFromCivil (2 ^ 31 - 1) 12 31 = 784351576776 := rfl
  obtain ⟨least, most⟩ := supported
  omega

end Sums

section Shifts

variable {date : LocalDate} {days : ℤ}

theorem wrappingAddDays_eq_ok {result : LocalDate} : date.wrappingAddDays days = .ok result ↔
    date.OnCalendar ∧ result.OnCalendar ∧
      wrappingCivilFromDays (wrap (date.dayNumber + days)) = result := by
  rw [LocalDate.wrappingAddDays, Drain.check_eq_ok, LocalDate.validate_eq_ok, Drain.check_eq_ok,
    LocalDate.validate_eq_ok, ← LocalDate.dayNumber]
  constructor
  · rintro ⟨onCalendar, landed, done⟩
    cases done
    exact ⟨onCalendar, landed, rfl⟩
  · rintro ⟨onCalendar, landed, rfl⟩
    exact ⟨onCalendar, landed, rfl⟩

/-- Every date that a sum gives has the number of the sum exactly when that number is supported or the
sum lands on a lost day. -/
theorem wrappingAddDays_exact_iff (valid : date.validate = .ok ()) :
    (∀ result, date.wrappingAddDays days = .ok result →
      daysFromCivil result.year result.month result.day =
        daysFromCivil date.year date.month date.day + days) ↔
      Supported (daysFromCivil date.year date.month date.day + days) ∨
        Lost (daysFromCivil date.year date.month date.day + days) := by
  change (∀ result, date.wrappingAddDays days = .ok result →
    result.dayNumber = date.dayNumber + days) ↔
      Supported (date.dayNumber + days) ∨ Lost (date.dayNumber + days)
  rw [LocalDate.validate_eq_ok] at valid
  constructor
  · intro exact'
    by_contra neither
    obtain ⟨unsupported, kept⟩ := not_or.mp neither
    have landed := (wrappingCivilFromDays_onCalendar _).mpr (mt lost_wrap.mp kept)
    have number := exact' _ (wrappingAddDays_eq_ok.mpr ⟨valid, landed, rfl⟩)
    exact unsupported (number ▸ dayNumber_supported (wrappingCivilFromDays_inYears _) landed)
  · rintro (supported | lost) result added
    · obtain ⟨-, -, rfl⟩ := wrappingAddDays_eq_ok.mp added
      obtain ⟨least, most⟩ := supported.within
      rw [wrap_of_fits (by omega), wrappingCivilFromDays_fits (by omega), civilFromDays_supported supported]
      exact (civilDate_spec _).2
    · obtain ⟨-, landed, rfl⟩ := wrappingAddDays_eq_ok.mp added
      exact absurd (lost_wrap.mpr lost) ((wrappingCivilFromDays_onCalendar _).mp landed)

theorem wrappingAddDays_exact_iff_leap :
    ((∀ result, LocalDate.wrappingAddDays ⟨2028, 2, 28⟩ 1 = .ok result →
      daysFromCivil result.year result.month result.day = daysFromCivil 2028 2 28 + 1) ↔
        Supported (daysFromCivil 2028 2 28 + 1) ∨ Lost (daysFromCivil 2028 2 28 + 1)) ∧
    LocalDate.wrappingAddDays ⟨2028, 2, 28⟩ 1 = .ok ⟨2028, 2, 29⟩ :=
  ⟨@wrappingAddDays_exact_iff ⟨2028, 2, 28⟩ 1 rfl, rfl⟩

theorem wrappedYear_returned :
    ¬ ∀ (date : LocalDate) (days : ℤ), date.InYears → date.validate = .ok () →
      -2 ^ 63 ≤ days ∧ days < 2 ^ 63 → ∀ result, date.wrappingAddDays days = .ok result →
        daysFromCivil result.year result.month result.day =
          daysFromCivil date.year date.month date.day + days := by
  intro holds
  have same : LocalDate.wrappingAddDays ⟨1970, 1, 1⟩ 1568704592610 = .ok ⟨1970, 1, 1⟩ := rfl
  have moved := holds ⟨1970, 1, 1⟩ 1568704592610 ⟨by decide, by decide⟩ rfl ⟨by decide, by decide⟩ _ same
  exact absurd moved (by decide)

end Shifts

end Boreal.WorkModel
