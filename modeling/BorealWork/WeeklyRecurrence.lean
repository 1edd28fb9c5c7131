/- Weekly recurrences: the loop over weeks and weekdays gives the qualifying date-times in their order. -/
import BorealWork.DayArithmetic

namespace Boreal.WorkModel
open Drain

section Code

/-- The derived order compares the fields in declaration order. -/
def LocalTime.key (time : LocalTime) : ℕ ×ₗ ℕ ×ₗ ℕ :=
  toLex (time.hour, toLex (time.minute, time.second))

theorem LocalTime.key_injective : Function.Injective LocalTime.key := by
  intro ⟨h, m, s⟩ ⟨h', m', s'⟩ same
  simp only [key, EmbeddingLike.apply_eq_iff_eq, Prod.mk.injEq] at same
  obtain ⟨rfl, rfl, rfl⟩ := same
  rfl

instance : LinearOrder LocalTime := LinearOrder.lift' LocalTime.key LocalTime.key_injective

def LocalDateTime.key (nominal : LocalDateTime) : LocalDate ×ₗ LocalTime :=
  toLex (nominal.date, nominal.time)

theorem LocalDateTime.key_injective : Function.Injective LocalDateTime.key := by
  intro ⟨d, t⟩ ⟨d', t'⟩ same
  simp only [key, EmbeddingLike.apply_eq_iff_eq, Prod.mk.injEq] at same
  obtain ⟨rfl, rfl⟩ := same
  rfl

instance : LinearOrder LocalDateTime := LinearOrder.lift' LocalDateTime.key LocalDateTime.key_injective

/-- ISO weekday, Monday = 1 through Sunday = 7. -/
def LocalDate.weekday (date : LocalDate) : Except ModelError ℕ := do
  date.validate
  let epoch := daysFromCivil 1970 1 1
  return ((daysFromCivil date.year date.month date.day - epoch + 3) % 7).toNat + 1

def LocalDateTime.weekday (nominal : LocalDateTime) : Except ModelError ℕ := nominal.date.weekday

inductive RecurrenceError
  | model (error : ModelError)
  | invalidRecurrence (reason : String)
  | slotOutOfRange (slot : ℕ)
  | recurrenceOverflow
  deriving DecidableEq

inductive RecurrenceEnd
  | never
  | count (limit : ℕ)
  | untilLocalDate (date : LocalDate)
  deriving DecidableEq

/-- The set of weekdays is listed in ascending order. -/
structure WeeklyRecurrence where
  anchorLocalStart : LocalDateTime
  intervalWeeks : ℕ
  weekdays : List ℕ
  ascending : weekdays.Pairwise (· < ·)
  «end» : RecurrenceEnd

def RecurrenceEnd.validate : RecurrenceEnd → Except RecurrenceError Unit
  | .count 0 => .error (.invalidRecurrence "count must be positive")
  | .untilLocalDate date => date.validate.mapError .model
  | _ => .ok ()

def RecurrenceEnd.passed : RecurrenceEnd → LocalDate → Bool
  | .untilLocalDate last, date => last < date
  | _, _ => false

def RecurrenceEnd.exhausted : RecurrenceEnd → ℕ → Bool
  | .count limit, slotOrdinal => limit ≤ slotOrdinal
  | _, _ => false

namespace WeeklyRecurrence

def validate (rule : WeeklyRecurrence) : Except RecurrenceError Unit := do
  rule.anchorLocalStart.validate.mapError .model
  refuse (rule.intervalWeeks = 0) (.invalidRecurrence "interval_weeks must be positive")
  refuse (rule.weekdays = [] ∨ ∃ day ∈ rule.weekdays, ¬ (1 ≤ day ∧ day ≤ 7))
    (.invalidRecurrence "weekdays must contain ISO weekdays 1..=7")
  let weekday ← rule.anchorLocalStart.weekday.mapError .model
  refuse (weekday ∉ rule.weekdays) (.invalidRecurrence "anchor weekday must be configured")
  rule.end.validate

variable (rule : WeeklyRecurrence) (slotOrdinal : ℕ)

def emitWeek (base : LocalDate) : List ℕ → ℕ → Except RecurrenceError (LocalDateTime ⊕ ℕ)
  | [], emitted => .ok (.inr emitted)
  | weekday :: rest, emitted => do
    let date ← (base.wrappingAddDays ((weekday : ℤ) - 1)).mapError .model
    let candidate : LocalDateTime := ⟨date, rule.anchorLocalStart.time⟩
    if candidate < rule.anchorLocalStart then emitWeek base rest emitted
    else if rule.end.passed candidate.date then .error (.slotOutOfRange slotOrdinal)
    else if emitted = slotOrdinal then .ok (.inl candidate)
    else if 2 ^ 64 ≤ emitted + 1 then .error .recurrenceOverflow
    else emitWeek base rest (emitted + 1)

/-- The weeks one interval after another, up to the last one that the source visits. -/
def slotFrom (weekStart : LocalDate) : ℕ → ℕ → ℕ → Except RecurrenceError LocalDateTime
  | 0, _, _ => .error .recurrenceOverflow
  | fuel + 1, week, emitted => do
    let base ← (weekStart.wrappingAddDays ((week * 7 : ℕ) : ℤ)).mapError .model
    match ← emitWeek rule slotOrdinal base rule.weekdays emitted with
    | .inl slot => .ok slot
    | .inr emitted =>
      if 2 ^ 64 ≤ week + rule.intervalWeeks then .error .recurrenceOverflow
      else if 5000000 < week + rule.intervalWeeks then .error .recurrenceOverflow
      else slotFrom weekStart fuel (week + rule.intervalWeeks) emitted

def localSlot : Except RecurrenceError LocalDateTime := do
  rule.validate
  refuse (rule.end.exhausted slotOrdinal) (.slotOutOfRange slotOrdinal)
  let anchorWeekday ← rule.anchorLocalStart.weekday.mapError .model
  let weekStart ←
    (rule.anchorLocalStart.date.wrappingAddDays (-((anchorWeekday : ℤ) - 1))).mapError .model
  slotFrom rule slotOrdinal weekStart (5000000 + 1) 0 0

end WeeklyRecurrence

end Code

section Qualifying

/-- The weeks begin on Mondays, and day 0 is a Thursday. -/
def LocalDate.weekNumber (date : LocalDate) : ℤ := (date.dayNumber + 3) / 7

def LocalDate.isoWeekday (date : LocalDate) : ℕ := ((date.dayNumber + 3) % 7).toNat + 1

namespace WeeklyRecurrence

variable (rule : WeeklyRecurrence)

structure Qualifies (nominal : LocalDateTime) : Prop where
  onCalendar : nominal.date.OnCalendar
  time : nominal.time = rule.anchorLocalStart.time
  weekday : nominal.date.isoWeekday ∈ rule.weekdays
  week : (rule.intervalWeeks : ℤ) ∣ nominal.date.weekNumber - rule.anchorLocalStart.date.weekNumber

structure IsSlot (slotOrdinal : ℕ) (slot : LocalDateTime) : Prop where
  qualifies : rule.Qualifies slot
  reached : rule.anchorLocalStart ≤ slot
  before : {earlier | rule.Qualifies earlier ∧ rule.anchorLocalStart ≤ earlier ∧ earlier < slot}.ncard =
    slotOrdinal

def weekStart : ℤ := rule.anchorLocalStart.date.dayNumber - (rule.anchorLocalStart.date.dayNumber + 3) % 7

/-- What the validation establishes. -/
structure Valid : Prop where
  onCalendar : rule.anchorLocalStart.date.OnCalendar
  interval : 0 < rule.intervalWeeks
  days : ∀ day ∈ rule.weekdays, 1 ≤ day ∧ day ≤ 7
  configured : rule.anchorLocalStart.date.isoWeekday ∈ rule.weekdays
  counted : rule.end ≠ .count 0

variable {rule}

theorem weekday_eq_ok {date : LocalDate} {weekday : ℕ} :
    date.weekday = .ok weekday ↔ date.OnCalendar ∧ date.isoWeekday = weekday := by
  have epoch : daysFromCivil 1970 1 1 = 0 := rfl
  have same : date.isoWeekday = ((daysFromCivil date.year date.month date.day - daysFromCivil 1970 1 1 + 3) %
      7).toNat + 1 := by
    rw [epoch, sub_zero]
    rfl
  rw [LocalDate.weekday, check_eq_ok, LocalDate.validate_eq_ok, same]
  exact and_congr_right fun _ => (Except.ok.injEq _ _).to_iff

theorem Valid.of_validate (valid : rule.validate = .ok ()) : rule.Valid := by
  rw [WeeklyRecurrence.validate, check_eq_ok, mapError_eq_ok, LocalDateTime.validate, check_eq_ok,
    LocalDate.validate_eq_ok, check_eq_ok, refuse_eq_ok, check_eq_ok, refuse_eq_ok, bind_eq_ok] at valid
  obtain ⟨⟨onCalendar, -⟩, interval, days, weekday, found, rest⟩ := valid
  rw [check_eq_ok, refuse_eq_ok, not_not] at rest
  obtain ⟨-, rfl⟩ := weekday_eq_ok.mp (mapError_eq_ok.mp found)
  refine ⟨onCalendar, Nat.pos_of_ne_zero interval, ?_, rest.1, ?_⟩
  · intro day member
    by_contra outside
    exact days (.inr ⟨day, member, outside⟩)
  · intro zero
    have ended := rest.2
    rw [zero] at ended
    exact absurd ended nofun

end WeeklyRecurrence

end Qualifying

section Offsets

namespace WeeklyRecurrence

variable (rule : WeeklyRecurrence)

def Offset (j : ℕ) : Prop :=
  (rule.anchorLocalStart.date.dayNumber + 3) % 7 ≤ j ∧ j % 7 + 1 ∈ rule.weekdays ∧
    rule.intervalWeeks ∣ j / 7

instance : DecidablePred rule.Offset := fun j =>
  inferInstanceAs (Decidable (_ ∧ _ ∧ rule.intervalWeeks ∣ j / 7))

def dayAt (j : ℕ) : LocalDateTime := ⟨civilDate (rule.weekStart + j), rule.anchorLocalStart.time⟩

variable {rule} {i j : ℕ}

theorem dayAt_dayNumber : (rule.dayAt j).date.dayNumber = rule.weekStart + j := (civilDate_spec _).2

theorem dayAt_onCalendar : (rule.dayAt j).date.OnCalendar := (civilDate_spec _).1

theorem lt_iff_of_time {nominal nominal' : LocalDateTime} (time : nominal.time = nominal'.time) :
    nominal < nominal' ↔ nominal.date < nominal'.date := by
  change toLex (nominal.date, nominal.time) < toLex (nominal'.date, nominal'.time) ↔ _
  rw [Prod.Lex.toLex_lt_toLex, time]
  exact or_iff_left fun both => lt_irrefl _ both.2

theorem dayAt_lt_anchor_iff (onCalendar : rule.anchorLocalStart.date.OnCalendar) :
    rule.dayAt j < rule.anchorLocalStart ↔ (j : ℤ) < (rule.anchorLocalStart.date.dayNumber + 3) % 7 := by
  have time : (rule.dayAt j).time = rule.anchorLocalStart.time := rfl
  rw [lt_iff_of_time time, ← dayNumber_lt_iff dayAt_onCalendar onCalendar, dayAt_dayNumber, weekStart]
  omega

theorem dayAt_lt_iff : rule.dayAt i < rule.dayAt j ↔ i < j := by
  have time : (rule.dayAt i).time = (rule.dayAt j).time := rfl
  rw [lt_iff_of_time time, ← dayNumber_lt_iff dayAt_onCalendar dayAt_onCalendar, dayAt_dayNumber,
    dayAt_dayNumber]
  omega

theorem dayAt_injective : Function.Injective rule.dayAt := by
  intro i j same
  have below : ¬ rule.dayAt i < rule.dayAt j := same.not_lt
  have above : ¬ rule.dayAt j < rule.dayAt i := same.not_gt
  rw [dayAt_lt_iff] at below above
  omega

theorem dayAt_weekNumber : (rule.dayAt j).date.weekNumber -
    rule.anchorLocalStart.date.weekNumber = (j / 7 : ℕ) := by
  rw [LocalDate.weekNumber, LocalDate.weekNumber, dayAt_dayNumber, weekStart]
  omega

theorem dayAt_isoWeekday : (rule.dayAt j).date.isoWeekday = j % 7 + 1 := by
  rw [LocalDate.isoWeekday, dayAt_dayNumber, weekStart]
  omega

theorem qualifies_iff (onCalendar : rule.anchorLocalStart.date.OnCalendar) {nominal : LocalDateTime} :
    rule.Qualifies nominal ∧ rule.anchorLocalStart ≤ nominal ↔ ∃ j, rule.Offset j ∧ rule.dayAt j = nominal := by
  constructor
  · rintro ⟨⟨valid, time, weekday, week⟩, reached⟩
    have late : rule.anchorLocalStart.date.dayNumber ≤ nominal.date.dayNumber := by
      rw [dayNumber_le_iff onCalendar valid, ← not_lt, ← lt_iff_of_time time, not_lt]
      exact reached
    have own : rule.dayAt (nominal.date.dayNumber - rule.weekStart).toNat = nominal := by
      have number : rule.weekStart + ((nominal.date.dayNumber - rule.weekStart).toNat : ℕ) =
          nominal.date.dayNumber := by
        rw [weekStart]
        omega
      rw [dayAt, number, civilDate_dayNumber valid, ← time]
    refine ⟨_, ⟨?_, ?_, ?_⟩, own⟩
    · rw [weekStart]
      omega
    · rwa [← dayAt_isoWeekday, own]
    · rwa [← own, dayAt_weekNumber, Int.natCast_dvd_natCast] at week
  · rintro ⟨j, ⟨late, weekday, week⟩, rfl⟩
    refine ⟨⟨(civilDate_spec _).1, rfl, ?_, ?_⟩, ?_⟩
    · rwa [dayAt_isoWeekday]
    · rwa [dayAt_weekNumber, Int.natCast_dvd_natCast]
    · rw [← not_lt, dayAt_lt_anchor_iff onCalendar, not_lt]
      exact late

theorem isSlot_iff (onCalendar : rule.anchorLocalStart.date.OnCalendar) {slotOrdinal : ℕ}
    {slot : LocalDateTime} : rule.IsSlot slotOrdinal slot ↔
      ∃ j, rule.Offset j ∧ Nat.count rule.Offset j = slotOrdinal ∧ rule.dayAt j = slot := by
  have counted : ∀ j, {earlier | rule.Qualifies earlier ∧ rule.anchorLocalStart ≤ earlier ∧
      earlier < rule.dayAt j}.ncard = Nat.count rule.Offset j := by
    intro j
    have image : {earlier | rule.Qualifies earlier ∧ rule.anchorLocalStart ≤ earlier ∧
        earlier < rule.dayAt j} = rule.dayAt '' ((Finset.range j).filter rule.Offset : Finset ℕ) := by
      ext nominal
      rw [Set.mem_ofPred_eq, ← and_assoc, qualifies_iff onCalendar, Set.mem_image]
      constructor
      · rintro ⟨⟨i, offset, rfl⟩, earlier⟩
        have inside := Finset.mem_range.mpr (dayAt_lt_iff.mp earlier)
        exact ⟨i, Finset.mem_coe.mpr (Finset.mem_filter.mpr ⟨inside, offset⟩), rfl⟩
      · rintro ⟨i, member, rfl⟩
        obtain ⟨inside, offset⟩ := Finset.mem_filter.mp (Finset.mem_coe.mp member)
        exact ⟨⟨i, offset, rfl⟩, dayAt_lt_iff.mpr (Finset.mem_range.mp inside)⟩
    rw [image, Set.ncard_image_of_injective _ dayAt_injective, Set.ncard_coe_finset,
      Nat.count_eq_card_filter_range]
  constructor
  · rintro ⟨qualifies, reached, before⟩
    obtain ⟨j, offset, rfl⟩ := (qualifies_iff onCalendar).mp ⟨qualifies, reached⟩
    exact ⟨j, offset, (counted j).symm.trans before, rfl⟩
  · rintro ⟨j, offset, before, rfl⟩
    obtain ⟨qualifies, reached⟩ := (qualifies_iff onCalendar).mpr ⟨j, offset, rfl⟩
    exact ⟨qualifies, reached, (counted j).trans before⟩

end WeeklyRecurrence

end Offsets

section Loops

namespace WeeklyRecurrence

variable {rule : WeeklyRecurrence} {slotOrdinal target : ℕ}

theorem count_eq_of_none {p : ℕ → Prop} [DecidablePred p] {a b : ℕ} (le : a ≤ b)
    (none : ∀ j, a ≤ j → j < b → ¬ p j) : Nat.count p b = Nat.count p a := by
  induction b, le using Nat.le_induction with
  | base => rfl
  | succ b le ih =>
    rw [Nat.count_succ, if_neg (none b le (Nat.lt_succ_self b)), add_zero]
    exact ih fun j above below => none j above (below.trans (Nat.lt_succ_self b))

theorem add_supported {date : LocalDate} {days : ℤ} (onCalendar : date.OnCalendar)
    (supported : Supported (date.dayNumber + days)) :
    date.wrappingAddDays days = .ok (civilDate (date.dayNumber + days)) := by
  obtain ⟨least, most⟩ := supported.within
  refine wrappingAddDays_eq_ok.mpr ⟨onCalendar, (civilDate_spec _).1, ?_⟩
  rw [wrap_of_fits (by omega), wrappingCivilFromDays_fits (by omega), civilFromDays_supported supported]

theorem passed_mono {last : RecurrenceEnd} {i j : ℕ} (le : i ≤ j)
    (passed : last.passed (rule.dayAt i).date = true) : last.passed (rule.dayAt j).date = true := by
  have later : (rule.dayAt i).date ≤ (rule.dayAt j).date :=
    civilDate_strictMono.monotone (by omega)
  cases last with
  | never => exact passed
  | count limit => exact passed
  | untilLocalDate date => exact decide_eq_true ((of_decide_eq_true passed).trans_le later)

/-- The slot that the loop is after: an offset with the given number of them before it. -/
structure Target (rule : WeeklyRecurrence) (slotOrdinal target : ℕ) : Prop where
  offset : rule.Offset target
  count : Nat.count rule.Offset target = slotOrdinal
  bounded : slotOrdinal < 2 ^ 64
  started : Supported rule.weekStart
  reached : Supported (rule.weekStart + target)

theorem Target.supported (goal : Target rule slotOrdinal target) {j : ℕ} (le : j ≤ target) :
    Supported (rule.weekStart + j) := by
  have started := goal.started.1
  have reached := goal.reached.2
  exact ⟨by omega, by omega⟩

theorem emitWeek_spec (valid : rule.Valid) (goal : Target rule slotOrdinal target) {week : ℕ}
    (onInterval : rule.intervalWeeks ∣ week) (rest : List ℕ) :
    ∀ (start emitted : ℕ), rest.Pairwise (· < ·) →
      (∀ day, day ∈ rest ↔ day ∈ rule.weekdays ∧ start < 7 * week + day) →
      7 * week ≤ start → start ≤ 7 * week + 7 → start ≤ target → Nat.count rule.Offset start = emitted →
      (∃ error, emitWeek rule slotOrdinal (rule.dayAt (7 * week)).date rest emitted = .error error ∧
        rule.end.passed (rule.dayAt target).date = true) ∨
      (target < 7 * week + 7 ∧ rule.end.passed (rule.dayAt target).date = false ∧
        emitWeek rule slotOrdinal (rule.dayAt (7 * week)).date rest emitted = .ok (.inl (rule.dayAt target))) ∨
      (7 * week + 7 ≤ target ∧ emitWeek rule slotOrdinal (rule.dayAt (7 * week)).date rest emitted =
        .ok (.inr (Nat.count rule.Offset (7 * week + 7)))) := by
  induction rest with
  | nil =>
    intro start emitted _ listed within bound before counted
    have none : ∀ j, start ≤ j → j < 7 * week + 7 → ¬ rule.Offset j := by
      rintro j above below ⟨-, weekday, -⟩
      have member := (listed (j % 7 + 1)).mpr ⟨weekday, by omega⟩
      exact List.not_mem_nil member
    have later : 7 * week + 7 ≤ target := by
      by_contra inside
      exact none target before (by omega) goal.offset
    exact .inr (.inr ⟨later, by rw [emitWeek, count_eq_of_none bound none, counted]⟩)
  | cons day rest ih =>
    intro start emitted ascending listed within bound before counted
    obtain ⟨weekday, ahead⟩ := (listed day).mp List.mem_cons_self
    obtain ⟨first, last⟩ := valid.days day weekday
    obtain ⟨behind, ascending'⟩ := List.pairwise_cons.mp ascending
    obtain ⟨j, place⟩ : ∃ j, j + 1 = 7 * week + day := ⟨7 * week + day - 1, by omega⟩
    have none : ∀ i, start ≤ i → i < j → ¬ rule.Offset i := by
      rintro i above below ⟨-, weekday', -⟩
      rcases List.mem_cons.mp ((listed (i % 7 + 1)).mpr ⟨weekday', by omega⟩) with same | member
      · omega
      · have := behind _ member
        omega
    have reached : j ≤ target := by
      by_contra inside
      exact none target before (by omega) goal.offset
    have countedHere : Nat.count rule.Offset j = emitted :=
      (count_eq_of_none (by omega) none).trans counted
    have listed' : ∀ e, e ∈ rest ↔ e ∈ rule.weekdays ∧ j + 1 < 7 * week + e := by
      intro e
      constructor
      · intro member
        have := behind e member
        exact ⟨((listed e).mp (List.mem_cons_of_mem _ member)).1, by omega⟩
      · rintro ⟨configured, later⟩
        rcases List.mem_cons.mp ((listed e).mpr ⟨configured, by omega⟩) with rfl | member
        · omega
        · exact member
    have number : (rule.dayAt (7 * week)).date.dayNumber + ((day : ℤ) - 1) = rule.weekStart + j := by
      rw [dayAt_dayNumber]
      omega
    have added : (rule.dayAt (7 * week)).date.wrappingAddDays ((day : ℤ) - 1) =
        .ok (rule.dayAt j).date := by
      rw [add_supported dayAt_onCalendar (number ▸ goal.supported reached), number]
      rfl
    have step : emitWeek rule slotOrdinal (rule.dayAt (7 * week)).date (day :: rest) emitted =
        if rule.dayAt j < rule.anchorLocalStart then
          emitWeek rule slotOrdinal (rule.dayAt (7 * week)).date rest emitted
        else if rule.end.passed (rule.dayAt j).date then .error (.slotOutOfRange slotOrdinal)
        else if emitted = slotOrdinal then .ok (.inl (rule.dayAt j))
        else if 2 ^ 64 ≤ emitted + 1 then .error .recurrenceOverflow
        else emitWeek rule slotOrdinal (rule.dayAt (7 * week)).date rest (emitted + 1) := by
      rw [emitWeek, added]
      rfl
    rw [step]
    by_cases early : rule.dayAt j < rule.anchorLocalStart
    · -- Days of the anchor's week before the anchor.
      rw [if_pos early]
      rw [dayAt_lt_anchor_iff valid.onCalendar] at early
      have skipped : ¬ rule.Offset j := fun offset => absurd offset.1 (by omega)
      have behindHere : j ≠ target := fun same => skipped (same ▸ goal.offset)
      refine ih (j + 1) emitted ascending' listed' (by omega) (by omega) (by omega) ?_
      rw [Nat.count_succ, if_neg skipped, add_zero, countedHere]
    · rw [if_neg early]
      rw [dayAt_lt_anchor_iff valid.onCalendar, not_lt] at early
      have offset : rule.Offset j := by
        refine ⟨early, ?_, ?_⟩
        · rwa [show j % 7 + 1 = day by omega]
        · rwa [show j / 7 = week by omega]
      by_cases passed : rule.end.passed (rule.dayAt j).date = true
      · rw [if_pos passed]
        exact .inl ⟨_, rfl, passed_mono reached passed⟩
      · rw [if_neg passed]
        by_cases found : emitted = slotOrdinal
        · have same : j = target :=
            Nat.count_injective offset goal.offset (by rw [countedHere, found, goal.count])
          subst same
          rw [if_pos found]
          exact .inr (.inl ⟨by omega, eq_false_of_ne_true passed, rfl⟩)
        · have behindHere : j ≠ target := by
            rintro rfl
            exact found (countedHere.symm.trans goal.count)
          have more : Nat.count rule.Offset (j + 1) = emitted + 1 := by
            rw [Nat.count_succ, if_pos offset, countedHere]
          have most : emitted + 1 ≤ slotOrdinal := by
            rw [← more, ← goal.count]
            exact Nat.count_monotone _ (by omega)
          have bounded := goal.bounded
          rw [if_neg found, if_neg (by omega)]
          exact ih (j + 1) (emitted + 1) ascending' listed' (by omega) (by omega) (by omega) more

theorem slotFrom_spec (valid : rule.Valid) (goal : Target rule slotOrdinal target)
    {slot : LocalDateTime} (fuel : ℕ) : ∀ week, 5000000 < fuel + week → week ≤ 5000000 →
      rule.intervalWeeks ∣ week → 7 * week ≤ target →
      (slotFrom rule slotOrdinal (rule.dayAt 0).date fuel week (Nat.count rule.Offset (7 * week)) = .ok slot ↔
        slot = rule.dayAt target ∧ rule.end.passed (rule.dayAt target).date = false ∧
          target / 7 ≤ 5000000) := by
  induction fuel with
  | zero =>
    intro week enough within
    omega
  | succ fuel ih =>
    intro week enough within onInterval before
    have number : (rule.dayAt 0).date.dayNumber + ((week * 7 : ℕ) : ℤ) = rule.weekStart + (7 * week : ℕ) := by
      rw [dayAt_dayNumber]
      push_cast
      ring
    have base : (rule.dayAt 0).date.wrappingAddDays ((week * 7 : ℕ) : ℤ) =
        .ok (rule.dayAt (7 * week)).date := by
      rw [add_supported dayAt_onCalendar (number ▸ goal.supported before), number]
      rfl
    have listed : ∀ day, day ∈ rule.weekdays ↔ day ∈ rule.weekdays ∧ 7 * week < 7 * week + day := by
      refine fun day => (and_iff_left_of_imp fun member => ?_).symm
      have := (valid.days day member).1
      omega
    rw [slotFrom, base]
    change (emitWeek rule slotOrdinal (rule.dayAt (7 * week)).date rule.weekdays
      (Nat.count rule.Offset (7 * week)) >>= _) = _ ↔ _
    rcases emitWeek_spec valid goal onInterval rule.weekdays (7 * week) _ rule.ascending listed le_rfl
      (Nat.le_add_right _ _) before rfl with ⟨error, failed, passed⟩ | ⟨inside, kept, found⟩ | ⟨later, counted⟩
    · rw [failed, passed]
      exact iff_of_false nofun fun both => Bool.noConfusion both.2.1
    · rw [found, kept]
      change Except.ok (rule.dayAt target) = .ok slot ↔ _
      rw [Except.ok.injEq]
      exact ⟨fun same => ⟨same.symm, rfl, by omega⟩, fun both => both.1.symm⟩
    · rw [counted, ok_bind]
      -- The next week with offsets is one interval later.
      have next : week + rule.intervalWeeks ≤ target / 7 := by
        obtain ⟨a, rfl⟩ := onInterval
        obtain ⟨b, weeks⟩ := goal.offset.2.2
        rw [weeks, ← Nat.mul_succ]
        apply Nat.mul_le_mul_left
        have less : rule.intervalWeeks * a < rule.intervalWeeks * b := by omega
        exact Nat.lt_of_mul_lt_mul_left less
      by_cases beyond : 5000000 < week + rule.intervalWeeks
      · have stopped : ∀ emitted : ℕ, (if 2 ^ 64 ≤ week + rule.intervalWeeks then
            (.error .recurrenceOverflow : Except RecurrenceError LocalDateTime)
            else if 5000000 < week + rule.intervalWeeks then .error .recurrenceOverflow
            else slotFrom rule slotOrdinal (rule.dayAt 0).date fuel (week + rule.intervalWeeks) emitted) =
            .error .recurrenceOverflow := by
          intro emitted
          rw [if_pos beyond, ite_self]
        dsimp only
        rw [stopped]
        exact iff_of_false nofun fun both => absurd both.2.2 (by omega)
      · have positive := valid.interval
        have none : ∀ j, 7 * week + 7 ≤ j → j < 7 * (week + rule.intervalWeeks) → ¬ rule.Offset j := by
          rintro j above below ⟨-, -, weeks⟩
          obtain ⟨a, rfl⟩ := onInterval
          obtain ⟨b, week'⟩ := weeks
          have more : rule.intervalWeeks * a < rule.intervalWeeks * b := by omega
          have less : rule.intervalWeeks * b < rule.intervalWeeks * (a + 1) := by
            rw [Nat.mul_succ]
            omega
          have := Nat.lt_of_mul_lt_mul_left more
          have := Nat.lt_of_mul_lt_mul_left less
          omega
        dsimp only
        rw [if_neg (by omega), if_neg beyond, ← count_eq_of_none (by omega) none]
        exact ih _ (by omega) (by omega) (onInterval.add (dvd_refl _)) (by omega)

end WeeklyRecurrence

end Loops

section Slots

namespace WeeklyRecurrence

variable {rule : WeeklyRecurrence} {slotOrdinal : ℕ}

theorem offset_anchor (valid : rule.Valid) :
    rule.Offset ((rule.anchorLocalStart.date.dayNumber + 3) % 7).toNat := by
  have configured := valid.configured
  refine ⟨by omega, ?_, ?_⟩
  · rwa [Nat.mod_eq_of_lt (by omega)]
  · rw [Nat.div_eq_of_lt (by omega)]
    exact dvd_zero _

theorem offsets_infinite (valid : rule.Valid) : (Set.ofPred rule.Offset).Infinite := by
  refine Set.infinite_of_not_bddAbove ?_
  rintro ⟨bound, above⟩
  have positive := valid.interval
  have configured := valid.configured
  have member : rule.Offset (7 * (rule.intervalWeeks * (bound + 1)) +
      ((rule.anchorLocalStart.date.dayNumber + 3) % 7).toNat) := by
    refine ⟨by omega, ?_, ?_⟩
    · rwa [show (7 * (rule.intervalWeeks * (bound + 1)) +
        ((rule.anchorLocalStart.date.dayNumber + 3) % 7).toNat) % 7 =
          ((rule.anchorLocalStart.date.dayNumber + 3) % 7).toNat by omega]
    · rw [show (7 * (rule.intervalWeeks * (bound + 1)) +
        ((rule.anchorLocalStart.date.dayNumber + 3) % 7).toNat) / 7 = rule.intervalWeeks * (bound + 1) by omega]
      exact dvd_mul_right _ _
  have within : _ ≤ bound := above member
  have grows : bound + 1 ≤ rule.intervalWeeks * (bound + 1) := Nat.le_mul_of_pos_left _ positive
  omega

theorem exists_slot (valid : rule.Valid) (slotOrdinal : ℕ) : ∃! slot, rule.IsSlot slotOrdinal slot := by
  have infinite := offsets_infinite valid
  refine ⟨rule.dayAt (Nat.nth rule.Offset slotOrdinal), ?_, ?_⟩
  · exact (isSlot_iff valid.onCalendar).mpr ⟨_, Nat.nth_mem_of_infinite infinite _,
      Nat.count_nth_of_infinite infinite _, rfl⟩
  · rintro slot isSlot
    obtain ⟨j, offset, counted, rfl⟩ := (isSlot_iff valid.onCalendar).mp isSlot
    rw [← counted, Nat.nth_count offset]

theorem isSlot_anchor (valid : rule.Valid) : rule.IsSlot 0 rule.anchorLocalStart := by
  refine (isSlot_iff valid.onCalendar).mpr ⟨_, offset_anchor valid, ?_, ?_⟩
  · refine Nat.count_iff_forall_not.mpr fun j before offset => ?_
    have := offset.1
    omega
  · have number : rule.weekStart + (((rule.anchorLocalStart.date.dayNumber + 3) % 7).toNat : ℕ) =
        rule.anchorLocalStart.date.dayNumber := by
      rw [weekStart]
      omega
    rw [dayAt, number, civilDate_dayNumber valid.onCalendar]

theorem isSlot_lt_iff (valid : rule.Valid) {j k : ℕ} {slot slot' : LocalDateTime}
    (isSlot : rule.IsSlot j slot) (isSlot' : rule.IsSlot k slot') : slot < slot' ↔ j < k := by
  obtain ⟨i, offset, rfl, rfl⟩ := (isSlot_iff valid.onCalendar).mp isSlot
  obtain ⟨i', offset', rfl, rfl⟩ := (isSlot_iff valid.onCalendar).mp isSlot'
  rw [dayAt_lt_iff]
  constructor
  · exact Nat.count_strict_mono offset
  · intro less
    by_contra above
    exact absurd (Nat.count_monotone rule.Offset (not_lt.mp above)) (not_le.mpr less)

theorem localSlot_eq_ok (accepted : rule.validate = .ok ()) (started : Supported rule.weekStart)
    (bounded : slotOrdinal < 2 ^ 64) {slot result : LocalDateTime} (isSlot : rule.IsSlot slotOrdinal slot)
    (inYears : slot.date.InYears) : rule.localSlot slotOrdinal = .ok result ↔
      result = slot ∧ rule.end.exhausted slotOrdinal = false ∧ rule.end.passed slot.date = false ∧
        slot.date.weekNumber - rule.anchorLocalStart.date.weekNumber ≤ 5000000 := by
  have valid := Valid.of_validate accepted
  obtain ⟨target, offset, counted, rfl⟩ := (isSlot_iff valid.onCalendar).mp isSlot
  have goal : Target rule slotOrdinal target := ⟨offset, counted, bounded, started, supported_iff.mpr inYears⟩
  have weekday : rule.anchorLocalStart.weekday = .ok rule.anchorLocalStart.date.isoWeekday :=
    weekday_eq_ok.mpr ⟨valid.onCalendar, rfl⟩
  have number : rule.anchorLocalStart.date.dayNumber +
      -((rule.anchorLocalStart.date.isoWeekday : ℤ) - 1) = rule.weekStart := by
    rw [LocalDate.isoWeekday, weekStart]
    omega
  have monday : rule.anchorLocalStart.date.wrappingAddDays
      (-((rule.anchorLocalStart.date.isoWeekday : ℤ) - 1)) = .ok (rule.dayAt 0).date := by
    rw [add_supported valid.onCalendar (number.symm ▸ started), number, dayAt, Nat.cast_zero, add_zero]
  rw [localSlot, accepted, ok_bind, weekday, check_eq_ok, refuse_eq_ok, Bool.not_eq_true]
  change _ ∧ ((rule.anchorLocalStart.date.wrappingAddDays
    (-((rule.anchorLocalStart.date.isoWeekday : ℤ) - 1))).mapError RecurrenceError.model >>= _) = _ ↔ _
  rw [monday]
  change _ ∧ slotFrom rule slotOrdinal (rule.dayAt 0).date (5000000 + 1) 0 0 = _ ↔ _
  have run := @slotFrom_spec rule slotOrdinal target valid goal result (5000000 + 1) 0 (by omega) (by omega)
    (dvd_zero _) (Nat.zero_le _)
  rw [Nat.mul_zero, Nat.count_zero] at run
  rw [run, dayAt_weekNumber, Nat.cast_le_ofNat]
  tauto

/-- The slots of a valid recurrence in the supported years: the anchor is the first, they are ascending,
and the loop finds each that is not behind the end or beyond the weeks it visits, and nothing else. -/
theorem localSlot_enumerates (accepted : rule.validate = .ok ()) (started : Supported rule.weekStart) :
    rule.IsSlot 0 rule.anchorLocalStart ∧ (∀ k, ∃! slot, rule.IsSlot k slot) ∧
    (∀ j k slot slot', rule.IsSlot j slot → rule.IsSlot k slot' → (slot < slot' ↔ j < k)) ∧
    ∀ k < 2 ^ 64, ∀ slot, rule.IsSlot k slot → slot.date.InYears → ∀ result,
      rule.localSlot k = .ok result ↔
        result = slot ∧ rule.end.exhausted k = false ∧ rule.end.passed slot.date = false ∧
          slot.date.weekNumber - rule.anchorLocalStart.date.weekNumber ≤ 5000000 := by
  have valid := Valid.of_validate accepted
  refine ⟨isSlot_anchor valid, exists_slot valid, ?_, ?_⟩
  · intro j k slot slot' isSlot isSlot'
    exact isSlot_lt_iff valid isSlot isSlot'
  · intro k bounded slot isSlot inYears result
    exact localSlot_eq_ok accepted started bounded isSlot inYears

/-- Two slots five million and one weeks apart. -/
def rare : WeeklyRecurrence where
  anchorLocalStart := ⟨⟨2026, 1, 5⟩, ⟨9, 0, 0⟩⟩
  intervalWeeks := 5000001
  weekdays := [1]
  ascending := List.pairwise_singleton _ _
  «end» := .count 2

theorem localSlot_enumerates_rare : rare.localSlot 0 = .ok rare.anchorLocalStart := by
  obtain ⟨isSlot, -, -, found⟩ := @localSlot_enumerates rare rfl ⟨by decide, by decide⟩
  exact (found 0 (by decide) _ isSlot ⟨by decide, by decide⟩ _).mpr ⟨rfl, rfl, rfl, by decide⟩

theorem countedSlot_refused :
    ¬ ∀ (rule : WeeklyRecurrence) (limit k : ℕ) (slot : LocalDateTime), rule.validate = .ok () →
      Supported rule.weekStart → rule.end = .count limit → k < limit → rule.IsSlot k slot →
      slot.date.InYears → ∃ result, rule.localSlot k = .ok result := by
  intro holds
  have none : ∀ j, 1 ≤ j → j < 35000007 → ¬ rare.Offset j := by
    rintro j above below ⟨-, weekday, weeks⟩
    have monday : j % 7 + 1 = 1 := List.mem_singleton.mp weekday
    obtain ⟨b, week⟩ : 5000001 ∣ j / 7 := weeks
    omega
  have isSlot : rare.IsSlot 1 (rare.dayAt 35000007) := by
    refine (isSlot_iff (Valid.of_validate rfl).onCalendar).mpr ⟨35000007, ?_, ?_, rfl⟩
    · exact ⟨by decide, by decide, by decide⟩
    · rw [count_eq_of_none (by decide) none]
      decide
  obtain ⟨result, found⟩ := holds rare 2 1 _ rfl ⟨by decide, by decide⟩ rfl (by decide) isSlot
    (supported_iff.mp ⟨by decide, by decide⟩)
  have refused : rare.localSlot 1 = .error .recurrenceOverflow := rfl
  rw [refused] at found
  exact absurd found nofun

end WeeklyRecurrence

end Slots

end Boreal.WorkModel
