/- Civil dates and business schedules: planning values read against one project-local clock. -/
import BorealWork.TimePolicy
import BorealWork.WorkModel

namespace Boreal.WorkModel

section Calendar

def isLeapYear (year : ℤ) : Bool := year % 4 = 0 && (year % 100 ≠ 0 || year % 400 = 0)

def daysInMonth (year : ℤ) : ℕ → ℕ
  | 1 | 3 | 5 | 7 | 8 | 10 | 12 => 31
  | 4 | 6 | 9 | 11 => 30
  | 2 => if isLeapYear year then 29 else 28
  | _ => 0

/-- Days since 1970-01-01; the quotient of the era rounds towards zero. -/
def daysFromCivil (year : ℤ) (month day : ℕ) : ℤ :=
  let y := if month ≤ 2 then year - 1 else year
  let era := (if 0 ≤ y then y else y - 399).tdiv 400
  let yoe := y - era * 400
  let mp : ℤ := month + (if 2 < month then -3 else 9)
  let doy := (153 * mp + 2).tdiv 5 + day - 1
  let doe := yoe * 365 + yoe.tdiv 4 - yoe.tdiv 100 + doy
  era * 146097 + doe - 719468

def civilFromDays (days : ℤ) : LocalDate :=
  let z := days + 719468
  let era := (if 0 ≤ z then z else z - 146096).tdiv 146097
  let doe := z - era * 146097
  let yoe := (doe - doe.tdiv 1460 + doe.tdiv 36524 - doe.tdiv 146096).tdiv 365
  let doy := doe - (365 * yoe + yoe.tdiv 4 - yoe.tdiv 100)
  let mp := (5 * doy + 2).tdiv 153
  let day := doy - (153 * mp + 2).tdiv 5 + 1
  let month := mp + (if mp < 10 then 3 else -9)
  let year := yoe + era * 400 + (if month ≤ 2 then 1 else 0)
  ⟨year.bmod (2 ^ 32), (month % 2 ^ 8).toNat, (day % 2 ^ 8).toNat⟩

namespace LocalDate

def validate (date : LocalDate) : Except ModelError Unit :=
  if ¬ (1 ≤ date.month ∧ date.month ≤ 12) ∨ date.day = 0 ∨
      daysInMonth date.year date.month < date.day then
    .error (.invalidLocalDate date)
  else .ok ()

def addDays (date : LocalDate) (days : ℤ) : Except ModelError LocalDate := do
  date.validate
  let result := civilFromDays (daysFromCivil date.year date.month date.day + days)
  result.validate
  return result

end LocalDate

example : (LocalDate.addDays ⟨2028, 2, 28⟩ 1).toOption = some ⟨2028, 2, 29⟩ ∧
    (LocalDate.addDays ⟨2026, 12, 31⟩ 1).toOption = some ⟨2027, 1, 1⟩ := by decide +kernel

def LocalTime.validate (time : LocalTime) : Except ModelError Unit :=
  if 23 < time.hour ∨ 59 < time.minute ∨ 59 < time.second then .error (.invalidLocalTime time)
  else .ok ()

structure LocalDateTime where
  date : LocalDate
  time : LocalTime
  deriving DecidableEq

def LocalDateTime.validate (nominal : LocalDateTime) : Except ModelError Unit := do
  nominal.date.validate
  nominal.time.validate

end Calendar

section Schedule

inductive GapPolicy
  | nextValid
  deriving DecidableEq

inductive FoldPolicy
  | earlierOffset
  | laterOffset
  deriving DecidableEq

structure TimeResolution where
  nominalLocal : LocalDateTime
  utcInstant : TimestampMs
  utcOffsetMinutes : ℤ
  timezone : String
  tzdbIdentity : String
  gapPolicy : GapPolicy
  foldPolicy : FoldPolicy
  deriving DecidableEq

def TimeResolution.validate (resolution : TimeResolution) : Except ModelError Unit := do
  resolution.nominalLocal.validate
  if ¬ (-24 * 60 ≤ resolution.utcOffsetMinutes ∧ resolution.utcOffsetMinutes ≤ 24 * 60) then
    .error (.invalidUtcOffset resolution.utcOffsetMinutes)
  else if isBlank resolution.timezone ∨ isBlank resolution.tzdbIdentity then
    .error .missingTimeZoneIdentity
  else .ok ()

inductive BusinessDate
  | instant (moment : TimestampMs)
  | localDate (date : LocalDate)
  | resolvedLocal (resolution : TimeResolution)
  deriving DecidableEq

namespace BusinessDate

def validate : BusinessDate → Except ModelError Unit
  | .instant _ => .ok ()
  | .localDate date => date.validate
  | .resolvedLocal resolution => resolution.validate

def asInstant : BusinessDate → Option TimestampMs
  | .instant moment => some moment
  | .localDate _ => none
  | .resolvedLocal resolution => some resolution.utcInstant

def isLocalDate : BusinessDate → Bool
  | .localDate _ => true
  | _ => false

end BusinessDate

structure BusinessSchedule where
  notBefore : Option BusinessDate
  due : Option BusinessDate
  plannedStart : Option BusinessDate
  plannedEnd : Option BusinessDate
  deriving DecidableEq

namespace BusinessSchedule

def values (schedule : BusinessSchedule) : List BusinessDate :=
  [schedule.notBefore, schedule.due, schedule.plannedStart, schedule.plannedEnd].filterMap id

def validateWindow : BusinessDate → BusinessDate → Except ModelError Unit
  | .localDate start, .localDate «end» =>
    if «end» ≤ start then
      .error (.invalidSchedule "planned_end date must be after planned_start date")
    else .ok ()
  | .localDate _, _ | _, .localDate _ =>
    .error (.invalidSchedule "planned window endpoints must use the same date or instant basis")
  | start, «end» =>
    if («end».asInstant.elim true fun e => start.asInstant.any (e ≤ ·)) then
      .error (.invalidSchedule "planned_end instant must be after planned_start instant")
    else .ok ()

def validate (schedule : BusinessSchedule) : Except ModelError Unit := do
  schedule.values.forM BusinessDate.validate
  match schedule.plannedStart, schedule.plannedEnd with
  | some start, some «end» => validateWindow start «end»
  | _, _ => .ok ()

end BusinessSchedule

structure BusinessTimeContext where
  projectId : ProjectId
  settingRevision : ℕ
  asOf : TimestampMs
  civilDate : LocalDate
  timezone : String
  tzdbIdentity : String
  deriving DecidableEq

/-- The general category `Cc`. -/
def isControl (c : Char) : Bool := c.toNat < 0x20 || (0x7F ≤ c.toNat && c.toNat < 0xA0)

def BusinessTimeContext.validate (context : BusinessTimeContext) : Except ModelError Unit := do
  context.civilDate.validate
  if isBlank context.projectId.value ∨ context.settingRevision = 0 ∨
      isBlank context.timezone ∨ isBlank context.tzdbIdentity ∨
      255 < context.timezone.utf8ByteSize ∨ 512 < context.tzdbIdentity.utf8ByteSize ∨
      context.timezone.toList.any isControl ∨ context.tzdbIdentity.toList.any isControl then
    .error .missingTimeZoneIdentity
  else .ok ()

inductive BusinessDateBoundary
  | instant (moment : TimestampMs)
  | localDateStart (date : LocalDate)
  deriving DecidableEq

structure BusinessScheduleView where
  available : Bool
  dueToday : Bool
  overdue : Bool
  nextChanges : List BusinessDateBoundary
  deriving DecidableEq

section Evaluation

variable (schedule : BusinessSchedule) (context : BusinessTimeContext) (terminal : Bool)

def BusinessDate.reached : BusinessDate → Bool
  | .localDate date => date ≤ context.civilDate
  | value => value.asInstant.any (· ≤ context.asOf)

def BusinessSchedule.available : Bool :=
  schedule.notBefore.all (BusinessDate.reached context)

def BusinessSchedule.dueToday : Bool :=
  !terminal && schedule.due.any (· = .localDate context.civilDate)

/-- A civil day is on time until it is over. -/
def BusinessSchedule.overdue : Bool :=
  !terminal && schedule.due.any fun
    | .localDate date => date < context.civilDate
    | value => value.asInstant.any (· ≤ context.asOf)

/-- The boundary of a value that is not a civil date. -/
def BusinessDate.boundary : BusinessDate → BusinessDateBoundary
  | .instant moment => .instant moment
  | .localDate date => .localDateStart date
  | .resolvedLocal resolution => .instant resolution.utcInstant

def BusinessSchedule.startCandidates : List BusinessDateBoundary :=
  if schedule.available context then [] else schedule.notBefore.toList.map BusinessDate.boundary

def BusinessSchedule.dueCandidates : Except ModelError (List BusinessDateBoundary) :=
  if terminal then .ok []
  else match schedule.due with
    | none => .ok []
    | some (.localDate date) =>
      if context.civilDate < date then .ok [.localDateStart date]
      else if context.civilDate = date then
        (date.addDays 1).map fun next => [.localDateStart next]
      else .ok []
    | some value => .ok (if schedule.overdue context terminal then [] else [value.boundary])

def BusinessDateBoundary.isFuture : BusinessDateBoundary → Bool
  | .instant moment => context.asOf < moment
  | .localDateStart date => context.civilDate < date

def evaluateBusinessSchedule : Except ModelError BusinessScheduleView := do
  schedule.validate
  context.validate
  let starts := schedule.startCandidates context
  let dues ← schedule.dueCandidates context terminal
  return {
    available := schedule.available context
    dueToday := schedule.dueToday context terminal
    overdue := schedule.overdue context terminal
    nextChanges := (starts ++ dues.filter (· ∉ starts)).filter (·.isFuture context) }

end Evaluation

end Schedule

end Boreal.WorkModel
