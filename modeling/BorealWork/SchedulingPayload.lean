/- The stored payloads of schedules and external waits as texts: what is encoded is read back, field
by field, through the integer types of the records. -/
import BorealWork.CivilTimeSettings
import BorealWork.Library.JsonEncoding
import BorealWork.Library.JsonText

namespace Boreal.Store.Payloads
open Drain JsonValue WorkModel
open Planning (WorkScheduleRecord)

section Readers

variable (value : Value) (key : String)

def requiredI32 : Except StoreError ℤ := do
  let n ← requiredInteger value key
  refuse (n < -2 ^ 31 ∨ 2 ^ 31 ≤ n) (.corrupt s!"payload field {key} is not a 32-bit integer")
  return n

def requiredU8 : Except StoreError ℕ := do
  let n ← requiredSmall value key
  refuse (2 ^ 8 ≤ n) (.corrupt s!"payload field {key} is not an 8-bit unsigned integer")
  return n

end Readers

section Codec

variable (json : JsonText)

def schedulePayload (record : WorkScheduleRecord) : Value :=
  .object [("version", natural 1), ("not_before", orNull encodeBusinessDate record.schedule.notBefore),
    ("due", orNull encodeBusinessDate record.schedule.due),
    ("planned_start", orNull encodeBusinessDate record.schedule.plannedStart),
    ("planned_end", orNull encodeBusinessDate record.schedule.plannedEnd)]

def encodeSchedulePayload (record : WorkScheduleRecord) : String := json.toString (schedulePayload record)

def encodeExternalWait (wait : ExternalWait) : String := json.toString (Store.encodeExternalWait wait)

def parsePayload (payloadJson label : String) : Except StoreError Value := do
  let value ← (json.fromStr payloadJson).mapError fun error =>
    StoreError.corrupt s!"{label} payload is invalid JSON: {error}"
  refuse (value.members?.isNone = true) (.corrupt s!"{label} payload is not an object")
  return value

def decodeLocalDate (value : Value) : Except StoreError LocalDate := do
  let year ← requiredI32 value "year"
  let month ← requiredU8 value "month"
  let day ← requiredU8 value "day"
  return ⟨year, month, day⟩

def decodeLocalTime (value : Value) : Except StoreError LocalTime := do
  let hour ← requiredU8 value "hour"
  let minute ← requiredU8 value "minute"
  let second ← requiredU8 value "second"
  return ⟨hour, minute, second⟩

def decodeTimeResolution (value : Value) : Except StoreError TimeResolution := do
  let nominal ← required value "nominal_local"
  let date ← decodeLocalDate nominal
  let time ← decodeLocalTime nominal
  let moment ← requiredU64 value "utc_instant_ms"
  let offset ← requiredI32 value "utc_offset_minutes"
  let timezone ← requiredString value "timezone"
  let tzdb ← requiredString value "tzdb_identity"
  let gap ← parseGapPolicy (← requiredString value "gap_policy")
  let fold ← parseFoldPolicy (← requiredString value "fold_policy")
  return ⟨⟨date, time⟩, ⟨moment⟩, offset, timezone, tzdb, gap, fold⟩

/-- The date before it is checked. -/
def readBusinessDate (value : Value) : Except StoreError BusinessDate := do
  let kind ← requiredString value "kind"
  if kind = "instant" then
    let moment ← requiredU64 value "at_ms"
    return .instant ⟨moment⟩
  else if kind = "local_date" then .localDate <$> decodeLocalDate value
  else if kind = "resolved_local" then .resolvedLocal <$> decodeTimeResolution value
  else .error (.corrupt s!"unknown business-date kind {repr kind}")

def checkBusinessDate (date : BusinessDate) : Except StoreError Unit :=
  date.validate.mapError fun error => StoreError.corrupt s!"invalid business date: {error.display}"

def decodeBusinessDate : Value → Except StoreError (Option BusinessDate)
  | .null => .ok none
  | value => do
    let date ← readBusinessDate value
    checkBusinessDate date
    return some date

def decodeWorkScheduleRecord (projectId workId : String) (revision : ℕ) (payloadJson : String)
    (civilTimeSettingRevision : Option ℕ) (updatedAt : ℕ) : Except StoreError WorkScheduleRecord := do
  let payload ← parsePayload json payloadJson "work schedule"
  let version ← requiredU64 payload "version"
  refuse (version ≠ 1) (.corrupt "unsupported schedule payload version")
  let notBefore ← required payload "not_before" >>= decodeBusinessDate
  let due ← required payload "due" >>= decodeBusinessDate
  let plannedStart ← required payload "planned_start" >>= decodeBusinessDate
  let plannedEnd ← required payload "planned_end" >>= decodeBusinessDate
  let record : WorkScheduleRecord := ⟨⟨projectId⟩, ⟨workId⟩, revision,
    ⟨notBefore, due, plannedStart, plannedEnd⟩, civilTimeSettingRevision, ⟨updatedAt⟩⟩
  record.validate.mapError fun error => StoreError.corrupt s!"invalid persisted schedule: {error.display}"
  return record

def decodeExternalWait (projectId waitId : String) (revision : ℕ) (payloadJson : String) :
    Except StoreError ExternalWait := do
  let payload ← parsePayload json payloadJson "external wait"
  let version ← requiredU64 payload "version"
  refuse (version ≠ 1) (.corrupt "unsupported or mismatched external-wait payload revision")
  let stored ← requiredU64 payload "revision"
  refuse (stored ≠ revision) (.corrupt "unsupported or mismatched external-wait payload revision")
  let affected ← required payload "affected_work_ids" >>= decodeScope
  let state ← requiredString payload "state" >>= parseExternalWaitState
  let resolution ← required payload "resolution" >>= decodeOptionalResolution
  let source ← requiredString payload "source_work_id"
  let category ← requiredString payload "category" >>= parseExternalWaitCategory
  let reason ← requiredString payload "reason"
  let accountable ← required payload "accountable" >>= decodeAccountable
  let expectedDecision ← optionalString payload "expected_decision"
  let expectedOutput ← optionalString payload "expected_output"
  let followUp ← required payload "follow_up" >>= decodeBusinessDate
  let civilTimeSettingRevision ← optionalU64 payload "civil_time_setting_revision"
  let createdBy ← requiredString payload "created_by"
  let createdAt ← requiredU64 payload "created_at_ms"
  return ⟨⟨waitId⟩, ⟨projectId⟩, ⟨source⟩, affected, category, reason, accountable, expectedDecision,
    expectedOutput, followUp, civilTimeSettingRevision, revision, state, createdBy, ⟨createdAt⟩, resolution⟩

end Codec

/-- The values that the integer types of a date hold: 32 bits for the year, 8 for the rest. -/
def DateInWidths (date : LocalDate) : Prop := date.InYears ∧ date.month < 2 ^ 8 ∧ date.day < 2 ^ 8

def TimeInWidths (time : LocalTime) : Prop := time.hour < 2 ^ 8 ∧ time.minute < 2 ^ 8 ∧ time.second < 2 ^ 8

def InWidths : BusinessDate → Prop
  | .instant _ => True
  | .localDate date => DateInWidths date
  | .resolvedLocal resolution =>
    DateInWidths resolution.nominalLocal.date ∧ TimeInWidths resolution.nominalLocal.time ∧
      -2 ^ 31 ≤ resolution.utcOffsetMinutes ∧ resolution.utcOffsetMinutes < 2 ^ 31

section Fields

variable {value value' : Value}

theorem required_same (same : Same value value') (key : String) {field : Value} (found : value.get? key = some field) :
    ∃ field', required value' key = .ok field' ∧ Same field field' := by
  obtain ⟨field', there, alike⟩ := same.get? found
  exact ⟨field', by rw [required, there], alike⟩

theorem requiredString_same (same : Same value value') (key : String) {text : String}
    (found : value.get? key = some (.string text)) : requiredString value' key = .ok text := by
  obtain ⟨field', there, alike⟩ := required_same same key found
  rw [requiredString, there, ok_bind, alike.string]

theorem requiredU64_same (same : Same value value') (key : String) {n : ℕ} (found : value.get? key = some (natural n)) :
    requiredU64 value' key = .ok n := by
  obtain ⟨field', there, alike⟩ := required_same same key found
  rw [requiredU64, there, ok_bind, alike.number]

theorem requiredU8_same (same : Same value value') (key : String) {n : ℕ} (found : value.get? key = some (natural n))
    (small : n < 2 ^ 8) : requiredU8 value' key = .ok n := by
  obtain ⟨field', there, alike⟩ := required_same same key found
  rw [requiredU8, requiredSmall, there, ok_bind, alike.number, ok_bind, refuse_of_not (not_le.mpr small)]
  rfl

theorem requiredI32_same (same : Same value value') (key : String) {n : ℤ} (found : value.get? key = some (integer n))
    (low : -2 ^ 31 ≤ n) (high : n < 2 ^ 31) : requiredI32 value' key = .ok n := by
  obtain ⟨field', there, alike⟩ := required_same same key found
  have read : requiredInteger value' key = .ok n := by
    rw [requiredInteger, there, ok_bind]
    cases n with
    | ofNat n => rw [alike.number]; rfl
    | negSucc n => rw [alike.number]
  rw [requiredI32, read, ok_bind, refuse_of_not (by omega)]
  rfl

theorem optionalString_same (same : Same value value') (key : String) {text : Option String}
    (found : value.get? key = some (orNull .string text)) : optionalString value' key = .ok text := by
  obtain ⟨field', there, alike⟩ := required_same same key found
  rw [optionalString, there, ok_bind]
  cases text with
  | none => rw [alike.null]
  | some text => rw [alike.string]

theorem optionalU64_same (same : Same value value') (key : String) {n : Option ℕ}
    (found : value.get? key = some (orNull natural n)) : optionalU64 value' key = .ok n := by
  obtain ⟨field', there, alike⟩ := required_same same key found
  rw [optionalU64, there, ok_bind]
  cases n with
  | none => rw [alike.null]
  | some n => rw [alike.number]

end Fields

section Dates

variable {value : Value}

theorem decodeLocalDate_same {members : List (String × Value)} {date : LocalDate}
    (same : Same (.object members) value)
    (year : (Value.object members).get? "year" = some (integer date.year))
    (month : (Value.object members).get? "month" = some (natural date.month))
    (day : (Value.object members).get? "day" = some (natural date.day)) (widths : DateInWidths date) :
    decodeLocalDate value = .ok date := by
  obtain ⟨⟨low, high⟩, small, smaller⟩ := widths
  rw [decodeLocalDate, requiredI32_same same "year" year low high, ok_bind, requiredU8_same same "month" month small, ok_bind,
    requiredU8_same same "day" day smaller]
  rfl

theorem decodeLocalTime_same {members : List (String × Value)} {time : LocalTime}
    (same : Same (.object members) value)
    (hour : (Value.object members).get? "hour" = some (natural time.hour))
    (minute : (Value.object members).get? "minute" = some (natural time.minute))
    (second : (Value.object members).get? "second" = some (natural time.second)) (widths : TimeInWidths time) :
    decodeLocalTime value = .ok time := by
  obtain ⟨small, smaller, smallest⟩ := widths
  rw [decodeLocalTime, requiredU8_same same "hour" hour small, ok_bind, requiredU8_same same "minute" minute smaller, ok_bind,
    requiredU8_same same "second" second smallest]
  rfl

theorem decodeTimeResolution_same {resolution : TimeResolution}
    (same : Same (encodeBusinessDate (.resolvedLocal resolution)) value)
    (widths : InWidths (.resolvedLocal resolution)) : decodeTimeResolution value = .ok resolution := by
  obtain ⟨dateWidths, timeWidths, low, high⟩ := widths
  obtain ⟨nominal, found, alike⟩ := required_same same "nominal_local" rfl
  have moment := requiredU64_same same "utc_instant_ms" rfl
  have offset := requiredI32_same same "utc_offset_minutes" rfl low high
  have timezone := requiredString_same same "timezone" rfl
  have tzdb := requiredString_same same "tzdb_identity" rfl
  have gap := requiredString_same same "gap_policy" rfl
  have fold := requiredString_same same "fold_policy" rfl
  rw [decodeTimeResolution, found, ok_bind, decodeLocalDate_same alike rfl rfl rfl dateWidths, ok_bind,
    decodeLocalTime_same alike rfl rfl rfl timeWidths, ok_bind, moment, ok_bind, offset, ok_bind, timezone, ok_bind,
    tzdb, ok_bind]
  simp only [gap, fold, ok_bind, parseGapPolicy_debug, parseFoldPolicy_debug]
  rfl

theorem readBusinessDate_same {date : BusinessDate} (same : Same (encodeBusinessDate date) value)
    (widths : InWidths date) : readBusinessDate value = .ok date := by
  rw [readBusinessDate]
  cases date with
  | instant moment =>
    rw [requiredString_same same "kind" rfl, ok_bind, if_pos rfl, requiredU64_same same "at_ms" rfl]
    rfl
  | localDate date =>
    rw [requiredString_same same "kind" rfl, ok_bind, if_neg (by decide), if_pos rfl,
      decodeLocalDate_same same rfl rfl rfl widths]
    rfl
  | resolvedLocal resolution =>
    rw [requiredString_same same "kind" rfl, ok_bind, if_neg (by decide), if_neg (by decide), if_pos rfl,
      decodeTimeResolution_same same widths]
    rfl

end Dates

section Options

variable {value payload : Value}

def readOptionalDate : Value → Except StoreError (Option BusinessDate)
  | .null => .ok none
  | value => some <$> readBusinessDate value

theorem decodeBusinessDate_eq (value : Value) : decodeBusinessDate value = (do
    let date ← readOptionalDate value
    date.forM checkBusinessDate
    return date) := by
  have read (value : Value) : (do
      let date ← readBusinessDate value
      checkBusinessDate date
      return some date) = (do
      let date ← some <$> readBusinessDate value
      date.forM checkBusinessDate
      return date) := by
    cases readBusinessDate value with
    | error error => rfl
    | ok date => rfl
  cases value with
  | null => rfl
  | bool b => exact read _
  | number n => exact read _
  | string s => exact read _
  | array items => exact read _
  | object members => exact read _

theorem readOptionalDate_same {date : Option BusinessDate} (same : Same (orNull encodeBusinessDate date) value)
    (widths : ∀ value ∈ date, InWidths value) : readOptionalDate value = .ok date := by
  cases date with
  | none =>
    rw [same.null]
    rfl
  | some date =>
    have object : ∃ members, encodeBusinessDate date = .object members := by
      cases date <;> exact ⟨_, rfl⟩
    obtain ⟨members, written⟩ := object
    rw [orNull] at same
    have read := readBusinessDate_same same (widths date rfl)
    rw [written] at same
    obtain ⟨members', rfl⟩ := same.members
    rw [readOptionalDate, read]
    · rfl
    · intro null
      cases null

theorem decodeAccountable_same {accountable : ExternalWaitAccountable}
    (same : Same (encodeAccountable accountable) value) : decodeAccountable value = .ok accountable := by
  rw [decodeAccountable]
  cases accountable with
  | person reference displayName =>
    rw [requiredString_same same "kind" rfl, ok_bind, if_pos rfl, requiredString_same same "reference" rfl, ok_bind,
      requiredString_same same "display_name" rfl]
    rfl
  | service reference displayName =>
    rw [requiredString_same same "kind" rfl, ok_bind, if_neg (by decide), if_pos rfl,
      requiredString_same same "reference" rfl, ok_bind, requiredString_same same "display_name" rfl]
    rfl
  | role role =>
    rw [requiredString_same same "kind" rfl, ok_bind, if_neg (by decide), if_neg (by decide), if_pos rfl,
      requiredString_same same "role" rfl, ok_bind, parseActorRole_name]
    rfl

theorem decodeResolution_same {resolution : ExternalWaitResolution}
    (same : Same (encodeResolution resolution) value) : decodeResolution value = .ok resolution := by
  obtain ⟨supplied, found, alike⟩ := required_same same "supplied_by" rfl
  have outcome := requiredString_same same "outcome" rfl
  have role := requiredString_same same "recorded_as" rfl
  rw [decodeResolution]
  simp only [outcome, ok_bind, parseExternalWaitOutcome_name, requiredString_same same "detail" rfl,
    optionalString_same same "output_ref" rfl, found, decodeAccountable_same alike,
    requiredString_same same "recorded_by" rfl, role, parseActorRole_name,
    requiredU64_same same "recorded_at_ms" rfl]
  rfl

theorem decodeOptionalResolution_same {resolution : Option ExternalWaitResolution}
    (same : Same (orNull encodeResolution resolution) value) : decodeOptionalResolution value = .ok resolution := by
  cases resolution with
  | none =>
    rw [same.null]
    rfl
  | some resolution =>
    have read := decodeResolution_same same
    obtain ⟨members, rfl⟩ := Same.members same
    rw [decodeOptionalResolution, read]
    · rfl
    · exact nofun

theorem decodeScope_same {affected : List WorkId}
    (same : Same (.array (affected.map fun workId => .string workId.value)) value) :
    decodeScope value = .ok affected := by
  have texts : affected.map (fun workId => Value.string workId.value) =
      (affected.map TypedId.value).map .string := by rw [List.map_map]; rfl
  rw [texts] at same
  rw [same.strings, ← texts]
  exact decodeScope_encode affected

end Options

section Reads

variable {payload : Value}

structure ReadsSchedule (payload : Value) (schedule : BusinessSchedule) : Prop where
  version : requiredU64 payload "version" = .ok 1
  notBefore : required payload "not_before" >>= readOptionalDate = .ok schedule.notBefore
  due : required payload "due" >>= readOptionalDate = .ok schedule.due
  plannedStart : required payload "planned_start" >>= readOptionalDate = .ok schedule.plannedStart
  plannedEnd : required payload "planned_end" >>= readOptionalDate = .ok schedule.plannedEnd

theorem optionalDate_same {value : Value} (same : Same value payload) (key : String) {date : Option BusinessDate}
    (found : value.get? key = some (orNull encodeBusinessDate date)) (widths : ∀ value ∈ date, InWidths value) :
    required payload key >>= readOptionalDate = .ok date := by
  obtain ⟨field, there, alike⟩ := required_same same key found
  rw [there, ok_bind, readOptionalDate_same alike widths]

theorem readsSchedule_same {record : WorkScheduleRecord} (same : Same (schedulePayload record) payload)
    (widths : ∀ date ∈ record.schedule.values, InWidths date) : ReadsSchedule payload record.schedule where
  version := requiredU64_same same "version" rfl
  notBefore := optionalDate_same same "not_before" rfl fun date given =>
    widths date (by simp_all [BusinessSchedule.values])
  due := optionalDate_same same "due" rfl fun date given => widths date (by simp_all [BusinessSchedule.values])
  plannedStart := optionalDate_same same "planned_start" rfl fun date given =>
    widths date (by simp_all [BusinessSchedule.values])
  plannedEnd := optionalDate_same same "planned_end" rfl fun date given =>
    widths date (by simp_all [BusinessSchedule.values])

theorem ReadsSchedule.unique {schedule schedule' : BusinessSchedule} (reads : ReadsSchedule payload schedule)
    (reads' : ReadsSchedule payload schedule') : schedule = schedule' := by
  obtain ⟨notBefore, due, plannedStart, plannedEnd⟩ := schedule
  obtain rfl := Except.ok.inj (reads.notBefore.symm.trans reads'.notBefore)
  obtain rfl := Except.ok.inj (reads.due.symm.trans reads'.due)
  obtain rfl := Except.ok.inj (reads.plannedStart.symm.trans reads'.plannedStart)
  obtain rfl := Except.ok.inj (reads.plannedEnd.symm.trans reads'.plannedEnd)
  rfl

/-- The wait that the fields of a payload give, under the names of its row. -/
structure ReadsWait (payload : Value) (wait : ExternalWait) : Prop where
  version : requiredU64 payload "version" = .ok 1
  revision : requiredU64 payload "revision" = .ok wait.revision
  affected : required payload "affected_work_ids" >>= decodeScope = .ok wait.affectedWorkIds
  state : requiredString payload "state" >>= parseExternalWaitState = .ok wait.state
  resolution : required payload "resolution" >>= decodeOptionalResolution = .ok wait.resolution
  source : requiredString payload "source_work_id" = .ok wait.sourceWorkId.value
  category : requiredString payload "category" >>= parseExternalWaitCategory = .ok wait.category
  reason : requiredString payload "reason" = .ok wait.reason
  accountable : required payload "accountable" >>= decodeAccountable = .ok wait.accountable
  expectedDecision : optionalString payload "expected_decision" = .ok wait.expectedDecision
  expectedOutput : optionalString payload "expected_output" = .ok wait.expectedOutput
  followUp : required payload "follow_up" >>= readOptionalDate = .ok wait.followUp
  civilTime : optionalU64 payload "civil_time_setting_revision" = .ok wait.civilTimeSettingRevision
  createdBy : requiredString payload "created_by" = .ok wait.createdBy
  createdAt : requiredU64 payload "created_at_ms" = .ok wait.createdAt.value

theorem readsWait_same {wait : ExternalWait} (same : Same (Store.encodeExternalWait wait) payload)
    (widths : ∀ date ∈ wait.followUp, InWidths date) : ReadsWait payload wait where
  version := requiredU64_same same "version" rfl
  revision := requiredU64_same same "revision" rfl
  affected := by
    obtain ⟨field, there, alike⟩ := required_same same "affected_work_ids" rfl
    rw [there, ok_bind, decodeScope_same alike]
  state := by rw [requiredString_same same "state" rfl, ok_bind, parseExternalWaitState_name]
  resolution := by
    obtain ⟨field, there, alike⟩ := required_same same "resolution" rfl
    rw [there, ok_bind, decodeOptionalResolution_same alike]
  source := requiredString_same same "source_work_id" rfl
  category := by rw [requiredString_same same "category" rfl, ok_bind, parseExternalWaitCategory_name]
  reason := requiredString_same same "reason" rfl
  accountable := by
    obtain ⟨field, there, alike⟩ := required_same same "accountable" rfl
    rw [there, ok_bind, decodeAccountable_same alike]
  expectedDecision := optionalString_same same "expected_decision" rfl
  expectedOutput := optionalString_same same "expected_output" rfl
  followUp := optionalDate_same same "follow_up" rfl widths
  civilTime := optionalU64_same same "civil_time_setting_revision" rfl
  createdBy := requiredString_same same "created_by" rfl
  createdAt := requiredU64_same same "created_at_ms" rfl

theorem ReadsWait.unique {wait wait' : ExternalWait} (reads : ReadsWait payload wait)
    (reads' : ReadsWait payload wait') (waitId : wait.id = wait'.id) (projectId : wait.projectId = wait'.projectId) :
    wait = wait' := by
  obtain ⟨id, project, ⟨source⟩, affected, category, reason, accountable, expectedDecision, expectedOutput, followUp,
    civilTime, revision, state, createdBy, ⟨createdAt⟩, resolution⟩ := wait
  obtain rfl := waitId
  obtain rfl := projectId
  obtain rfl := Except.ok.inj (reads.affected.symm.trans reads'.affected)
  obtain rfl := Except.ok.inj (reads.category.symm.trans reads'.category)
  obtain rfl := Except.ok.inj (reads.reason.symm.trans reads'.reason)
  obtain rfl := Except.ok.inj (reads.accountable.symm.trans reads'.accountable)
  obtain rfl := Except.ok.inj (reads.expectedDecision.symm.trans reads'.expectedDecision)
  obtain rfl := Except.ok.inj (reads.expectedOutput.symm.trans reads'.expectedOutput)
  obtain rfl := Except.ok.inj (reads.followUp.symm.trans reads'.followUp)
  obtain rfl := Except.ok.inj (reads.civilTime.symm.trans reads'.civilTime)
  obtain rfl := Except.ok.inj (reads.revision.symm.trans reads'.revision)
  obtain rfl := Except.ok.inj (reads.state.symm.trans reads'.state)
  obtain rfl := Except.ok.inj (reads.createdBy.symm.trans reads'.createdBy)
  obtain rfl := Except.ok.inj (reads.source.symm.trans reads'.source)
  obtain rfl := Except.ok.inj (reads.createdAt.symm.trans reads'.createdAt)
  obtain rfl := Except.ok.inj (reads.resolution.symm.trans reads'.resolution)
  rfl

end Reads

section RoundTrip

variable {json : JsonText} {payload : Value}

theorem parsePayload_same {label text : String} {members : List (String × Value)}
    (read : json.fromStr text = .ok payload) (same : Same (.object members) payload) :
    parsePayload json text label = .ok payload := by
  obtain ⟨members', rfl⟩ := same.members
  rw [parsePayload, read]
  rfl

theorem checked_iff {date : Option BusinessDate} :
    date.forM checkBusinessDate = .ok () ↔ date.forM BusinessDate.validate = .ok () := by
  simp only [option_forM_eq_ok, checkBusinessDate, mapError_eq_ok]

theorem decodeBusinessDate_read {key : String} {date : Option BusinessDate}
    (read : required payload key >>= readOptionalDate = .ok date) :
    required payload key >>= decodeBusinessDate = (do
      date.forM checkBusinessDate
      return date) := by
  obtain ⟨field, there, dated⟩ := bind_eq_ok.mp read
  rw [there, ok_bind, decodeBusinessDate_eq, dated, ok_bind]

theorem decodeBusinessDate_valid {key : String} {date : Option BusinessDate}
    (read : required payload key >>= readOptionalDate = .ok date) (valid : date.forM BusinessDate.validate = .ok ()) :
    required payload key >>= decodeBusinessDate = .ok date := by
  rw [decodeBusinessDate_read read, checked_iff.mpr valid]
  rfl

theorem BusinessSchedule.dates_valid {schedule : BusinessSchedule} (valid : schedule.validate = .ok ()) :
    schedule.notBefore.forM BusinessDate.validate = .ok () ∧ schedule.due.forM BusinessDate.validate = .ok () ∧
      schedule.plannedStart.forM BusinessDate.validate = .ok () ∧
      schedule.plannedEnd.forM BusinessDate.validate = .ok () := by
  have each := forM_eq_ok.mp (check_eq_ok.mp valid).1
  simp only [option_forM_eq_ok]
  refine ⟨?_, ?_, ?_, ?_⟩ <;> intro date given <;> exact each date (by simp_all [BusinessSchedule.values])

theorem decodeWorkScheduleRecord_reads {record : WorkScheduleRecord} {text : String}
    (parsed : parsePayload json text "work schedule" = .ok payload) (reads : ReadsSchedule payload record.schedule)
    (valid : record.validate = .ok ()) :
    decodeWorkScheduleRecord json record.projectId.value record.workId.value record.revision text
      record.civilTimeSettingRevision record.updatedAt.value = .ok record := by
  obtain ⟨notBefore, due, plannedStart, plannedEnd⟩ := BusinessSchedule.dates_valid (check_eq_ok.mp valid).1
  rw [decodeWorkScheduleRecord, parsed, ok_bind, reads.version, ok_bind, refuse_of_not (by decide), ok_bind,
    decodeBusinessDate_valid reads.notBefore notBefore, ok_bind, decodeBusinessDate_valid reads.due due, ok_bind,
    decodeBusinessDate_valid reads.plannedStart plannedStart, ok_bind,
    decodeBusinessDate_valid reads.plannedEnd plannedEnd, ok_bind]
  change (do
    record.validate.mapError _
    return record) = _
  rw [mapError_eq_ok.mpr valid]
  rfl

theorem decodeExternalWait_reads {wait : ExternalWait} {text : String}
    (parsed : parsePayload json text "external wait" = .ok payload) (reads : ReadsWait payload wait) :
    decodeExternalWait json wait.projectId.value wait.id.value wait.revision text = (do
      wait.followUp.forM checkBusinessDate
      return wait) := by
  rw [decodeExternalWait, parsed, ok_bind, reads.version, ok_bind, refuse_of_not (by decide), ok_bind, reads.revision,
    ok_bind, refuse_of_not (not_not.mpr rfl), ok_bind, reads.affected, ok_bind, reads.state, ok_bind, reads.resolution,
    ok_bind, reads.source, ok_bind, reads.category, ok_bind, reads.reason, ok_bind, reads.accountable, ok_bind,
    reads.expectedDecision, ok_bind, reads.expectedOutput, ok_bind, decodeBusinessDate_read reads.followUp]
  cases wait.followUp.forM checkBusinessDate with
  | error error => rfl
  | ok checked =>
    rw [ok_bind, ok_bind, pure_bind, reads.civilTime, ok_bind, reads.createdBy, ok_bind, reads.createdAt]
    rfl

theorem decodeWorkScheduleRecord_encode {record : WorkScheduleRecord}
    (readsBack : json.ReadsBack (schedulePayload record)) (widths : ∀ date ∈ record.schedule.values, InWidths date)
    (valid : record.validate = .ok ()) :
    decodeWorkScheduleRecord json record.projectId.value record.workId.value record.revision
      (encodeSchedulePayload json record) record.civilTimeSettingRevision record.updatedAt.value = .ok record := by
  obtain ⟨payload, read, same⟩ := readsBack
  exact decodeWorkScheduleRecord_reads (parsePayload_same read same) (readsSchedule_same same widths) valid

theorem decodeExternalWait_encode_iff {wait : ExternalWait}
    (readsBack : json.ReadsBack (Store.encodeExternalWait wait)) (widths : ∀ date ∈ wait.followUp, InWidths date) :
    decodeExternalWait json wait.projectId.value wait.id.value wait.revision (encodeExternalWait json wait) = .ok wait ↔
      wait.followUp.forM BusinessDate.validate = .ok () := by
  obtain ⟨payload, read, same⟩ := readsBack
  rw [encodeExternalWait, decodeExternalWait_reads (parsePayload_same read same) (readsWait_same same widths),
    ← checked_iff]
  cases wait.followUp.forM checkBusinessDate with
  | error error => exact iff_of_false nofun nofun
  | ok checked => exact iff_of_true rfl rfl

theorem readsBack_common {value value' : Value} (readsBack : json.ReadsBack value)
    (readsBack' : json.ReadsBack value') (texts : json.toString value = json.toString value') :
    ∃ payload, Same value payload ∧ Same value' payload := by
  obtain ⟨payload, read, same⟩ := readsBack
  obtain ⟨payload', read', same'⟩ := readsBack'
  rw [texts, read'] at read
  obtain rfl := Except.ok.inj read
  exact ⟨payload', same, same'⟩

/-- A valid schedule decodes to itself, and a wait does exactly if its follow-up is valid; under one
identity, equal payloads are those of equal records. -/
theorem schedulingPayload_roundTrip (json : JsonText) :
    (∀ record : WorkScheduleRecord, json.ReadsBack (schedulePayload record) →
      (∀ date ∈ record.schedule.values, InWidths date) → record.validate = .ok () →
      decodeWorkScheduleRecord json record.projectId.value record.workId.value record.revision
        (encodeSchedulePayload json record) record.civilTimeSettingRevision record.updatedAt.value = .ok record) ∧
    (∀ wait : ExternalWait, json.ReadsBack (Store.encodeExternalWait wait) →
      (∀ date ∈ wait.followUp, InWidths date) →
      (decodeExternalWait json wait.projectId.value wait.id.value wait.revision (encodeExternalWait json wait) =
        .ok wait ↔ wait.followUp.forM BusinessDate.validate = .ok ())) ∧
    (∀ record record' : WorkScheduleRecord, json.ReadsBack (schedulePayload record) →
      json.ReadsBack (schedulePayload record') → (∀ date ∈ record.schedule.values, InWidths date) →
      (∀ date ∈ record'.schedule.values, InWidths date) → record.projectId = record'.projectId →
      record.workId = record'.workId → record.revision = record'.revision →
      record.civilTimeSettingRevision = record'.civilTimeSettingRevision → record.updatedAt = record'.updatedAt →
      encodeSchedulePayload json record = encodeSchedulePayload json record' → record = record') ∧
    ∀ wait wait' : ExternalWait, json.ReadsBack (Store.encodeExternalWait wait) →
      json.ReadsBack (Store.encodeExternalWait wait') → (∀ date ∈ wait.followUp, InWidths date) →
      (∀ date ∈ wait'.followUp, InWidths date) → wait.id = wait'.id → wait.projectId = wait'.projectId →
      encodeExternalWait json wait = encodeExternalWait json wait' → wait = wait' := by
  refine ⟨?_, ?_, ?_, ?_⟩
  · intro record readsBack widths valid
    exact decodeWorkScheduleRecord_encode readsBack widths valid
  · intro wait readsBack widths
    exact decodeExternalWait_encode_iff readsBack widths
  · intro record record' readsBack readsBack' widths widths' project work revision civilTime updated texts
    obtain ⟨payload, same, same'⟩ := readsBack_common readsBack readsBack' texts
    have schedule := (readsSchedule_same same widths).unique (readsSchedule_same same' widths')
    obtain ⟨_, _, _, _, _, _⟩ := record
    obtain ⟨_, _, _, _, _, _⟩ := record'
    obtain rfl := project
    obtain rfl := work
    obtain rfl := revision
    obtain rfl := civilTime
    obtain rfl := updated
    obtain rfl := schedule
    rfl
  · intro wait wait' readsBack readsBack' widths widths' waitId project texts
    obtain ⟨payload, same, same'⟩ := readsBack_common readsBack readsBack' texts
    exact (readsWait_same same widths).unique (readsWait_same same' widths') waitId project

/-- A library that has the compact texts, and reads every text as one value. -/
def jsonOf (value : Value) : JsonText := ⟨fun value => String.ofList value.encode, fun _ => .ok value⟩

theorem jsonOf_readsBack (value : Value) : (jsonOf value).ReadsBack value := ⟨value, rfl, .refl value⟩

def sampleSchedule : WorkScheduleRecord where
  projectId := ⟨"p"⟩
  workId := ⟨"w"⟩
  revision := 2
  schedule := ⟨some (.localDate ⟨2026, 3, 8⟩), some (.instant ⟨1800000000000⟩), none, none⟩
  civilTimeSettingRevision := some 4
  updatedAt := ⟨1800000000100⟩

def sampleWait (followUp : LocalDate) : ExternalWait where
  id := ⟨"wait"⟩
  projectId := ⟨"p"⟩
  sourceWorkId := ⟨"w"⟩
  affectedWorkIds := [⟨"v"⟩]
  category := .decision
  reason := "decision required"
  accountable := .service "provider" "Provider"
  expectedDecision := some "approve"
  expectedOutput := none
  followUp := some (.localDate followUp)
  civilTimeSettingRevision := some 3
  revision := 1
  state := .opened
  createdBy := "operator"
  createdAt := ⟨1800000000000⟩
  resolution := none

theorem schedulingPayload_roundTrip_samples :
    decodeWorkScheduleRecord (jsonOf (schedulePayload sampleSchedule)) "p" "w" 2
      (encodeSchedulePayload (jsonOf (schedulePayload sampleSchedule)) sampleSchedule) (some 4) 1800000000100 =
        .ok sampleSchedule ∧
    decodeExternalWait (jsonOf (Store.encodeExternalWait (sampleWait ⟨2026, 11, 1⟩))) "p" "wait" 1
      (encodeExternalWait (jsonOf (Store.encodeExternalWait (sampleWait ⟨2026, 11, 1⟩))) (sampleWait ⟨2026, 11, 1⟩)) =
        .ok (sampleWait ⟨2026, 11, 1⟩) := by
  constructor
  · refine (schedulingPayload_roundTrip (jsonOf (schedulePayload sampleSchedule))).1 sampleSchedule
      (jsonOf_readsBack _) ?_ ?_
    · simp [sampleSchedule, BusinessSchedule.values, InWidths, DateInWidths, LocalDate.InYears]
    · decide
  · refine ((schedulingPayload_roundTrip (jsonOf _)).2.1 (sampleWait ⟨2026, 11, 1⟩) (jsonOf_readsBack _) ?_).mpr ?_
    · simp [sampleWait, InWidths, DateInWidths, LocalDate.InYears]
    · decide

theorem schedulingPayload_invalid_followUp :
    (jsonOf (Store.encodeExternalWait (sampleWait ⟨2026, 13, 1⟩))).ReadsBack
        (Store.encodeExternalWait (sampleWait ⟨2026, 13, 1⟩)) ∧
      decodeExternalWait (jsonOf (Store.encodeExternalWait (sampleWait ⟨2026, 13, 1⟩))) "p" "wait" 1
        (encodeExternalWait (jsonOf (Store.encodeExternalWait (sampleWait ⟨2026, 13, 1⟩))) (sampleWait ⟨2026, 13, 1⟩)) ≠
          .ok (sampleWait ⟨2026, 13, 1⟩) := by
  refine ⟨jsonOf_readsBack _, fun decoded => ?_⟩
  have widths : ∀ date ∈ (sampleWait ⟨2026, 13, 1⟩).followUp, InWidths date := by
    simp [sampleWait, InWidths, DateInWidths, LocalDate.InYears]
  have valid := (decodeExternalWait_encode_iff (jsonOf_readsBack _) widths).mp decoded
  exact absurd valid (by decide)

end RoundTrip

end Boreal.Store.Payloads
