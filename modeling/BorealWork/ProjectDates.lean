/- The project's civil date at an instant: derived forward from the zone's offset, and checked backward
against the beginnings of that date and of the next. -/
import BorealWork.BundleCodec
import BorealWork.LocalTimeResolution

namespace Boreal.Planning
open Drain LocalClock WorkModel
open TimeZones.Planning (TzifZone)

section Code

def fromEpochDays (days : ℤ) : Except ModelError LocalDate := do
  let date := civilFromDays days
  date.validate
  return date

def settingContext (setting : Store.ProjectCivilTimeSetting) (asOf : TimestampMs) (civilDate : LocalDate) :
    Except ModelError BusinessTimeContext := do
  setting.validate
  let context : BusinessTimeContext :=
    { projectId := setting.projectId
      settingRevision := setting.revision
      asOf
      civilDate
      timezone := setting.timezone
      tzdbIdentity := setting.tzdbIdentity }
  context.validate
  return context

variable (files : Files) (database : SystemTimeZoneDatabase)

def resolveBusinessDateBoundary (boundary : BusinessDateBoundary) (context : BusinessTimeContext) :
    Except PlanningError TimestampMs := do
  context.validate.mapError (.domain ∘ .model)
  match boundary with
  | .instant at_ => return at_
  | .localDateStart date => do
    let resolution ← database.resolve files context.timezone ⟨date, ⟨0, 0, 0⟩⟩ .nextValid .earlierOffset
    refuse (resolution.tzdbIdentity ≠ context.tzdbIdentity)
      (.timeZoneParse "project civil-time context uses a different tzdb identity")
    return resolution.utcInstant

def validateProjectCivilTimeContext (setting : Store.ProjectCivilTimeSetting)
    (context : BusinessTimeContext) : Except PlanningError Unit := do
  setting.validate.mapError (.domain ∘ .model)
  context.validate.mapError (.domain ∘ .model)
  refuse (setting.projectId ≠ context.projectId ∨ setting.revision ≠ context.settingRevision ∨
      setting.timezone ≠ context.timezone ∨ setting.tzdbIdentity ≠ context.tzdbIdentity)
    (.invalid "business-time context does not match the current project civil-time setting")
  let start ← resolveBusinessDateBoundary files database (.localDateStart context.civilDate) context
  let followingDate ← (context.civilDate.addDays 1).mapError (.domain ∘ .model)
  let stop ← resolveBusinessDateBoundary files database (.localDateStart followingDate) context
  refuse (context.asOf < start ∨ stop ≤ context.asOf ∨ stop ≤ start)
    (.invalid "project civil date does not contain the observed instant")

def businessTimeContext (setting : Store.ProjectCivilTimeSetting) (asOf : TimestampMs) :
    Except PlanningError BusinessTimeContext := do
  setting.validate.mapError (.domain ∘ .model)
  let (bytes, _) ← database.readZone files setting.timezone
  refuse (sha256ContentDigest bytes ≠ setting.tzdbIdentity)
    (.timeZoneParse "project civil-time setting does not match the selected timezone database")
  let zone ← (TzifZone.parse bytes).mapError .timeZoneParse
  let utcSeconds ← (TimeZones.checked (asOf.value / 1000)).elim
    (.error (.invalid "observed instant is outside the timezone range")) .ok
  let localSeconds ← (TimeZones.checked (utcSeconds + zone.offsetAt utcSeconds)).elim
    (.error (.invalid "local instant overflow")) .ok
  let civilDate ← (fromEpochDays (localSeconds / 86400)).mapError (.domain ∘ .model)
  let context ← (settingContext setting asOf civilDate).mapError (.domain ∘ .model)
  validateProjectCivilTimeContext files database setting context
  return context

end Code

section Boundaries

variable {files : Files} {database : SystemTimeZoneDatabase} {timezone path : String} {bytes : List UInt8}
  {zone : TzifZone} {context : BusinessTimeContext}

theorem secondsOf_midnight (date : LocalDate) : secondsOf ⟨date, ⟨0, 0, 0⟩⟩ = date.dayNumber * 86400 := by
  simp [secondsOf]

theorem resolveBusinessDateBoundary_eq_ok (named : isBlank timezone = false)
    (read : database.readZone files timezone = .ok (bytes, path)) (parsed : TzifZone.parse bytes = .ok zone)
    (sound : context.validate = .ok ()) (zoned : context.timezone = timezone)
    (pinned : context.tzdbIdentity = sha256ContentDigest bytes) {date : LocalDate} (inYears : date.InYears)
    (onCalendar : date.OnCalendar) {moment : TimestampMs} :
    resolveBusinessDateBoundary files database (.localDateStart date) context = .ok moment ↔
      ∃ utc offset, zone.clock.Begins (date.dayNumber * 86400) utc offset ∧ Representable utc ∧
        IsOffset offset ∧ moment = ⟨(utc * 1000).toNat⟩ := by
  have valid : LocalDateTime.validate ⟨date, ⟨0, 0, 0⟩⟩ = .ok () :=
    LocalDateTime.validate_eq_ok.mpr ⟨onCalendar, Nat.zero_le _, Nat.zero_le _, Nat.zero_le _⟩
  have formed := TzifZone.formed_of_parse parsed
  have roomy := (localSeconds_eq inYears valid).2
  have select (utc offset : ℤ) := @selectInstant_earlier _ _ utc offset .nextValid formed roomy
  rw [secondsOf_midnight] at select
  rw [resolveBusinessDateBoundary, check_eq_ok, mapError_eq_ok, and_iff_right sound, bind_eq_ok, zoned]
  simp only [resolve_eq_ok named read parsed inYears valid, secondsOf_midnight, select]
  constructor
  · rintro ⟨resolution, ⟨utc, offset, begins, inside, whole, rfl⟩, done⟩
    obtain ⟨-, made⟩ := check_eq_ok.mp done
    exact ⟨utc, offset, begins, inside, whole, (Except.ok.inj made).symm⟩
  · rintro ⟨utc, offset, begins, inside, whole, rfl⟩
    refine ⟨_, ⟨utc, offset, begins, inside, whole, rfl⟩, check_eq_ok.mpr ⟨?_, rfl⟩⟩
    exact refuse_of_not (not_not.mpr pinned.symm)

end Boundaries

section Dates

def dayAt (zone : TzifZone) (utc : ℤ) : ℤ := zone.clock.shown utc / 86400

/-- No setting back of the zone carries an instant over a midnight: that of its own date has been shown
by then if it ever is, and that of the next has neither been shown nor passed for good; and both begin
at instants and with offsets that can be recorded. -/
structure DateKept (zone : TzifZone) (utc : ℤ) : Prop where
  own : (∃ s, zone.clock.Reads s (dayAt zone utc * 86400)) →
    ∃ s ≤ utc, zone.clock.Reads s (dayAt zone utc * 86400)
  unread : ∀ s ≤ utc, ¬ zone.clock.Reads s ((dayAt zone utc + 1) * 86400)
  ahead : (∀ s, ¬ zone.clock.Reads s ((dayAt zone utc + 1) * 86400)) →
    ∀ s ≤ utc, zone.clock.shown s < (dayAt zone utc + 1) * 86400
  recorded : ∀ day ∈ [dayAt zone utc, dayAt zone utc + 1], ∀ start offset,
    zone.clock.Begins (day * 86400) start offset → Representable start ∧ IsOffset offset

variable {zone : TzifZone} {utc : ℤ}

theorem dateKept_iff (ordered : zone.clock.Ordered) : DateKept zone utc ↔
    ∃ start offset stop offset',
      zone.clock.Begins (dayAt zone utc * 86400) start offset ∧ Representable start ∧ IsOffset offset ∧
      zone.clock.Begins ((dayAt zone utc + 1) * 86400) stop offset' ∧ Representable stop ∧ IsOffset offset' ∧
      start ≤ utc ∧ utc < stop := by
  obtain ⟨start, offset, begins⟩ := ordered.exists_begins (dayAt zone utc * 86400)
  obtain ⟨stop, offset', begins'⟩ := ordered.exists_begins ((dayAt zone utc + 1) * 86400)
  have reached : dayAt zone utc * 86400 ≤ zone.clock.shown utc := by
    rw [dayAt]
    omega
  have begun := begins.le_iff ordered reached
  have open_ := begins'.lt_iff (s := utc) ordered
  constructor
  · rintro ⟨own, unread, ahead, recorded⟩
    obtain ⟨inside, whole⟩ := recorded _ List.mem_cons_self _ _ begins
    obtain ⟨inside', whole'⟩ := recorded _ (List.mem_cons_of_mem _ List.mem_cons_self) _ _ begins'
    exact ⟨start, offset, stop, offset', begins, inside, whole, begins', inside', whole', begun.mpr own,
      open_.mpr ⟨unread, ahead⟩⟩
  · rintro ⟨_, _, _, _, again, inside, whole, again', inside', whole', started, unended⟩
    obtain ⟨rfl, rfl⟩ := begins.unique again
    obtain ⟨rfl, rfl⟩ := begins'.unique again'
    obtain ⟨unread, ahead⟩ := open_.mp unended
    refine ⟨begun.mp started, unread, ahead, ?_⟩
    intro day member first offset₀ other
    rcases List.mem_cons.mp member with rfl | next
    · obtain ⟨rfl, rfl⟩ := begins.unique other
      exact ⟨inside, whole⟩
    · obtain rfl := List.mem_singleton.mp next
      obtain ⟨rfl, rfl⟩ := begins'.unique other
      exact ⟨inside', whole'⟩

theorem dayAt_le {utc' : ℤ} (le : utc ≤ utc')
    (forward : ∀ s, utc < s → s ≤ utc' → ¬ zone.clock.SetBack s) : dayAt zone utc ≤ dayAt zone utc' :=
  Int.ediv_le_ediv (by decide) (shown_le le forward)

theorem begins_near (ordered : zone.clock.Ordered) (formed : TzifZone.Formed zone) {bound : ℤ}
    (near : ∀ offset ∈ zone.offsets, -bound ≤ offset ∧ offset ≤ bound) {reading start offset : ℤ}
    (begins : zone.clock.Begins reading start offset) :
    offset ∈ zone.offsets ∧ reading - bound ≤ start ∧ start ≤ reading + bound := by
  have known : offset ∈ zone.offsets := begins.offset_eq ordered ▸ formed.offsetAt_mem start
  refine ⟨known, ?_⟩
  cases begins with
  | shown reads _ =>
    have own := near _ known
    rw [Clock.Reads, Clock.shown] at reads
    omega
  | leapt _ leap =>
    obtain ⟨-, -, before, after⟩ := leapFrom_spec ordered leap
    have own := near _ known
    have previous := near _ (formed.offsetAt_mem (start - 1))
    rw [Clock.offsetAt, TzifZone.clock] at previous
    rw [TzifZone.clock] at before
    dsimp only at previous before
    omega

theorem recorded_of_day (ordered : zone.clock.Ordered) (formed : TzifZone.Formed zone)
    (near : ∀ offset ∈ zone.offsets, -86400 ≤ offset ∧ offset ≤ 86400) (late : 3 * 86400 ≤ utc)
    (early : utc < 2 ^ 53) : ∀ day ∈ [dayAt zone utc, dayAt zone utc + 1], ∀ start offset,
      zone.clock.Begins (day * 86400) start offset → Representable start ∧ IsOffset offset := by
  intro day member start offset begins
  obtain ⟨known, low, high⟩ := begins_near ordered formed near begins
  have here := near _ (formed.offsetAt_mem utc)
  have own := near _ known
  have beside : dayAt zone utc ≤ day ∧ day ≤ dayAt zone utc + 1 := by
    rcases List.mem_cons.mp member with rfl | next
    · omega
    · obtain rfl := List.mem_singleton.mp next
      omega
  rw [dayAt, Clock.shown] at beside
  exact ⟨⟨by omega, by omega⟩, Int.tdiv_le_tdiv (by decide) own.1, Int.tdiv_le_tdiv (by decide) own.2⟩

end Dates

section Contexts

variable {files : Files} {database : SystemTimeZoneDatabase} {path : String} {bytes : List UInt8}
  {zone : TzifZone} {setting : Store.ProjectCivilTimeSetting}

theorem fromEpochDays_eq {n : ℤ} (supported : Supported n) : fromEpochDays n = .ok (civilDate n) := by
  rw [fromEpochDays, civilFromDays_supported supported]
  exact bind_eq_ok.mpr ⟨(), LocalDate.validate_eq_ok.mpr (civilDate_spec n).1, rfl⟩

theorem addDays_one {n : ℤ} (supported : Supported (n + 1)) :
    (civilDate n).addDays 1 = .ok (civilDate (n + 1)) := by
  obtain ⟨onCalendar, number⟩ := civilDate_spec n
  have next : daysFromCivil (civilDate n).year (civilDate n).month (civilDate n).day + 1 = n + 1 :=
    congrArg (· + 1) number
  rw [LocalDate.addDays, LocalDate.validate_eq_ok.mpr onCalendar, next, civilFromDays_supported supported]
  exact check_eq_ok.mpr ⟨rfl, check_eq_ok.mpr ⟨LocalDate.validate_eq_ok.mpr (civilDate_spec (n + 1)).1, rfl⟩⟩

def contextOf (setting : Store.ProjectCivilTimeSetting) (asOf : TimestampMs) (civilDate : LocalDate) :
    BusinessTimeContext where
  projectId := setting.projectId
  settingRevision := setting.revision
  asOf
  civilDate
  timezone := setting.timezone
  tzdbIdentity := setting.tzdbIdentity

theorem isBoundedText_iff {limit : ℕ} {text : String} : isBoundedText limit text = true ↔
    isBlank text = false ∧ text.utf8ByteSize ≤ limit ∧ text.toList.any isControl = false := by
  rw [isBoundedText, Bool.and_eq_true, Bool.and_eq_true, Bool.not_eq_true', decide_eq_true_eq,
    Bool.not_eq_true', and_assoc]

theorem setting_valid_iff : setting.validate = .ok () ↔
    isBlank setting.projectId.value = false ∧ setting.revision ≠ 0 ∧
      isBoundedText 255 setting.timezone = true ∧ isBoundedText 512 setting.tzdbIdentity = true ∧
      isBoundedText 255 setting.changedBy = true := by
  rw [Store.ProjectCivilTimeSetting.validate, refuse_eq_ok]
  simp only [not_or, Bool.not_eq_true, Bool.not_eq_false, ne_eq]

theorem setting_named (settled : setting.validate = .ok ()) : isBlank setting.timezone = false :=
  (isBoundedText_iff.mp (setting_valid_iff.mp settled).2.2.1).1

theorem isControl_of_hex {c : Char} (hex : Source.isHexDigit c = true) : isControl c = false := by
  simp only [Source.isHexDigit, Char.isDigit, Bool.or_eq_true, Bool.and_eq_true, decide_eq_true_eq,
    Char.le_def, UInt32.le_iff_toNat_le, ge_iff_le] at hex
  have inside : 48 ≤ c.toNat ∧ c.toNat ≤ 102 := by
    rcases hex with (⟨above, below⟩ | ⟨above, below⟩) | ⟨above, below⟩
    all_goals exact ⟨le_trans (by decide) above, below.trans (by decide)⟩
  rw [isControl, Bool.or_eq_false_iff, decide_eq_false_iff_not, Bool.and_eq_false_iff,
    decide_eq_false_iff_not]
  exact ⟨by omega, .inl (by omega)⟩

theorem isBoundedText_digest (bytes : List UInt8) : isBoundedText 512 (sha256ContentDigest bytes) = true := by
  refine isBoundedText_iff.mpr ⟨isBlank_digest bytes, ?_, ?_⟩
  · rw [sha256ContentDigest, ← Source.length_utf8, Source.length_utf8_contentDigest]
    decide
  · rw [sha256ContentDigest, Source.contentDigest, String.toList_ofList, List.any_append,
      Bool.or_eq_false_iff]
    refine ⟨by decide, List.any_eq_false.mpr fun c member => ?_⟩
    rw [Bool.not_eq_true]
    rcases List.mem_cons.mp member with rfl | digit
    · decide
    · obtain ⟨word, -, inside⟩ := List.mem_flatMap.mp digit
      exact isControl_of_hex (Source.hexWord_hex word c inside)

theorem contextOf_valid (settled : setting.validate = .ok ()) {asOf : TimestampMs} {date : LocalDate}
    (onCalendar : date.OnCalendar) : (contextOf setting asOf date).validate = .ok () := by
  obtain ⟨project, revision, zoned, pinned, -⟩ := setting_valid_iff.mp settled
  obtain ⟨named, short, plain⟩ := isBoundedText_iff.mp zoned
  obtain ⟨named', short', plain'⟩ := isBoundedText_iff.mp pinned
  rw [BusinessTimeContext.validate, check_eq_ok, LocalDate.validate_eq_ok]
  refine ⟨onCalendar, if_neg ?_⟩
  simp only [contextOf, project, named, named', plain, plain', revision, short.not_gt, short'.not_gt,
    Bool.false_eq_true, or_self, not_false_eq_true]

theorem settingContext_eq (settled : setting.validate = .ok ()) {asOf : TimestampMs} {date : LocalDate}
    (onCalendar : date.OnCalendar) :
    settingContext setting asOf date = .ok (contextOf setting asOf date) := by
  rw [settingContext, settled]
  exact check_eq_ok.mpr ⟨rfl, check_eq_ok.mpr ⟨contextOf_valid settled onCalendar, rfl⟩⟩

theorem within_iff {asOf : TimestampMs} {start stop : ℤ} (inside : Representable start)
    (inside' : Representable stop) :
    ¬ (asOf < ⟨(start * 1000).toNat⟩ ∨ (⟨(stop * 1000).toNat⟩ : TimestampMs) ≤ asOf ∨
        (⟨(stop * 1000).toNat⟩ : TimestampMs) ≤ ⟨(start * 1000).toNat⟩) ↔
      start ≤ asOf.value / 1000 ∧ asOf.value / 1000 < stop := by
  obtain ⟨low, -⟩ := inside
  obtain ⟨low', -⟩ := inside'
  change ¬ (asOf.value < (start * 1000).toNat ∨ (stop * 1000).toNat ≤ asOf.value ∨
    (stop * 1000).toNat ≤ (start * 1000).toNat) ↔ _
  omega

theorem validateProjectCivilTimeContext_eq_ok
    (read : database.readZone files setting.timezone = .ok (bytes, path))
    (parsed : TzifZone.parse bytes = .ok zone) (settled : setting.validate = .ok ())
    (pinned : setting.tzdbIdentity = sha256ContentDigest bytes) {asOf : TimestampMs} {n : ℤ}
    (supported : Supported n) (supported' : Supported (n + 1)) :
    validateProjectCivilTimeContext files database setting (contextOf setting asOf (civilDate n)) = .ok () ↔
      ∃ start offset stop offset', zone.clock.Begins (n * 86400) start offset ∧ Representable start ∧
        IsOffset offset ∧ zone.clock.Begins ((n + 1) * 86400) stop offset' ∧ Representable stop ∧
        IsOffset offset' ∧ start ≤ asOf.value / 1000 ∧ asOf.value / 1000 < stop := by
  obtain ⟨onCalendar, number⟩ := civilDate_spec n
  obtain ⟨onCalendar', number'⟩ := civilDate_spec (n + 1)
  have sound : (contextOf setting asOf (civilDate n)).validate = .ok () := contextOf_valid settled onCalendar
  have first (moment : TimestampMs) := @resolveBusinessDateBoundary_eq_ok _ _ _ _ _ _ _
    (setting_named settled) read parsed sound rfl pinned _ (supported_iff.mp supported) onCalendar moment
  have second (moment : TimestampMs) := @resolveBusinessDateBoundary_eq_ok _ _ _ _ _ _ _
    (setting_named settled) read parsed sound rfl pinned _ (supported_iff.mp supported') onCalendar' moment
  rw [number] at first
  rw [number'] at second
  have same : ¬ (setting.projectId ≠ setting.projectId ∨ setting.revision ≠ setting.revision ∨
      setting.timezone ≠ setting.timezone ∨ setting.tzdbIdentity ≠ setting.tzdbIdentity) := by simp
  have next := addDays_one supported'
  rw [validateProjectCivilTimeContext, check_eq_ok, mapError_eq_ok, check_eq_ok, mapError_eq_ok,
    and_iff_right settled, and_iff_right sound, check_eq_ok, refuse_eq_ok]
  refine (and_iff_right same).trans ?_
  rw [bind_eq_ok]
  constructor
  · rintro ⟨moment, opened, rest⟩
    obtain ⟨start, offset, begins, inside, whole, rfl⟩ := (first moment).mp opened
    obtain ⟨following, made, rest⟩ := bind_eq_ok.mp rest
    obtain rfl := Except.ok.inj (next.symm.trans (mapError_eq_ok.mp made))
    obtain ⟨moment', closed, rest⟩ := bind_eq_ok.mp rest
    obtain ⟨stop, offset', begins', inside', whole', rfl⟩ := (second moment').mp closed
    obtain ⟨started, unended⟩ := (within_iff inside inside').mp (refuse_eq_ok.mp rest)
    exact ⟨start, offset, stop, offset', begins, inside, whole, begins', inside', whole', started, unended⟩
  · rintro ⟨start, offset, stop, offset', begins, inside, whole, begins', inside', whole', started, unended⟩
    refine ⟨_, (first _).mpr ⟨start, offset, begins, inside, whole, rfl⟩, ?_⟩
    refine bind_eq_ok.mpr ⟨_, mapError_eq_ok.mpr next, ?_⟩
    refine bind_eq_ok.mpr ⟨_, (second _).mpr ⟨stop, offset', begins', inside', whole', rfl⟩, ?_⟩
    exact refuse_eq_ok.mpr ((within_iff inside inside').mpr ⟨started, unended⟩)

theorem dayAt_supported (formed : TzifZone.Formed zone) {utc : ℤ} (after : 0 ≤ utc) (before : utc < 2 ^ 55) :
    Supported (dayAt zone utc) ∧ Supported (dayAt zone utc + 1) := by
  have least : daysFromCivil (-2 ^ 31) 1 1 = -784353015833 := by decide
  have most : daysFromCivil (2 ^ 31 - 1) 12 31 = 784351576776 := by decide
  obtain ⟨low, high⟩ := formed.narrow _ (formed.offsetAt_mem utc)
  rw [Supported, Supported, least, most, dayAt, Clock.shown]
  omega

theorem businessTimeContext_eq_ok (read : database.readZone files setting.timezone = .ok (bytes, path))
    (parsed : TzifZone.parse bytes = .ok zone) (ordered : zone.transitions.Pairwise (·.1 < ·.1))
    (settled : setting.validate = .ok ()) (pinned : setting.tzdbIdentity = sha256ContentDigest bytes)
    {asOf : TimestampMs} (counted : asOf.value < 2 ^ 64) {context : BusinessTimeContext} :
    businessTimeContext files database setting asOf = .ok context ↔
      DateKept zone (asOf.value / 1000) ∧
        context = contextOf setting asOf (civilDate (dayAt zone (asOf.value / 1000))) := by
  have formed := TzifZone.formed_of_parse parsed
  obtain ⟨supported, supported'⟩ :=
    @dayAt_supported _ formed (asOf.value / 1000) (by omega) (by omega)
  have instant : TimeZones.checked ((asOf.value : ℤ) / 1000) = some ((asOf.value : ℤ) / 1000) :=
    if_pos ⟨by omega, by omega⟩
  have shown : TimeZones.checked ((asOf.value : ℤ) / 1000 + zone.offsetAt ((asOf.value : ℤ) / 1000)) =
      some (zone.clock.shown ((asOf.value : ℤ) / 1000)) := by
    obtain ⟨low, high⟩ := formed.narrow _ (formed.offsetAt_mem ((asOf.value : ℤ) / 1000))
    rw [TzifZone.offsetAt_clock]
    exact if_pos ⟨by omega, by omega⟩
  have derived : fromEpochDays (zone.clock.shown ((asOf.value : ℤ) / 1000) / 86400) =
      .ok (civilDate (dayAt zone (asOf.value / 1000))) := fromEpochDays_eq supported
  have onCalendar := (civilDate_spec (dayAt zone (asOf.value / 1000))).1
  rw [dateKept_iff ordered, ← @validateProjectCivilTimeContext_eq_ok _ _ _ _ _ _ read parsed settled pinned
    asOf _ supported supported', businessTimeContext, settled, read]
  simp only [Except.mapError, ok_bind, refuse_of_not (not_not.mpr pinned.symm), parsed, instant, shown,
    Option.elim_some, derived, settingContext_eq settled onCalendar]
  rw [check_eq_ok]
  refine and_congr_right fun _ => ⟨fun made => (Except.ok.inj made).symm, fun same => ?_⟩
  rw [same]
  rfl

/-- The observed instants with a project date are those from which no setting back keeps a midnight;
their dates do not decrease while the zone is not set back, and the beginnings of dates can be recorded
from the third day on where the zone stays within a day of the meridian. -/
theorem businessTimeContext_exact (read : database.readZone files setting.timezone = .ok (bytes, path))
    (parsed : TzifZone.parse bytes = .ok zone) (ordered : zone.transitions.Pairwise (·.1 < ·.1))
    (settled : setting.validate = .ok ()) (pinned : setting.tzdbIdentity = sha256ContentDigest bytes) :
    (∀ asOf : TimestampMs, asOf.value < 2 ^ 64 →
      ((∃ context, businessTimeContext files database setting asOf = .ok context) ↔
        DateKept zone (asOf.value / 1000))) ∧
    (∀ (asOf asOf' : TimestampMs) (context context' : BusinessTimeContext), asOf ≤ asOf' →
      asOf'.value < 2 ^ 64 → businessTimeContext files database setting asOf = .ok context →
      businessTimeContext files database setting asOf' = .ok context' →
      (∀ s : ℤ, asOf.value / 1000 < s → s ≤ asOf'.value / 1000 → ¬ zone.clock.SetBack s) →
      context.civilDate ≤ context'.civilDate) ∧
    ((∀ offset ∈ zone.offsets, -86400 ≤ offset ∧ offset ≤ 86400) →
      ∀ utc, 3 * 86400 ≤ utc → utc < 2 ^ 53 → ∀ day ∈ [dayAt zone utc, dayAt zone utc + 1],
        ∀ start offset, zone.clock.Begins (day * 86400) start offset →
          Representable start ∧ IsOffset offset) := by
  have date {asOf : TimestampMs} (counted : asOf.value < 2 ^ 64) {context : BusinessTimeContext} :=
    @businessTimeContext_eq_ok _ _ _ _ _ _ read parsed ordered settled pinned _ counted context
  refine ⟨fun asOf counted => ?_, ?_, fun near utc late early => ?_⟩
  · constructor
    · rintro ⟨context, done⟩
      exact ((date counted).mp done).1
    · intro kept
      exact ⟨_, (date counted).mpr ⟨kept, rfl⟩⟩
  · intro asOf asOf' context context' le counted done done' forward
    have le : asOf.value ≤ asOf'.value := le
    rw [((date (le.trans_lt counted)).mp done).2, ((date counted).mp done').2]
    exact civilDate_strictMono.monotone (dayAt_le (by omega) forward)
  · exact recorded_of_day ordered (TzifZone.formed_of_parse parsed) near late early

end Contexts

section Islands

namespace Fixture

def civilSetting (timezone : String) (bytes : List UInt8) : Store.ProjectCivilTimeSetting where
  projectId := ⟨"P"⟩
  revision := 1
  timezone
  tzdbIdentity := sha256ContentDigest bytes
  changedBy := "operator"
  changedAt := ⟨0⟩

theorem civilSetting_valid {timezone : String} (named : isBoundedText 255 timezone = true)
    (bytes : List UInt8) : (civilSetting timezone bytes).validate = .ok () := by
  have project : isBlank "P" = false := by decide
  have operator : isBoundedText 255 "operator" = true := by decide
  exact setting_valid_iff.mpr ⟨project, Nat.one_ne_zero, named, isBoundedText_digest bytes, operator⟩

def newfoundlandHeader (timeCount : UInt8) : List UInt8 :=
  TimeZones.magic ++ [0x32] ++ List.replicate 27 0 ++ [0, 0, 0, timeCount] ++ [0, 0, 0, 2] ++ [0, 0, 0, 8]

def newfoundlandTypes : List UInt8 :=
  Source.beBytes 4 (2 ^ 32 - 9000) ++ [1, 0] ++ Source.beBytes 4 (2 ^ 32 - 12600) ++ [0, 4] ++
    Source.utf8 "NDT" ++ [0] ++ Source.utf8 "NST" ++ [0]

/-- Daylight time until a minute after midnight of 7 November 2010, standard time since. -/
def newfoundlandFile : List UInt8 :=
  newfoundlandHeader 0 ++ newfoundlandTypes ++ newfoundlandHeader 1 ++ Source.beBytes 8 1289097060 ++ [1] ++
    newfoundlandTypes ++ [10] ++ Source.utf8 "NST3:30" ++ [10]

def newfoundland : TzifZone := ⟨[(1289097060, -12600)], [-9000, -12600]⟩

theorem newfoundland_read : TzifZone.parse newfoundlandFile = .ok newfoundland := by decide +kernel

end Fixture

theorem businessTimeContext_exact_eastern :
    (∃ context, businessTimeContext (Fixture.zoneFile "America/New_York" TimeZones.easternFile) Fixture.system
      (Fixture.civilSetting "America/New_York" TimeZones.easternFile) ⟨1705000000000⟩ = .ok context) ↔
    DateKept TimeZones.easternPlanning 1705000000 := by
  have read : Fixture.system.readZone (Fixture.zoneFile "America/New_York" TimeZones.easternFile)
      "America/New_York" = .ok (TimeZones.easternFile, "/usr/share/zoneinfo/America/New_York") := by
    decide
  exact (businessTimeContext_exact read TimeZones.eastern_read.1 (by decide)
    (Fixture.civilSetting_valid (by decide) _) rfl).1 ⟨1705000000000⟩ (by decide)

theorem newfoundland_undated :
    Fixture.system.readZone (Fixture.zoneFile "America/St_Johns" Fixture.newfoundlandFile)
        "America/St_Johns" = .ok (Fixture.newfoundlandFile, "/usr/share/zoneinfo/America/St_Johns") ∧
      TzifZone.parse Fixture.newfoundlandFile = .ok Fixture.newfoundland ∧
      Fixture.newfoundland.transitions.Pairwise (·.1 < ·.1) ∧
      (Fixture.civilSetting "America/St_Johns" Fixture.newfoundlandFile).validate = .ok () ∧
      ∀ context, businessTimeContext (Fixture.zoneFile "America/St_Johns" Fixture.newfoundlandFile)
        Fixture.system (Fixture.civilSetting "America/St_Johns" Fixture.newfoundlandFile)
        ⟨1289098800000⟩ ≠ .ok context := by
  have read : Fixture.system.readZone (Fixture.zoneFile "America/St_Johns" Fixture.newfoundlandFile)
      "America/St_Johns" = .ok (Fixture.newfoundlandFile, "/usr/share/zoneinfo/America/St_Johns") := by
    decide +kernel
  have settled := @Fixture.civilSetting_valid "America/St_Johns" (by decide)
    Fixture.newfoundlandFile
  have ordered : Fixture.newfoundland.transitions.Pairwise (·.1 < ·.1) := by decide
  refine ⟨read, Fixture.newfoundland_read, ordered, settled, fun context done => ?_⟩
  have kept := ((businessTimeContext_eq_ok read Fixture.newfoundland_read ordered settled rfl
    (by decide)).mp done).1
  -- Midnight of the 7th was shown at 1289097000, half an hour before.
  exact kept.unread 1289097000 (by decide) rfl

end Islands

end Boreal.Planning
