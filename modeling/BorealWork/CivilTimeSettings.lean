/- The civil time of a project: its setting is replaced under the revisions that were read, once the
selected zone has resolved a fixed local time. -/
import BorealWork.ProjectDates

namespace Boreal.Planning
open Drain JsonValue LocalClock WorkModel
open Store (ProjectCivilTimeSetting)
open TimeZones.Planning (TzifZone)

structure WorkScheduleRecord where
  projectId : ProjectId
  workId : WorkId
  revision : ℕ
  schedule : BusinessSchedule
  civilTimeSettingRevision : Option ℕ
  updatedAt : TimestampMs
  deriving DecidableEq

def WorkScheduleRecord.validate (record : WorkScheduleRecord) : Except ModelError Unit := do
  record.schedule.validate
  refuse (record.revision = 0 ∨ isBlank record.projectId.value ∨ isBlank record.workId.value)
    (.invalidSchedule "schedule identity and revision are required")
  refuse (record.schedule.values.any BusinessDate.isLocalDate ≠ record.civilTimeSettingRevision.isSome ∨
      record.civilTimeSettingRevision = some 0)
    (.invalidSchedule "date-only schedule values require their project civil-time setting revision")

section Snapshots

structure SchedulingSnapshot where
  projectId : ProjectId
  revision : ℕ
  projectCivilTime : Option ProjectCivilTimeSetting
  nodes : List WorkNode
  dependencies : List DirectDependency
  schedules : List WorkScheduleRecord
  externalWaits : List ExternalWait
  deriving DecidableEq

namespace SchedulingSnapshot

variable (snapshot : SchedulingSnapshot)

def validateSetting : Except PlanningError Unit :=
  snapshot.projectCivilTime.forM fun setting => do
    setting.validate.mapError (.domain ∘ .model)
    refuse (setting.projectId ≠ snapshot.projectId)
      (.scopeConflict snapshot.projectId.value setting.projectId.value)

def validateSchedules : List WorkId → List WorkScheduleRecord → Except PlanningError Unit
  | _, [] => .ok ()
  | scheduledWork, schedule :: rest => do
    refuse (schedule.projectId ≠ snapshot.projectId ∨ schedule.workId ∉ snapshot.nodes.map (·.id) ∨
        schedule.revision = 0 ∨ schedule.workId ∈ scheduledWork)
      (.invalid "schedule snapshot contains an invalid or duplicate work record")
    schedule.validate.mapError (.domain ∘ .model)
    validateSchedules (schedule.workId :: scheduledWork) rest

def validateWaits : List ExternalWaitId → List ExternalWait → Except PlanningError Unit
  | _, [] => .ok ()
  | waitIds, wait :: rest => do
    refuse (wait.projectId ≠ snapshot.projectId ∨ wait.id ∈ waitIds)
      (.invalid "external-wait snapshot contains a wrong-project or duplicate record")
    (wait.validate snapshot.nodes snapshot.dependencies).mapError (.domain ∘ .model)
    validateWaits (wait.id :: waitIds) rest

/-- What is checked of the snapshot itself, after the scope of the command. -/
def validate : Except PlanningError Unit := do
  snapshot.validateSetting
  (validateDirectDependencies snapshot.nodes snapshot.dependencies).mapError (.domain ∘ .model)
  snapshot.validateSchedules [] snapshot.schedules
  snapshot.validateWaits [] snapshot.externalWaits

def scope (scope : PlanningScope) : Except PlanningError Unit := do
  scope.check snapshot.projectId snapshot.revision
  snapshot.validate

def settingRevision : ℕ := snapshot.projectCivilTime.elim 0 (·.revision)

end SchedulingSnapshot

end Snapshots

section Planner

structure ProjectCivilTimeUpdateRequest where
  scope : PlanningScope
  operationId : String
  expectedSettingRevision : ℕ
  timezone : String
  tzdbIdentity : String
  updatedAt : TimestampMs
  deriving DecidableEq

variable (hash : Value → String) (files : Files) (snapshot : SchedulingSnapshot)
  (request : ProjectCivilTimeUpdateRequest) (database : SystemTimeZoneDatabase)

namespace ProjectCivilTimeUpdateRequest

def payload (setting : ProjectCivilTimeSetting) : Value := .object [
  ("project_id", .string request.scope.projectId.value),
  ("actor_id", .string request.scope.actorId),
  ("session_id", jsonText request.scope.sessionId),
  ("expected_setting_revision", jsonNatural request.expectedSettingRevision),
  ("setting_revision", jsonNatural setting.revision),
  ("timezone", .string setting.timezone),
  ("tzdb_identity", .string setting.tzdbIdentity),
  ("expected_project_revision", jsonNatural snapshot.revision)]

def setting : ProjectCivilTimeSetting where
  projectId := snapshot.projectId
  revision := snapshot.settingRevision + 1
  timezone := request.timezone
  tzdbIdentity := request.tzdbIdentity
  changedBy := request.scope.actorId
  changedAt := request.updatedAt

end ProjectCivilTimeUpdateRequest

/-- The local time by which a zone is tried out. -/
def probe : LocalDateTime := ⟨⟨1970, 1, 1⟩, ⟨0, 0, 0⟩⟩

def planProjectCivilTimeUpdate : Except PlanningError (PlannedOperation ProjectCivilTimeSetting) := do
  snapshot.scope request.scope
  refuse (snapshot.settingRevision ≠ request.expectedSettingRevision)
    (.revisionConflict request.expectedSettingRevision snapshot.settingRevision)
  refuse (2 ^ 64 ≤ snapshot.settingRevision + 1) (.invalid "civil-time setting revision overflow")
  let setting := request.setting snapshot
  setting.validate.mapError (.domain ∘ .model)
  let zoneIdentity ← database.resolve files setting.timezone probe .nextValid .earlierOffset
  refuse (zoneIdentity.tzdbIdentity ≠ setting.tzdbIdentity)
    (.timeZoneParse "project civil-time setting tzdb identity does not match the selected zone")
  return request.scope.planned request.operationId (canonicalRequestDigest hash
    "project.civil-time.update/v1" (request.payload snapshot setting)) snapshot.revision setting

end Planner

section Planning

variable {hash : Value → String} {files : Files} {snapshot : SchedulingSnapshot}
  {request : ProjectCivilTimeUpdateRequest} {database : SystemTimeZoneDatabase} {path : String}
  {bytes : List UInt8} {zone : TzifZone}

/-- What a request must be, whatever the revisions and the file. -/
structure ProjectCivilTimeUpdateRequest.WellFormed (request : ProjectCivilTimeUpdateRequest)
    (snapshot : SchedulingSnapshot) : Prop where
  scope : request.scope.validate = .ok ()
  project : request.scope.projectId = snapshot.projectId
  actor : isBoundedText 255 request.scope.actorId = true
  timezone : isBoundedText 255 request.timezone = true

structure ProjectCivilTimeUpdateRequest.Matches (request : ProjectCivilTimeUpdateRequest)
    (snapshot : SchedulingSnapshot) (bytes : List UInt8) : Prop where
  project : request.scope.expectedRevision = some snapshot.revision
  setting : snapshot.settingRevision = request.expectedSettingRevision
  identity : request.tzdbIdentity = sha256ContentDigest bytes

def Probed (zone : TzifZone) : Prop :=
  ∃ utc offset, zone.clock.Begins 0 utc offset ∧ Representable utc ∧ IsOffset offset

theorem scope_eq_ok (wellFormed : request.WellFormed snapshot) (valid : snapshot.validate = .ok ()) :
    snapshot.scope request.scope = .ok () ↔ request.scope.expectedRevision = some snapshot.revision := by
  rw [SchedulingSnapshot.scope, check_eq_ok, and_iff_left valid, PlanningScope.check, check_eq_ok,
    and_iff_right wellFormed.scope, check_eq_ok, refuse_eq_ok,
    and_iff_right (not_not.mpr wellFormed.project), PlanningScope.requireRevision]
  cases request.scope.expectedRevision with
  | none => exact iff_of_false nofun nofun
  | some expected =>
    dsimp only
    rw [Option.some.injEq]
    split_ifs with same
    · exact iff_of_true rfl same
    · exact iff_of_false nofun same

theorem probe_eq_ok (named : isBlank request.timezone = false)
    (read : database.readZone files request.timezone = .ok (bytes, path))
    (parsed : TzifZone.parse bytes = .ok zone) {resolution : TimeResolution} :
    database.resolve files request.timezone probe .nextValid .earlierOffset = .ok resolution ↔
      ∃ utc offset, zone.clock.Begins 0 utc offset ∧ Representable utc ∧ IsOffset offset ∧
        resolution = resolutionOf bytes request.timezone probe .nextValid .earlierOffset utc offset := by
  have formed := TzifZone.formed_of_parse parsed
  have origin : secondsOf probe = 0 := by decide
  have roomy : TzifZone.Roomy 0 := ⟨by decide, by decide⟩
  have valid : probe.validate = .ok () := by decide
  rw [resolve_eq_ok named read parsed ⟨by decide, by decide⟩ valid, origin]
  simp only [selectInstant_earlier formed roomy]

theorem setting_eq_ok (wellFormed : request.WellFormed snapshot) :
    (request.setting snapshot).validate = .ok () ↔ isBoundedText 512 request.tzdbIdentity = true := by
  have project : isBlank snapshot.projectId.value = false := by
    have scope := wellFormed.scope
    rw [PlanningScope.validate, check_eq_ok, refuse_eq_ok, wellFormed.project, Bool.not_eq_true] at scope
    exact scope.1
  rw [setting_valid_iff]
  constructor
  · rintro ⟨-, -, -, identity, -⟩
    exact identity
  · intro identity
    exact ⟨project, Nat.succ_ne_zero _, wellFormed.timezone, identity, wellFormed.actor⟩

theorem planProjectCivilTimeUpdate_eq_ok (wellFormed : request.WellFormed snapshot)
    (valid : snapshot.validate = .ok ())
    (read : database.readZone files request.timezone = .ok (bytes, path))
    (parsed : TzifZone.parse bytes = .ok zone) {planned : PlannedOperation ProjectCivilTimeSetting} :
    planProjectCivilTimeUpdate hash files snapshot request database = .ok planned ↔
      request.Matches snapshot bytes ∧ (Probed zone ∧ snapshot.settingRevision + 1 < 2 ^ 64) ∧
        planned = request.scope.planned request.operationId (canonicalRequestDigest hash
          "project.civil-time.update/v1" (request.payload snapshot (request.setting snapshot)))
          snapshot.revision (request.setting snapshot) := by
  have named := (isBoundedText_iff.mp wellFormed.timezone).1
  rw [planProjectCivilTimeUpdate, check_eq_ok, scope_eq_ok wellFormed valid, check_eq_ok, refuse_eq_ok,
    not_not, check_eq_ok, refuse_eq_ok, not_le]
  dsimp only
  rw [check_eq_ok, mapError_eq_ok, setting_eq_ok wellFormed, bind_eq_ok]
  constructor
  · rintro ⟨project, setting, follows, -, resolution, resolved, done⟩
    obtain ⟨utc, offset, begins, inside, whole, rfl⟩ := (probe_eq_ok named read parsed).mp resolved
    obtain ⟨same, made⟩ := check_eq_ok.mp done
    have identity := not_not.mp (refuse_eq_ok.mp same)
    exact ⟨⟨project, setting, identity.symm⟩, ⟨⟨utc, offset, begins, inside, whole⟩, follows⟩,
      (Except.ok.inj made).symm⟩
  · rintro ⟨⟨project, setting, identity⟩, ⟨⟨utc, offset, begins, inside, whole⟩, follows⟩, rfl⟩
    have resolved := (probe_eq_ok named read parsed).mpr ⟨utc, offset, begins, inside, whole, rfl⟩
    refine ⟨project, setting, follows, identity ▸ isBoundedText_digest bytes, _, resolved, ?_⟩
    exact check_eq_ok.mpr ⟨refuse_of_not (not_not.mpr identity.symm), rfl⟩

/-- A request is planned exactly when it matches, provided that a matching one has a zone that can be
tried out and a revision to go to; the planned setting has the next revision. -/
theorem planProjectCivilTimeUpdate_exact (wellFormed : request.WellFormed snapshot)
    (valid : snapshot.validate = .ok ())
    (read : database.readZone files request.timezone = .ok (bytes, path))
    (parsed : TzifZone.parse bytes = .ok zone) :
    (((∃ planned, planProjectCivilTimeUpdate hash files snapshot request database = .ok planned) ↔
        request.Matches snapshot bytes) ↔
      (request.Matches snapshot bytes → Probed zone ∧ snapshot.settingRevision + 1 < 2 ^ 64)) ∧
    ∀ planned, planProjectCivilTimeUpdate hash files snapshot request database = .ok planned →
      request.Matches snapshot bytes ∧ planned.value.revision = snapshot.settingRevision + 1 := by
  have exact_ (planned : PlannedOperation ProjectCivilTimeSetting) :=
    @planProjectCivilTimeUpdate_eq_ok hash _ _ _ _ _ _ _ wellFormed valid read parsed planned
  simp only [exact_]
  constructor
  · constructor
    · intro same matching
      obtain ⟨planned, -, condition, -⟩ := same.mpr matching
      exact condition
    · intro provided
      constructor
      · rintro ⟨planned, matching, -, -⟩
        exact matching
      · intro matching
        exact ⟨_, matching, provided matching, rfl⟩
  · rintro _ ⟨matching, -, rfl⟩
    exact ⟨matching, rfl⟩

end Planning

section Zones

namespace Fixture

def emptySchedule : SchedulingSnapshot where
  projectId := ⟨"P"⟩
  revision := 4
  projectCivilTime := none
  nodes := []
  dependencies := []
  schedules := []
  externalWaits := []

def timezoneRequest (timezone : String) (bytes : List UInt8) : ProjectCivilTimeUpdateRequest where
  scope := ⟨⟨"P"⟩, "operator", none, some 4⟩
  operationId := "op-1"
  expectedSettingRevision := 0
  timezone
  tzdbIdentity := sha256ContentDigest bytes
  updatedAt := ⟨0⟩

theorem timezoneRequest_wellFormed {timezone : String} (bounded : isBoundedText 255 timezone = true)
    (bytes : List UInt8) : (timezoneRequest timezone bytes).WellFormed emptySchedule := by
  have actor : isBoundedText 255 "operator" = true := by decide
  have scope : PlanningScope.validate ⟨⟨"P"⟩, "operator", none, some 4⟩ = .ok () := by decide
  exact ⟨scope, rfl, actor, bounded⟩

/-- One type, nine hours east, and no transition. -/
def tokyoFile : List UInt8 :=
  let block := TimeZones.magic ++ [0x32] ++ List.replicate 31 0 ++ [0, 0, 0, 1] ++ [0, 0, 0, 4] ++
    Source.beBytes 4 32400 ++ [0, 0] ++ Source.utf8 "JST" ++ [0]
  block ++ block ++ [10] ++ Source.utf8 "JST-9" ++ [10]

theorem tokyo_read : TzifZone.parse tokyoFile = .ok ⟨[], [32400]⟩ := by decide +kernel

end Fixture

theorem planProjectCivilTimeUpdate_exact_eastern :
    ((∃ planned, planProjectCivilTimeUpdate (fun _ => "sha256:")
        (Fixture.zoneFile "America/New_York" TimeZones.easternFile) Fixture.emptySchedule
        (Fixture.timezoneRequest "America/New_York" TimeZones.easternFile) Fixture.system = .ok planned) ↔
      (Fixture.timezoneRequest "America/New_York" TimeZones.easternFile).Matches Fixture.emptySchedule
        TimeZones.easternFile) ↔
    ((Fixture.timezoneRequest "America/New_York" TimeZones.easternFile).Matches Fixture.emptySchedule
        TimeZones.easternFile →
      Probed TimeZones.easternPlanning ∧ Fixture.emptySchedule.settingRevision + 1 < 2 ^ 64) := by
  have read : Fixture.system.readZone (Fixture.zoneFile "America/New_York" TimeZones.easternFile)
      "America/New_York" = .ok (TimeZones.easternFile, "/usr/share/zoneinfo/America/New_York") := by
    decide
  exact (planProjectCivilTimeUpdate_exact (Fixture.timezoneRequest_wellFormed (by decide) _)
    (by decide) read TimeZones.eastern_read.1).1

theorem tokyo_refused :
    Fixture.emptySchedule.validate = .ok () ∧
      (Fixture.timezoneRequest "Asia/Tokyo" Fixture.tokyoFile).WellFormed Fixture.emptySchedule ∧
      Fixture.system.readZone (Fixture.zoneFile "Asia/Tokyo" Fixture.tokyoFile) "Asia/Tokyo" =
        .ok (Fixture.tokyoFile, "/usr/share/zoneinfo/Asia/Tokyo") ∧
      TzifZone.parse Fixture.tokyoFile = .ok ⟨[], [32400]⟩ ∧
      (Fixture.timezoneRequest "Asia/Tokyo" Fixture.tokyoFile).Matches Fixture.emptySchedule
        Fixture.tokyoFile ∧
      ∀ planned, planProjectCivilTimeUpdate (fun _ => "sha256:")
        (Fixture.zoneFile "Asia/Tokyo" Fixture.tokyoFile) Fixture.emptySchedule
        (Fixture.timezoneRequest "Asia/Tokyo" Fixture.tokyoFile) Fixture.system ≠ .ok planned := by
  have valid : Fixture.emptySchedule.validate = .ok () := by decide
  have wellFormed := @Fixture.timezoneRequest_wellFormed "Asia/Tokyo" (by decide) Fixture.tokyoFile
  have read : Fixture.system.readZone (Fixture.zoneFile "Asia/Tokyo" Fixture.tokyoFile) "Asia/Tokyo" =
      .ok (Fixture.tokyoFile, "/usr/share/zoneinfo/Asia/Tokyo") := by
    decide
  refine ⟨valid, wellFormed, read, Fixture.tokyo_read, ⟨rfl, rfl, rfl⟩, fun planned done => ?_⟩
  obtain ⟨-, ⟨⟨utc, offset, begins, ⟨after, -⟩, -⟩, -⟩, -⟩ :=
    (planProjectCivilTimeUpdate_eq_ok wellFormed valid read Fixture.tokyo_read).mp done
  cases begins with
  | shown reads _ =>
    have east : utc + 32400 = 0 := reads
    omega
  | leapt _ leap => cases leap

end Zones

end Boreal.Planning
