/- The two writers of external waits and civil time: the next revision of a wait with its scope
rows, and the next revision of a project's setting. -/
import BorealWork.PlanningRows

namespace Boreal.Store
open Drain JsonValue WorkModel Sorting

section Requests
variable (checksum : Value → String) (context : V3MutationContext)

def optionalText : Option String → Value := orNull .string
def optionalNatural : Option ℕ → Value := orNull natural

/-- The digest of a request binds every input of its meaning; the clock is left out. -/
def V3MutationContext.withPayload (payload : Value) : V3MutationContext :=
  { context with
    requestDigest := checksum (.object [("schema", .string "boreal.planning-request.v1"),
      ("scope_digest", .string context.requestDigest),
      ("project_id", .string context.projectId),
      ("actor_id", .string context.actorId),
      ("session_id", optionalText context.sessionId),
      ("expected_revision", optionalNatural context.expectedRevision),
      ("payload", payload)]) }

def ensureProject (expected actual : String) : Except StoreError Unit :=
  refuse (expected ≠ actual) (.wrongSubject expected actual)

end Requests

structure ExternalWaitV1Input where
  wait : ExternalWait
  expectedWaitRevision : ℕ

structure ProjectCivilTimeV1Input where
  setting : ProjectCivilTimeSetting
  expectedSettingRevision : ℕ

section Append
variable (rows : PlanningRows) (context : V3MutationContext) (input : ExternalWaitV1Input)

def sameExternalWaitScope (left right : ExternalWait) : Bool :=
  left.id = right.id && left.projectId = right.projectId &&
    left.sourceWorkId = right.sourceWorkId && left.affectedWorkIds = right.affectedWorkIds &&
    left.category = right.category && left.reason = right.reason &&
    left.accountable = right.accountable && left.expectedDecision = right.expectedDecision &&
    left.expectedOutput = right.expectedOutput && left.followUp = right.followUp &&
    left.civilTimeSettingRevision = right.civilTimeSettingRevision &&
    left.createdBy = right.createdBy && left.createdAt = right.createdAt

def admitClose (nodes : List WorkNode) (dependencies : List DirectDependency)
    (current : ExternalWait) : Except StoreError Unit := do
  (current.validate nodes dependencies).mapError fun error =>
    StoreError.corrupt s!"invalid current wait: {error.display}"
  refuse (current.state ≠ .opened ∨ ¬ sameExternalWaitScope current input.wait)
    (.conflict "external wait is no longer open or its immutable scope changed")
  match input.wait.resolution with
  | none => .error (.invalid "closed wait requires attributed resolution")
  | some resolution =>
    refuse (resolution.recordedBy ≠ context.actorId ∨ resolution.recordedAs ≠ .operator)
      (.invalid "wait resolution must be attributed to the current Operator")

/-- The guard of a creation. -/
def admitCreate : Except StoreError Unit :=
  refuse (input.expectedWaitRevision ≠ 0 ∨ input.wait.state ≠ .opened ∨
    input.wait.resolution.isSome) (.conflict "external wait does not exist")

def admitTransition (nodes : List WorkNode) (dependencies : List DirectDependency) :
    Option ExternalWait → Except StoreError Unit
  | some current => admitClose context input nodes dependencies current
  | none => admitCreate input

/-- Asked of creations and closes alike. -/
def checkSettingRevision (wait : ExternalWait) : Except StoreError Unit :=
  wait.civilTimeSettingRevision.forM fun revision => do
    let current ← projectCivilTimeV1 rows wait.projectId.value
    refuse (current.map ProjectCivilTimeSetting.revision ≠ some revision)
      (.conflict "date-only wait was planned against a stale project civil-time setting")

def insertExternalWait (known : Prop) [Decidable known] (wait : ExternalWait) :
    Except StoreError PlanningRows := do
  bindText wait.projectId.value
  bindText wait.id.value
  bindI64 wait.revision
  match context.expectedRevision with
  | none => .error (.invalid "wait update requires project revision")
  | some created => do
    bindI64 created
    bindText context.operationId
    bindText context.requestDigest
    refuse (trimsEmpty wait.id.value) (checkFailed "trim(wait_id) <> ''")
    refuse (trimsEmpty context.operationId) (checkFailed "trim(operation_id) <> ''")
    refuse (trimsEmpty context.requestDigest) (checkFailed "trim(request_digest) <> ''")
    refuse ((wait.projectId.value, wait.id.value, wait.revision) ∈
        rows.waits.map fun row => (row.projectId, row.waitId, row.revision))
      (unique "external_wait_v1.project_id, external_wait_v1.wait_id, external_wait_v1.wait_revision")
    refuse (¬ known) foreignKey
    return { rows with waits := rows.waits ++ [⟨wait.projectId.value, wait.id.value,
      wait.revision, encodeExternalWait wait,
      ⟨created, context.operationId, context.requestDigest⟩⟩] }

def insertWaitScope (row : ExternalWaitScopeRow) : Except StoreError PlanningRows := do
  bindText row.projectId
  bindText row.waitId
  bindI64 row.revision
  bindText row.affectedWorkId
  refuse (row ∈ rows.scopes) (unique
    "external_wait_scope_v1.project_id, external_wait_scope_v1.wait_id, external_wait_scope_v1.wait_revision, external_wait_scope_v1.affected_work_id")
  refuse (¬ rows.works.any fun work =>
    work.projectId = row.projectId ∧ work.workId = row.affectedWorkId) foreignKey
  return { rows with scopes := rows.scopes ++ [row] }

def scopeRows (wait : ExternalWait) : List ExternalWaitScopeRow :=
  wait.affectedWorkIds.map fun affected =>
    ⟨wait.projectId.value, wait.id.value, wait.revision, affected.value⟩

def writeExternalWait (known : Prop) [Decidable known] : Except StoreError PlanningRows := do
  let wait := input.wait
  let nodes ← workNodesDomainV3 rows wait.projectId.value
  let dependencies ← workDependenciesDomainV3 rows wait.projectId.value
  (wait.validate nodes dependencies).mapError fun error => StoreError.invalid error.display
  let current ← externalWaitV1ById rows wait.projectId.value wait.id.value
  let actual := current.elim 0 ExternalWait.revision
  refuse (actual ≠ input.expectedWaitRevision) (.conflict
    s!"stale external-wait revision: expected {input.expectedWaitRevision}, actual {actual}")
  admitTransition context input nodes dependencies current
  checkSettingRevision rows wait
  let rows ← insertExternalWait rows context known wait
  (scopeRows wait).foldlM insertWaitScope rows

end Append

section Setting
variable (authority : Authority) (rows : PlanningRows) (context : V3MutationContext)
  (input : ProjectCivilTimeV1Input)

def writeProjectCivilTime (known : Prop) [Decidable known] : Except StoreError PlanningRows := do
  let setting := input.setting
  let current ← projectCivilTimeV1 rows setting.projectId.value
  let actual := current.elim 0 ProjectCivilTimeSetting.revision
  refuse (actual ≠ input.expectedSettingRevision) (.conflict
    s!"stale civil-time setting revision: expected {input.expectedSettingRevision}, actual {actual}")
  bindText setting.projectId.value
  bindI64 setting.revision
  [setting.timezone, setting.tzdbIdentity, setting.changedBy].forM bindText
  bindI64 setting.changedAt.value
  match context.expectedRevision with
  | none => .error (.invalid "civil-time update requires project revision")
  | some created => do
    bindI64 created
    bindText context.operationId
    bindText context.requestDigest
    refuse (trimsEmpty setting.timezone) (checkFailed "trim(timezone) <> ''")
    refuse (trimsEmpty setting.tzdbIdentity) (checkFailed "trim(tzdb_identity) <> ''")
    refuse (trimsEmpty context.operationId) (checkFailed "trim(operation_id) <> ''")
    refuse (trimsEmpty context.requestDigest) (checkFailed "trim(request_digest) <> ''")
    refuse ((setting.projectId, setting.revision) ∈
        rows.settings.map fun row => (row.setting.projectId, row.setting.revision))
      (unique "project_civil_time_v1.project_id, project_civil_time_v1.setting_revision")
    refuse (¬ known ∨ (authority.actors setting.changedBy).isNone) foreignKey
    return { rows with settings := rows.settings ++
      [⟨setting, ⟨created, context.operationId, context.requestDigest⟩⟩] }

end Setting

section Operations
variable (authority : Authority) (checksum : Value → String) (store : SqliteStore PlanningRows)
  (context : V3MutationContext)

def waitRequest (input : ExternalWaitV1Input) : Value :=
  .object [("project_id", .string input.wait.projectId.value),
    ("wait_id", .string input.wait.id.value), ("wait_revision", natural input.wait.revision),
    ("expected_wait_revision", natural input.expectedWaitRevision),
    ("payload", encodeExternalWait input.wait),
    ("affected_work_ids", .array (input.wait.affectedWorkIds.map fun workId =>
      .string workId.value))]

/-- The checks that a wait's append makes before its transaction. -/
def checkWaitRequest (bound : V3MutationContext) (input : ExternalWaitV1Input) :
    Except StoreError Unit := do
  ensureProject bound.projectId input.wait.projectId.value
  refuse (input.wait.createdBy ≠ bound.actorId ∧ input.expectedWaitRevision = 0)
    (.invalid "external-wait creator must be the current actor")
  refuse (2 ^ 64 ≤ input.expectedWaitRevision + 1 ∨
      input.expectedWaitRevision + 1 ≠ input.wait.revision)
    (.invalid "external-wait revision is not the next revision")

def waitMutation (input : ExternalWaitV1Input) : Mutation PlanningRows where
  context := context.withPayload checksum (waitRequest input)
  command := if input.expectedWaitRevision = 0 then "external-wait.create.v1"
    else "external-wait.resolve.v1"
  subjectType := "external_wait"
  subjectId := input.wait.id.value
  roles := [.operator]
  write := fun store => writeExternalWait store.rows
    (context.withPayload checksum (waitRequest input)) input
    (store.revisions input.wait.projectId.value).isSome

def appendExternalWaitV1 (input : ExternalWaitV1Input) :
    Except StoreError MutationResult × SqliteStore PlanningRows :=
  let call := waitMutation checksum context input
  match checkWaitRequest call.context input with
  | .error error => (.error error, store)
  | .ok () => factMutation authority store call

def settingRequest (input : ProjectCivilTimeV1Input) : Value :=
  .object [("project_id", .string input.setting.projectId.value),
    ("setting_revision", natural input.setting.revision),
    ("expected_setting_revision", natural input.expectedSettingRevision),
    ("timezone", .string input.setting.timezone),
    ("tzdb_identity", .string input.setting.tzdbIdentity),
    ("changed_by", .string input.setting.changedBy),
    ("changed_at_ms", natural input.setting.changedAt.value)]

def checkSettingRequest (bound : V3MutationContext) (input : ProjectCivilTimeV1Input) :
    Except StoreError Unit := do
  ensureProject bound.projectId input.setting.projectId.value
  input.setting.validate.mapError fun error => StoreError.invalid error.display
  refuse (input.setting.changedBy ≠ bound.actorId ∨
      2 ^ 64 ≤ input.expectedSettingRevision + 1 ∨
      input.expectedSettingRevision + 1 ≠ input.setting.revision)
    (.invalid "civil-time setting revision or actor attribution is invalid")

def settingMutation (input : ProjectCivilTimeV1Input) : Mutation PlanningRows where
  context := context.withPayload checksum (settingRequest input)
  command := "project.civil-time.update.v1"
  subjectType := "project_civil_time"
  subjectId := input.setting.projectId.value
  roles := [.operator]
  write := fun store => writeProjectCivilTime authority store.rows
    (context.withPayload checksum (settingRequest input)) input
    (store.revisions input.setting.projectId.value).isSome

def updateProjectCivilTimeV1 (input : ProjectCivilTimeV1Input) :
    Except StoreError MutationResult × SqliteStore PlanningRows :=
  let call := settingMutation authority checksum context input
  match checkSettingRequest call.context input with
  | .error error => (.error error, store)
  | .ok () => factMutation authority store call

end Operations

end Boreal.Store
