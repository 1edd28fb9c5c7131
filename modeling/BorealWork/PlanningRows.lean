/- The planning tables of one store: canonical work rows, their v3 nodes and dependencies, the
project's civil-time settings, and the append-only revisions of external waits. -/
import BorealWork.Mutations
import BorealWork.WaitPayload
import BorealWork.WorkItems

namespace Boreal.Store
open Drain JsonValue WorkModel Sorting

structure WorkRecord where
  projectId : String
  workId : String
  kind : WorkKind
  parentId : Option String
  lifecycle : PersistedLifecycle
  dispatchPolicy : String
  priority : ℕ
  title : String
  description : String
  updatedAt : String
  deriving DecidableEq

/-- The columns' checks allow these kinds and modes only. -/
structure WorkNodeV3Record where
  projectId : String
  workId : String
  decompositionKind : DecompositionKind
  executionMode : ExecutionMode
  parentId : Option String
  updatedAt : String
  deriving DecidableEq

structure WorkDependencyV3Row where
  projectId : String
  prerequisiteWorkId : String
  dependentWorkId : String
  deriving DecidableEq

structure RowOrigin where
  createdProjectRevision : ℕ
  operationId : String
  requestDigest : String
  deriving DecidableEq

structure ProjectCivilTimeSetting where
  projectId : ProjectId
  revision : ℕ
  timezone : String
  tzdbIdentity : String
  changedBy : String
  changedAt : TimestampMs
  deriving DecidableEq

structure CivilTimeRow where
  setting : ProjectCivilTimeSetting
  origin : RowOrigin
  deriving DecidableEq

structure ExternalWaitRow where
  projectId : String
  waitId : String
  revision : ℕ
  payload : Value
  origin : RowOrigin

structure ExternalWaitScopeRow where
  projectId : String
  waitId : String
  revision : ℕ
  affectedWorkId : String
  deriving DecidableEq

/-- Rows in the order of their insertion. -/
structure PlanningRows where
  works : List WorkRecord
  nodes : List WorkNodeV3Record
  dependencies : List WorkDependencyV3Row
  /-- The works of the recorded attempts. -/
  attempts : List String
  settings : List CivilTimeRow
  waits : List ExternalWaitRow
  scopes : List ExternalWaitScopeRow

/-- SQLite trims spaces only. -/
def trimsEmpty (text : String) : Bool := text.toList.all (· = ' ')

def checkFailed (expression : String) : StoreError :=
  .constraint .check s!"CHECK constraint failed: {expression}"

section Reading
variable (rows : PlanningRows) (projectId workId waitId : String)

def work : Except StoreError (Option WorkRecord) := do
  bindText projectId
  bindText workId
  return rows.works.find? fun row => row.projectId = projectId ∧ row.workId = workId

def workNodeV3 : Except StoreError (Option WorkNodeV3Record) := do
  bindText projectId
  bindText workId
  return rows.nodes.find? fun row => row.projectId = projectId ∧ row.workId = workId

def workNodesV3 : Except StoreError (List WorkNodeV3Record) := do
  bindText projectId
  return sortOn WorkNodeV3Record.workId (rows.nodes.filter (·.projectId = projectId))

def workNodeOf (record : WorkNodeV3Record) : Except StoreError WorkNode :=
  match record.decompositionKind with
  | .milestone =>
    if record.executionMode = .container then
      .ok ⟨⟨record.workId⟩, ⟨record.projectId⟩, .milestone, .container, none, ""⟩
    else .error (.corrupt "unknown v3 decomposition kind")
  | .task => .ok ⟨⟨record.workId⟩, ⟨record.projectId⟩, .task, record.executionMode,
      record.parentId.map TypedId.mk, ""⟩

def workNodesDomainV3 : Except StoreError (List WorkNode) := do
  (← workNodesV3 rows projectId).mapM workNodeOf

def directDependencyOf (row : WorkDependencyV3Row) : DirectDependency :=
  ⟨⟨row.prerequisiteWorkId⟩, ⟨row.dependentWorkId⟩⟩

def workDependenciesDomainV3 : Except StoreError (List DirectDependency) := do
  bindText projectId
  return (sortOn (fun row => toLex (row.prerequisiteWorkId, row.dependentWorkId))
    (rows.dependencies.filter (·.projectId = projectId))).map directDependencyOf

def ProjectCivilTimeSetting.validate (setting : ProjectCivilTimeSetting) : Except ModelError Unit :=
  refuse (isBlank setting.projectId.value ∨ setting.revision = 0 ∨
      ¬ isBoundedText 255 setting.timezone ∨ ¬ isBoundedText 512 setting.tzdbIdentity ∨
      ¬ isBoundedText 255 setting.changedBy) .missingTimeZoneIdentity

def projectCivilTimeV1 : Except StoreError (Option ProjectCivilTimeSetting) := do
  bindText projectId
  let latest := maxBy (fun row => row.setting.revision)
    (rows.settings.filter (·.setting.projectId.value = projectId))
  latest.forM fun row => row.setting.validate.mapError fun error =>
    StoreError.corrupt s!"invalid civil-time setting: {error.display}"
  return latest.map CivilTimeRow.setting

def externalWaitScopeV1 (revision : ℕ) : Except StoreError (List WorkId) := do
  bindText projectId
  bindText waitId
  bindI64 revision
  return (sortOn id ((rows.scopes.filter fun row => row.projectId = projectId ∧
    row.waitId = waitId ∧ row.revision = revision).map (·.affectedWorkId))).map TypedId.mk

def storedWait (row : ExternalWaitRow) : Except StoreError ExternalWait := do
  let wait ← decodeExternalWait ⟨row.projectId⟩ ⟨row.waitId⟩ row.revision row.payload
  let persisted ← externalWaitScopeV1 rows row.projectId row.waitId row.revision
  refuse (wait.affectedWorkIds ≠ persisted) (.corrupt
    s!"external wait {row.waitId} payload and immutable scope edges disagree")
  return wait

def latestWaitRow : Option ExternalWaitRow :=
  maxBy ExternalWaitRow.revision
    (rows.waits.filter fun row => row.projectId = projectId ∧ row.waitId = waitId)

def externalWaitV1ById : Except StoreError (Option ExternalWait) := do
  bindText projectId
  bindText waitId
  match latestWaitRow rows projectId waitId with
  | none => return none
  | some row => some <$> storedWait rows row

def externalWaitIds : List String :=
  sortDedup id ((rows.waits.filter (·.projectId = projectId)).map ExternalWaitRow.waitId)

/-- The latest revision of a wait, read and validated again. -/
def readWait (row : ExternalWaitRow) : Except StoreError ExternalWait := do
  let wait ← storedWait rows row
  let nodes ← workNodesDomainV3 rows row.projectId
  let dependencies ← workDependenciesDomainV3 rows row.projectId
  (wait.validate nodes dependencies).mapError fun error =>
    StoreError.corrupt s!"invalid external wait {row.waitId}: {error.display}"
  return wait

def externalWaitsV1 : Except StoreError (List ExternalWait) := do
  bindText projectId
  ((externalWaitIds rows projectId).filterMap (latestWaitRow rows projectId)).mapM (readWait rows)

end Reading

end Boreal.Store
