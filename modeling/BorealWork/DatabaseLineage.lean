/- The database lineage: the identity rows that bind attempts and operations to one database and its
restore epoch, the migration that fills them in, and the restore that revokes them. -/
import BorealWork.BusinessTime
import BorealWork.Library.Inserts
import BorealWork.Library.Machines
import BorealWork.StoreJournal

namespace Boreal.Store.Lineage
open Drain Inserts

structure WorkScope where
  workId : String
  projectId : String
  deriving DecidableEq

/-- Of an attempt, the columns that the identity seam reads and writes. -/
structure AttemptRow where
  attemptId : String
  workId : String
  fence : ℕ
  current : Bool
  lastHeartbeatAt : Option String
  deriving DecidableEq

structure WorkspaceBinding where
  canonicalRoot : String
  canonicalWorktree : String
  bindingDigest : String
  deriving DecidableEq

structure BoundProject where
  projectId : String
  database : DatabaseIdentity
  binding : WorkspaceBinding
  deriving DecidableEq

structure EntityRevisionRow where
  projectId : String
  workId : String
  entityRevision : ℕ
  proofRevision : ℕ
  deriving DecidableEq

structure FenceIdentityRow where
  projectId : String
  workId : String
  attemptId : String
  fence : ℕ
  database : DatabaseIdentity
  revoked : Bool
  deriving DecidableEq

structure LineageRows where
  workItems : List WorkScope
  attempts : List AttemptRow
  database : Option DatabaseIdentity
  projects : List BoundProject
  entityRevisions : List EntityRevisionRow
  fences : List FenceIdentityRow

abbrev LineageStore := SqliteStore LineageRows

/-- The identity rows as the journal's reads see them. -/
def lineageAuthority (authority : Authority) (store : LineageStore) : Authority :=
  { authority with
    identityTablesInstalled := true
    databaseIdentity := store.rows.database
    projectIdentities := fun projectId =>
      (store.rows.projects.find? (fun row => row.projectId = projectId)).map fun row =>
        ⟨row.database, row.binding.bindingDigest⟩ }

inductive LineageError
  | identity (error : IdentityError)
  | workNotFound (projectId workId : String)
  | staleFence (expected actual : ℕ)
  | fenceRevoked (fence epoch : ℕ)
  | restoreEpochRegression (current requested : ℕ)
  deriving DecidableEq

def LineageError.display : LineageError → String
  | identity error => error.display
  | workNotFound projectId workId => s!"work not found in project {projectId}: {workId}"
  | staleFence expected actual => s!"stale attempt fence: expected {expected}, actual {actual}"
  | fenceRevoked fence epoch => s!"attempt fence {fence} revoked at restore epoch {epoch}"
  | restoreEpochRegression current requested =>
    s!"restore epoch must advance: current {current}, requested {requested}"

def lift {α : Type} (result : Except IdentityError α) : Except LineageError α :=
  result.mapError .identity

def liftStore {α : Type} (result : Except StoreError α) : Except LineageError α :=
  result.mapError fun error => .identity (.store error)

section Identities

def validateOpaque (field value : String) : Except IdentityError Unit := do
  requireText field value
  refuse (value.toList.any fun c => WorkModel.isControl c || isWhiteSpace c)
    (.invalid field "opaque identity contains whitespace or control characters")

def newDatabaseIdentity (databaseInstanceId : String) (restoreEpoch : ℕ) :
    Except IdentityError DatabaseIdentity := do
  validateOpaque "database_instance_id" databaseInstanceId
  refuse (restoreEpoch = 0) (.invalid "restore_epoch" "restore epoch must be positive")
  return ⟨databaseInstanceId, restoreEpoch⟩

variable (authority : Authority) (store : LineageStore)

def verify (context : IdentityContext) : Except LineageError Unit :=
  lift (verifyContext (lineageAuthority authority store) context)

def bindProject (projectId : String) (binding : WorkspaceBinding) (now : String) :
    Except LineageError (IdentityContext × LineageStore) := do
  lift (requireText "project_id" projectId)
  lift (requireText "now" now)
  refuse (store.revisions projectId).isNone (.identity (.projectNotFound projectId))
  let database ← lift (databaseIdentity (lineageAuthority authority store))
  let context : IdentityContext := ⟨projectId, database, binding.bindingDigest⟩
  match store.rows.projects.find? (fun row => row.projectId = projectId) with
  | some row => do
    refuse (row.database ≠ database ∨ row.binding ≠ binding)
      (.identity (.workspaceConflict projectId))
    return (context, store)
  | none => return (context, { store with
      rows := { store.rows with projects := store.rows.projects ++ [⟨projectId, database, binding⟩] } })

end Identities

section Attempts
variable (authority : Authority) (store : LineageStore)

/-- The insertion of an attempt by the claim path, with the table's keys. -/
def createAttempt (attempt : AttemptRow) : Except LineageError LineageStore := do
  liftStore (refuse (attempt.fence = 0) (.constraint .check "CHECK constraint failed: fence > 0"))
  liftStore (refuse (attempt.attemptId ∈ store.rows.attempts.map AttemptRow.attemptId)
    (unique "attempt.attempt_id"))
  liftStore (refuse (attempt.current ∧
      ∃ row ∈ store.rows.attempts, row.workId = attempt.workId ∧ row.current)
    (unique "attempt.work_id"))
  liftStore (refuse (∃ row ∈ store.rows.attempts, row.workId = attempt.workId ∧ row.fence = attempt.fence)
    (unique "attempt.work_id, attempt.fence"))
  liftStore (refuse (attempt.workId ∉ store.rows.workItems.map WorkScope.workId) foreignKey)
  return { store with rows := { store.rows with attempts := store.rows.attempts ++ [attempt] } }

def ensureWorkScope (context : IdentityContext) (workId : String) : Except LineageError Unit := do
  liftStore (bindText workId)
  match store.rows.workItems.find? (fun row => row.workId = workId) with
  | none => .error (.workNotFound context.projectId workId)
  | some row =>
    refuse (row.projectId ≠ context.projectId)
      (.identity (.foreignSubject context.projectId "work" workId))

def attemptSubject (context : IdentityContext) (workId attemptId : String) :
    Except LineageError AttemptRow := do
  liftStore (bindText attemptId)
  match store.rows.attempts.find? (fun row => row.attemptId = attemptId ∧ row.workId = workId ∧
      ⟨workId, context.projectId⟩ ∈ store.rows.workItems) with
  | none => .error (.identity (.foreignSubject context.projectId "attempt" attemptId))
  | some row => do
    refuse (row.fence = 0) (.identity (.invalid "attempt_fence" "attempt fence must be positive"))
    return row

def fenceClashes (row present : FenceIdentityRow) : Bool :=
  present.projectId = row.projectId ∧ present.attemptId = row.attemptId ∧ present.fence = row.fence ∨
    present.projectId = row.projectId ∧ present.workId = row.workId ∧ present.fence = row.fence

def insertFence (row : FenceIdentityRow) : LineageStore :=
  { store with rows := { store.rows with fences := insertOrIgnore fenceClashes store.rows.fences row } }

def recordAttemptFence (context : IdentityContext) (workId attemptId : String) (fence : ℕ)
    (now : String) : Except LineageError LineageStore := do
  lift (requireText "attempt_id" attemptId)
  lift (requireText "now" now)
  verify authority store context
  ensureWorkScope store context workId
  let actual ← attemptSubject store context workId attemptId
  refuse (actual.fence ≠ fence) (.staleFence fence actual.fence)
  return insertFence store ⟨context.projectId, workId, attemptId, fence, context.database, false⟩

def verifyFenceIdentity (context : IdentityContext) (workId attemptId : String) (fence : ℕ) :
    Except LineageError Unit :=
  match store.rows.fences.find? (fun row => row.projectId = context.projectId ∧ row.workId = workId ∧
      row.attemptId = attemptId ∧ row.fence = fence) with
  | none => .error (.fenceRevoked fence context.database.restoreEpoch)
  | some row =>
    refuse (row.database ≠ context.database ∨ row.revoked)
      (.fenceRevoked fence context.database.restoreEpoch)

/-- Updates liveness only. -/
def heartbeat (context : IdentityContext) (workId attemptId : String) (fence : ℕ) (at_ : String) :
    Except LineageError LineageStore := do
  lift (requireText "at" at_)
  verify authority store context
  ensureWorkScope store context workId
  let actual ← attemptSubject store context workId attemptId
  refuse (actual.fence ≠ fence) (.staleFence fence actual.fence)
  verifyFenceIdentity store context workId attemptId fence
  refuse (actual.current = false) (.fenceRevoked fence context.database.restoreEpoch)
  return { store with rows := { store.rows with
    attempts := store.rows.attempts.map fun row =>
      if row.attemptId = attemptId ∧ row.workId = workId ∧ row.fence = fence ∧ row.current then
        { row with lastHeartbeatAt := some at_ }
      else row } }

end Attempts

section Migration

/-- What an installation has filled in. -/
structure IdentityMigrationReport where
  entityRowsMigrated : ℕ
  fenceRowsMigrated : ℕ
  operationRowsMigrated : ℕ
  ambiguousOperationsInvalidated : ℕ
  deriving DecidableEq

variable (store : LineageStore)

def ensureDatabaseIdentity (requested : DatabaseIdentity) : Except LineageError LineageStore :=
  match store.rows.database with
  | some actual => do
    lift (sameLineage requested actual)
    return store
  | none => do
    liftStore (bindI64 requested.restoreEpoch)
    return { store with rows := { store.rows with database := some requested } }

def entityClashes (row present : EntityRevisionRow) : Bool :=
  present.projectId = row.projectId ∧ present.workId = row.workId

def migrateEntity (state : ℕ × LineageStore) (work : WorkScope) : ℕ × LineageStore :=
  match state.2.revisions work.projectId with
  | none => state
  | some revision =>
    let row : EntityRevisionRow := ⟨work.projectId, work.workId, revision, revision⟩
    (state.1 + added entityClashes state.2.rows.entityRevisions row,
      { state.2 with rows := { state.2.rows with
        entityRevisions := insertOrIgnore entityClashes state.2.rows.entityRevisions row } })

def migrateEntityRevisions : ℕ × LineageStore := store.rows.workItems.foldl migrateEntity (0, store)

def migrateFence (database : DatabaseIdentity) (state : ℕ × LineageStore) (attempt : AttemptRow) :
    Except LineageError (ℕ × LineageStore) :=
  match state.2.rows.workItems.find? (fun row => row.workId = attempt.workId) with
  | none => return state
  | some work => do
    refuse (attempt.fence = 0) (.identity (.invalid "attempt_fence" "attempt fence must be positive"))
    let row : FenceIdentityRow :=
      ⟨work.projectId, attempt.workId, attempt.attemptId, attempt.fence, database, false⟩
    return (state.1 + added fenceClashes state.2.rows.fences row, insertFence state.2 row)

/-- The order of the attempts decides nothing: no two of them share a key. -/
def migrateFenceIdentities (database : DatabaseIdentity) : Except LineageError (ℕ × LineageStore) :=
  store.rows.attempts.foldlM (migrateFence database) (0, store)

def operationClashes (row present : OperationIdentityRow) : Bool := present.operationId = row.operationId

def isAmbiguous (operation : OperationRecord) : Bool :=
  operation.completedAt.isNone ∨ operation.outcome = .busy ∨ operation.outcome = .unknown

def migrateOperation (database : DatabaseIdentity) (state : (ℕ × ℕ) × LineageStore)
    (operation : OperationRecord) : (ℕ × ℕ) × LineageStore :=
  let row : OperationIdentityRow :=
    ⟨operation.operationId, operation.projectId, database, isAmbiguous operation⟩
  let inserted := added operationClashes state.2.operationIdentities row
  ((state.1.1 + inserted, state.1.2 + if isAmbiguous operation then inserted else 0),
    { state.2 with
      operationIdentities := insertOrIgnore operationClashes state.2.operationIdentities row })

def migrateOperationIdentities (database : DatabaseIdentity) : (ℕ × ℕ) × LineageStore :=
  store.operations.foldl (migrateOperation database) ((0, 0), store)

/-- Fills in the identity rows that are missing, as current ones. -/
def install (database : DatabaseIdentity) (now : String) :
    Except LineageError (IdentityMigrationReport × LineageStore) := do
  lift (requireText "now" now)
  let store ← ensureDatabaseIdentity store database
  let (entities, store) := migrateEntityRevisions store
  let (fences, store) ← migrateFenceIdentities store database
  let ((operations, invalidated), store) := migrateOperationIdentities store database
  return (⟨entities, fences, operations, invalidated⟩, store)

end Migration

structure RestoreResult where
  previous : DatabaseIdentity
  current : DatabaseIdentity
  invalidatedOperations : ℕ
  revokedFences : ℕ
  deriving DecidableEq

def restoredOperation (current : DatabaseIdentity) (row : OperationIdentityRow) : OperationIdentityRow :=
  if row.invalidated then row else { row with database := current, invalidated := true }

def restoredFence (current : DatabaseIdentity) (row : FenceIdentityRow) : FenceIdentityRow :=
  if row.revoked then row else { row with database := current, revoked := true }

/-- Advances the lineage and revokes the identity rows of the old one; no row is deleted, and every
refusal stands in front of the first write. -/
def restore (authority : Authority) (store : LineageStore) (databaseInstanceId : String)
    (restoreEpoch : ℕ) (now : String) : Except LineageError (RestoreResult × LineageStore) := do
  lift (requireText "now" now)
  let requested ← lift (newDatabaseIdentity databaseInstanceId restoreEpoch)
  let previous ← lift (databaseIdentity (lineageAuthority authority store))
  refuse (requested.restoreEpoch ≤ previous.restoreEpoch)
    (.restoreEpochRegression previous.restoreEpoch requested.restoreEpoch)
  liftStore (bindI64 requested.restoreEpoch)
  let invalidated := (store.operationIdentities.filter (fun row => row.invalidated = false)).length
  let revoked := (store.rows.fences.filter (fun row => row.revoked = false)).length
  let rows := { store.rows with
    database := some requested
    projects := store.rows.projects.map fun row => { row with database := requested }
    fences := store.rows.fences.map (restoredFence requested) }
  return (⟨previous, requested, invalidated, revoked⟩, { store with
    operationIdentities := store.operationIdentities.map (restoredOperation requested)
    rows := rows })

inductive LineageCall
  | createAttempt (attempt : AttemptRow)
  | recordAttemptFence (context : IdentityContext) (workId attemptId : String) (fence : ℕ) (now : String)
  | heartbeat (context : IdentityContext) (workId attemptId : String) (fence : ℕ) (at_ : String)
  | appendOperation (operation : OperationRecord)
  | recordOperationContext (context : IdentityContext) (operationId : String)
  | operation (context : IdentityContext) (operationId : String)
  | bindProject (projectId : String) (binding : WorkspaceBinding) (now : String)
  | install (databaseInstanceId : String) (restoreEpoch : ℕ) (now : String)
  | restore (databaseInstanceId : String) (restoreEpoch : ℕ) (now : String)

inductive LineageAnswer
  | done
  | readback (found : Option OperationReadback)
  | bound (context : IdentityContext)
  | installed (report : IdentityMigrationReport)
  | restored (result : RestoreResult)

def answer (authority : Authority) (store : LineageStore) :
    LineageCall → Except LineageError (LineageAnswer × LineageStore)
  | .createAttempt attempt => return (.done, ← createAttempt store attempt)
  | .recordAttemptFence context workId attemptId fence now =>
    return (.done, ← recordAttemptFence authority store context workId attemptId fence now)
  | .heartbeat context workId attemptId fence at_ =>
    return (.done, ← heartbeat authority store context workId attemptId fence at_)
  | .appendOperation operation =>
    return (.done, ← liftStore (appendOperation (lineageAuthority authority store) store operation))
  | .recordOperationContext context operationId =>
    return (.done,
      ← lift (recordOperationContext (lineageAuthority authority store) store context operationId))
  | .operation context operationId =>
    return (.readback
      (← lift (identityOperation (lineageAuthority authority store) store context operationId)), store)
  | .bindProject projectId binding now => do
    let (context, store) ← bindProject authority store projectId binding now
    return (.bound context, store)
  | .install databaseInstanceId restoreEpoch now => do
    let database ← lift (newDatabaseIdentity databaseInstanceId restoreEpoch)
    let (report, store) ← install store database now
    return (.installed report, store)
  | .restore databaseInstanceId restoreEpoch now => do
    let (result, store) ← restore authority store databaseInstanceId restoreEpoch now
    return (.restored result, store)

/-- A call that fails leaves the store as it was: its transaction is rolled back. -/
def perform (authority : Authority) (store : LineageStore) (call : LineageCall) :
    Except LineageError LineageAnswer × LineageStore :=
  match answer authority store call with
  | .ok (result, after) => (.ok result, after)
  | .error error => (.error error, store)

end Boreal.Store.Lineage
