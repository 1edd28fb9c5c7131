/- The store's operation journal: the operation and audit rows, their redaction, the database
identity that binds them, and the replay of an operation that is already there. -/
import BorealWork.Identity
import BorealWork.Library.Drain
import BorealWork.Library.JsonValue

namespace Boreal.Store
open Drain JsonValue

inductive ConstraintKind
  | foreignKey | unique | appendOnly | selfReview | check
  deriving DecidableEq

inductive StoreError
  | invalid (message : String)
  | conflict (message : String)
  | staleRevision (expected actual : ℕ)
  | wrongSubject (expected actual : String)
  | wrongOwner (expected actual : String)
  | constraint (kind : ConstraintKind) (message : String)
  | notFound (entity id : String)
  | unsupportedSchema (found : ℤ)
  | corrupt (message : String)
  deriving DecidableEq

def ConstraintKind.debug : ConstraintKind → String
  | foreignKey => "ForeignKey"
  | unique => "Unique"
  | appendOnly => "AppendOnly"
  | selfReview => "SelfReview"
  | check => "Check"

def StoreError.display : StoreError → String
  | invalid message | conflict message | corrupt message => message
  | staleRevision expected actual => s!"stale revision: expected {expected}, actual {actual}"
  | wrongSubject expected actual =>
    s!"attempt subject mismatch: expected {expected}, actual {actual}"
  | wrongOwner expected actual => s!"attempt owner mismatch: expected {expected}, actual {actual}"
  | constraint kind message => s!"{kind.debug}: {message}"
  | notFound entity id => s!"{entity} not found: {id}"
  | unsupportedSchema found => s!"unsupported SQLite schema version: {found}"

inductive OperationOutcome
  | changed | unchanged | rejected | conflict | busy | failed | unknown
  deriving DecidableEq

/-- The stored texts of JSON payloads are their values here. -/
structure OperationRecord where
  operationId : String
  projectId : String
  command : String
  actorId : String
  sessionId : Option String
  expectedRevision : Option ℕ
  attemptId : Option String
  fence : Option ℕ
  requestDigest : String
  outcome : OperationOutcome
  resultJson : Value
  revision : ℕ
  createdAt : String
  completedAt : Option String

structure AuditEventRecord where
  projectId : String
  revision : ℕ
  operationId : String
  eventType : String
  subjectType : String
  subjectId : String
  actorId : String
  sessionId : Option String
  fence : Option ℕ
  asOf : String
  payloadJson : Value

structure DatabaseIdentity where
  databaseInstanceId : String
  restoreEpoch : ℕ
  deriving DecidableEq

structure ProjectIdentityRow where
  database : DatabaseIdentity
  bindingDigest : String
  deriving DecidableEq

structure OperationIdentityRow where
  operationId : String
  projectId : String
  database : DatabaseIdentity
  invalidated : Bool
  deriving DecidableEq

structure PrincipalRow where
  role : ActorRole
  authorityRoot : String
  delegatedBy : Option String
  deriving DecidableEq

/-- The rows that fact mutations read and never write. -/
structure Authority where
  canonicalProduction : Bool
  workModelV3Enabled : Bool
  schemaVersion : ℤ
  actors : String → Option ActorRole
  /-- Principals of a project without a revocation. -/
  principals : String → String → Option PrincipalRow
  sessions : List String
  /-- Active sessions bound to a principal of a project. -/
  sessionBindings : List (String × String × String)
  identityTablesInstalled : Bool
  databaseIdentity : Option DatabaseIdentity
  projectIdentities : String → Option ProjectIdentityRow
  /-- The project of the evidence execution under an operation's id. -/
  evidenceExecutions : String → Option String

/-- The rows that they write: revisions, the journal, and the domain rows of the command. -/
structure SqliteStore (ρ : Type) where
  revisions : String → Option ℕ
  operations : List OperationRecord
  operationIdentities : List OperationIdentityRow
  audits : List AuditEventRecord
  rows : ρ

section Redaction

def maxAuditBytes : ℕ := 16 * 1024
def maxStringBytes : ℕ := 4096
def maxArrayItems : ℕ := 256
def maxNestingDepth : ℕ := 32

def sensitiveNeedles : List String :=
  ["password", "passwd", "secret", "token", "credential", "authorization", "cookie", "privatekey",
    "privatekey", "apikey", "apikey", "accesskey", "accesskey"]

def isSensitiveKey (key : String) : Bool :=
  let letters := (key.toList.filter Char.isAlphanum).map Char.toLower
  sensitiveNeedles.any fun needle => letters.tails.any (needle.toList.isPrefixOf ·)

/-- The longest prefix of whole characters within the limit. -/
def cutAt : ℕ → List Char → List Char
  | _, [] => []
  | limit, c :: rest => if c.utf8Size ≤ limit then c :: cutAt (limit - c.utf8Size) rest else []

def redactString (value : String) : String :=
  if value.utf8ByteSize ≤ maxStringBytes then value
  else String.ofList (cutAt maxStringBytes value.toList) ++ "…[truncated]"

mutual

def redactValueAtDepth (depth : ℕ) (value : Value) : Value :=
  if depth ≥ maxNestingDepth then .string "[REDACTED:depth_limit]"
  else match value with
    | .object members => .object (redactMembers depth members)
    | .array items => .array (redactItems depth maxArrayItems items)
    | .string value => .string (redactString value)
    | other => other

/-- The items that still fit, and a marker where some did not. -/
def redactItems (depth : ℕ) : ℕ → List Value → List Value
  | _, [] => []
  | 0, _ :: _ => [.string "[TRUNCATED:array_items]"]
  | left + 1, item :: rest => redactValueAtDepth (depth + 1) item :: redactItems depth left rest

def redactMembers (depth : ℕ) : List (String × Value) → List (String × Value)
  | [] => []
  | (key, value) :: rest =>
    (key, if isSensitiveKey key then .string "[REDACTED]"
      else redactValueAtDepth (depth + 1) value) :: redactMembers depth rest

end

def redactValue (value : Value) : Value := redactValueAtDepth 0 value

def redactedPayload (payload : Value) : Value :=
  if (redactValue payload).encodedLength > maxAuditBytes then
    .object [("redacted", .string "payload_too_large")]
  else redactValue payload

def redactedEvent (event : AuditEventRecord) : AuditEventRecord :=
  { event with payloadJson := redactedPayload event.payloadJson }

def boundedOperation (operation : OperationRecord) : OperationRecord :=
  { operation with resultJson := redactedPayload operation.resultJson }

end Redaction

def nulPosition (value : String) : ℕ := ((value.toList.takeWhile (· ≠ '\x00')).map Char.utf8Size).sum

def bindText (value : String) : Except StoreError Unit :=
  refuse ('\x00' ∈ value.toList) (.invalid <|
    "SQLite input contains NUL: nul byte found in provided data at position: " ++
      toString (nulPosition value))

def bindOptionalText : Option String → Except StoreError Unit
  | none => .ok ()
  | some value => bindText value

/-- SQLite's integers are signed. -/
def maxInteger : ℕ := 2 ^ 63 - 1

def bindI64 (value : ℕ) : Except StoreError Unit :=
  refuse (value > maxInteger) (.invalid s!"integer is too large: {value}")

def bindOptionalI64 : Option ℕ → Except StoreError Unit
  | none => .ok ()
  | some value => bindI64 value

section Principals
variable (authority : Authority)

def actorContext (actorId : String) : Except StoreError ActorRole := do
  bindText actorId
  match authority.actors actorId with
  | none => .error (.notFound "actor" actorId)
  | some role => .ok role

/-- The walk up the delegations; the first argument is how many principals may still be seen. -/
def principalChain (projectId actorId : String) (role : ActorRole) :
    ℕ → List String → String → Option String → Except StoreError (ActorRole × String)
  | 0, _, _, _ => .error (.corrupt "principal delegation cycle/depth")
  | left + 1, seen, cursor, expectedRoot => do
    refuse (cursor ∈ seen) (.corrupt "principal delegation cycle/depth")
    match authority.principals projectId cursor with
    | none => .error (.conflict "principal or its delegator is not active in this project")
    | some row => do
      refuse (cursor = actorId ∧ row.role ≠ role)
        (.corrupt "principal role differs from actor record")
      refuse (expectedRoot.any (· ≠ row.authorityRoot)) (.corrupt "delegation root changed")
      match row.delegatedBy with
      | some parent =>
        principalChain projectId actorId role left (cursor :: seen) parent
          (some row.authorityRoot)
      | none =>
        if cursor = row.authorityRoot then .ok (role, row.authorityRoot)
        else .error (.corrupt "independent principal is not its authority root")

def principalAuthority (projectId actorId : String) : Except StoreError (ActorRole × String) := do
  let role ← actorContext authority actorId
  bindText projectId
  principalChain authority projectId actorId role 32 [] actorId none

def validateProjectSession (projectId actorId sessionId : String) : Except StoreError Unit := do
  onlyIf authority.canonicalProduction do
    discard (principalAuthority authority projectId actorId)
    bindText sessionId
    refuse ((projectId, actorId, sessionId) ∉ authority.sessionBindings)
      (.conflict "session is not active for the authenticated project principal")

end Principals

section Identity

structure IdentityContext where
  projectId : String
  database : DatabaseIdentity
  workspaceBindingDigest : String
  deriving DecidableEq

inductive IdentityError
  | store (error : StoreError)
  | invalid (field message : String)
  | projectNotFound (projectId : String)
  | foreignSubject (projectId subject id : String)
  | databaseInstanceConflict (expected actual : String)
  | restoreEpochConflict (expected actual : ℕ)
  | workspaceConflict (projectId : String)
  | operationInvalidated (operationId : String) (epoch : ℕ)
  deriving DecidableEq

def IdentityError.display : IdentityError → String
  | store error => error.display
  | invalid field message => s!"invalid {field}: {message}"
  | projectNotFound projectId => s!"project not found: {projectId}"
  | foreignSubject projectId subject id =>
    s!"{subject} {id} is not addressable in project {projectId}"
  | databaseInstanceConflict expected actual =>
    s!"database instance conflict: expected {expected}, actual {actual}"
  | restoreEpochConflict expected actual =>
    s!"restore epoch conflict: expected {expected}, actual {actual}"
  | workspaceConflict projectId => s!"workspace binding conflict for project {projectId}"
  | operationInvalidated operationId epoch =>
    s!"operation {operationId} invalidated by restore epoch {epoch}"

def operationIdentityError (error : IdentityError) : StoreError :=
  .conflict s!"operation identity: {error.display}"

def requireText (field value : String) : Except IdentityError Unit :=
  refuse (isBlank value ∨ '\x00' ∈ value.toList)
    (.invalid field "value must be non-empty and NUL-free")

variable (authority : Authority)

def databaseIdentity : Except IdentityError DatabaseIdentity :=
  match authority.databaseIdentity with
  | none => .error (.invalid "database_identity" "database identity is not installed")
  | some database => .ok database

def projectIdentityRow (projectId : String) : Except IdentityError ProjectIdentityRow :=
  match authority.projectIdentities projectId with
  | none => .error (.projectNotFound projectId)
  | some row => .ok row

def identityContext (projectId : String) : Except IdentityError IdentityContext := do
  let database ← databaseIdentity authority
  let row ← projectIdentityRow authority projectId
  refuse (row.database ≠ database)
    (.restoreEpochConflict row.database.restoreEpoch database.restoreEpoch)
  return ⟨projectId, database, row.bindingDigest⟩

/-- The two refusals of a stored lineage that is not the context's. -/
def sameLineage (expected actual : DatabaseIdentity) : Except IdentityError Unit := do
  refuse (expected.databaseInstanceId ≠ actual.databaseInstanceId)
    (.databaseInstanceConflict expected.databaseInstanceId actual.databaseInstanceId)
  refuse (expected.restoreEpoch ≠ actual.restoreEpoch)
    (.restoreEpochConflict expected.restoreEpoch actual.restoreEpoch)

def verifyContext (context : IdentityContext) : Except IdentityError Unit := do
  requireText "project_id" context.projectId
  sameLineage context.database (← databaseIdentity authority)
  let row ← projectIdentityRow authority context.projectId
  sameLineage context.database row.database
  refuse (row.bindingDigest ≠ context.workspaceBindingDigest)
    (.workspaceConflict context.projectId)

def projectIdentityIsBound (projectId : String) : Except StoreError Bool := do
  bindText projectId
  return (authority.projectIdentities projectId).isSome

def operationIdentityContext (projectId : String) :
    Except StoreError (Option IdentityContext) := do
  refuse (authority.canonicalProduction ∧ ¬ authority.identityTablesInstalled)
    (.corrupt "canonical production schema is missing its identity tables")
  let bound ← (if authority.identityTablesInstalled then projectIdentityIsBound authority projectId
    else .ok false : Except StoreError Bool)
  if bound then
    let context ← (identityContext authority projectId).mapError operationIdentityError
    return some context
  else
    refuse authority.canonicalProduction (.conflict <|
      s!"production project {projectId} requires a workspace identity binding before " ++
        "consequential operation writes")
    return none

end Identity

section Reads
variable {ρ : Type} (authority : Authority) (store : SqliteStore ρ)

def operation (operationId : String) : Except StoreError (Option OperationRecord) := do
  bindText operationId
  return store.operations.find? (fun row => row.operationId = operationId)

def auditEvent (operationId : String) : Except StoreError (Option AuditEventRecord) := do
  bindText operationId
  return store.audits.find? (fun row => row.operationId = operationId)

def projectRevision (projectId : String) : Except StoreError ℕ := do
  bindText projectId
  match store.revisions projectId with
  | none => .error (.notFound "project" projectId)
  | some revision => .ok revision

/-- Of an evidence execution, the project is all that a replay reads. -/
structure OperationReadback where
  operation : Option OperationRecord
  execution : Option String

def operationReadback (projectId operationId : String) :
    Except StoreError (Option OperationReadback) := do
  let found ← operation store operationId
  let execution := authority.evidenceExecutions operationId
  if found.isNone ∧ execution.isNone then return none
  else
    found.forM fun row => refuse (row.projectId ≠ projectId) (.wrongSubject projectId row.projectId)
    execution.forM fun project => refuse (project ≠ projectId) (.wrongSubject projectId project)
    found.forM fun row => execution.forM fun project => refuse (row.projectId ≠ project)
      (.corrupt "operation and evidence execution project scopes disagree")
    return some ⟨found, execution⟩

def identityOperation (context : IdentityContext) (operationId : String) :
    Except IdentityError (Option OperationReadback) := do
  requireText "operation_id" operationId
  verifyContext authority context
  match store.operationIdentities.find? (fun row => row.operationId = operationId) with
  | none => return none
  | some row => do
    refuse (row.projectId ≠ context.projectId)
      (.foreignSubject context.projectId "operation" operationId)
    sameLineage context.database row.database
    refuse row.invalidated (.operationInvalidated operationId row.database.restoreEpoch)
    (operationReadback authority store context.projectId operationId).mapError .store

end Reads

/-- The immutable request fields that tell an exact replay from an unsafe reuse. -/
structure OperationIdentity where
  operationId : String
  projectId : String
  command : String
  actorId : String
  sessionId : Option String
  expectedRevision : Option ℕ
  attemptId : Option String
  fence : Option ℕ
  requestDigest : String
  subject : Option (String × String)

namespace OperationIdentity

def fromRecord (operation : OperationRecord) (subject : Option (String × String)) :
    OperationIdentity where
  operationId := operation.operationId
  projectId := operation.projectId
  command := operation.command
  actorId := operation.actorId
  sessionId := operation.sessionId
  expectedRevision := operation.expectedRevision
  attemptId := operation.attemptId
  fence := operation.fence
  requestDigest := operation.requestDigest
  subject := subject

def validate (identity : OperationIdentity) : Except StoreError Unit := do
  [("operation_id", identity.operationId), ("project_id", identity.projectId),
    ("command", identity.command), ("actor_id", identity.actorId),
    ("request_digest", identity.requestDigest)].forM fun (field, value) =>
      refuse (isBlank value) (.invalid s!"operation identity requires a non-empty {field}")
  [("session_id", identity.sessionId), ("attempt_id", identity.attemptId)].forM
    fun (field, value) =>
      refuse (value.any isBlank) (.invalid s!"operation identity {field} must not be empty")
  refuse (identity.fence = some 0)
    (.invalid "operation identity fence must be greater than zero")
  refuse (identity.subject.any fun subject => isBlank subject.1 || isBlank subject.2)
    (.invalid "operation identity subject must have a type and id")

def MatchesRecord (identity : OperationIdentity) (operation : OperationRecord) : Prop :=
  identity.operationId = operation.operationId ∧ identity.projectId = operation.projectId ∧
    identity.command = operation.command ∧ identity.actorId = operation.actorId ∧
    identity.sessionId = operation.sessionId ∧
    identity.expectedRevision = operation.expectedRevision ∧
    identity.attemptId = operation.attemptId ∧ identity.fence = operation.fence ∧
    identity.requestDigest = operation.requestDigest

instance (identity : OperationIdentity) (operation : OperationRecord) :
    Decidable (identity.MatchesRecord operation) :=
  inferInstanceAs (Decidable (_ ∧ _))

end OperationIdentity

def eventTypes : List String :=
  ["work.created", "work.published", "work.closed", "work.blocked", "work.paused", "work.resumed",
    "work.cancelled", "work.reopened", "attempt.claimed", "attempt.accepted", "attempt.started",
    "attempt.submitted", "attempt.released", "attempt.failed", "attempt.expiry_pending",
    "attempt.expired", "evidence.verifier.admitted", "expiry.resolved", "lease.renewed",
    "receipt.recorded", "receipt.rejected", "review.accepted", "review.rejected",
    "close.requested", "close.completed", "gate.satisfied", "hold.resolved",
    "repair.correction", "repair.supersession"]

def subjectTypes : List String :=
  ["work", "attempt", "receipt", "review", "gate", "hold", "dependency", "summary", "operation", "project"]

def validateEventIdentity (eventType subjectType : String) : Except StoreError Unit := do
  refuse (eventType ∉ eventTypes) (.invalid s!"audit event type is not registered: {eventType}")
  refuse (subjectType ∉ subjectTypes)
    (.invalid s!"audit subject type is not registered: {subjectType}")

def validateAuditIdentityFields (audit : AuditEventRecord) : Except StoreError Unit := do
  [("audit project_id", audit.projectId), ("audit operation_id", audit.operationId),
    ("audit event_type", audit.eventType), ("audit subject_type", audit.subjectType),
    ("audit subject_id", audit.subjectId), ("audit actor_id", audit.actorId),
    ("audit as_of", audit.asOf)].forM fun (field, value) =>
      refuse (isBlank value) (.invalid s!"{field} must not be empty")
  refuse (audit.sessionId.any isBlank) (.invalid "audit session_id must not be empty")
  refuse (audit.fence = some 0) (.invalid "audit fence must be greater than zero")
  refuse (audit.revision = 0) (.invalid "audit revision must be greater than zero")
  validateEventIdentity audit.eventType audit.subjectType

def validateOperationAudit (operation : OperationRecord) (audit : AuditEventRecord) :
    Except StoreError Unit := do
  refuse (audit.projectId ≠ operation.projectId ∨ audit.operationId ≠ operation.operationId ∨
      audit.actorId ≠ operation.actorId ∨ audit.sessionId ≠ operation.sessionId ∨
      audit.fence ≠ operation.fence ∨ audit.revision ≠ operation.revision)
    (.corrupt "operation and audit immutable identities disagree")
  validateAuditIdentityFields audit

structure OperationBundle where
  operation : OperationRecord
  audit : Option AuditEventRecord

def OperationOutcome.isTerminal (outcome : OperationOutcome) : Bool :=
  outcome ≠ .busy ∧ outcome ≠ .unknown

def OperationBundle.validate (bundle : OperationBundle) : Except StoreError Unit := do
  (OperationIdentity.fromRecord bundle.operation none).validate
  refuse (bundle.operation.outcome.isTerminal ≠ bundle.operation.completedAt.isSome)
    (.invalid ("terminal operations require completed_at; pending/unknown operations must not " ++
      "set it"))
  refuse (bundle.operation.outcome.isTerminal ∧ bundle.audit.isNone)
    (.invalid "terminal operation requires an audit event in the same transaction")
  bundle.audit.forM fun audit => do
    validateAuditIdentityFields audit
    refuse (audit.projectId ≠ bundle.operation.projectId ∨
        audit.operationId ≠ bundle.operation.operationId)
      (.wrongSubject s!"{bundle.operation.projectId}/{bundle.operation.operationId}"
        s!"{audit.projectId}/{audit.operationId}")
    refuse (audit.actorId ≠ bundle.operation.actorId)
      (.wrongOwner bundle.operation.actorId audit.actorId)
    refuse (audit.revision ≠ bundle.operation.revision)
      (.conflict "operation and audit revision identities disagree")

def OperationBundle.validateIdentity (bundle : OperationBundle) : Except StoreError Unit := do
  bundle.validate
  bundle.audit.forM fun audit => do
    refuse (audit.sessionId ≠ bundle.operation.sessionId)
      (.conflict "operation and audit session identities disagree")
    refuse (audit.fence ≠ bundle.operation.fence)
      (.conflict "operation and audit fence identities disagree")

section Journal
variable {ρ : Type} (authority : Authority) (store : SqliteStore ρ)

def unique (column : String) : StoreError :=
  .constraint .unique s!"UNIQUE constraint failed: {column}"

def foreignKey : StoreError := .constraint .foreignKey "FOREIGN KEY constraint failed"

/-- The rows that an operation and its audit event refer to. -/
def References (projectId actorId : String) (sessionId : Option String) : Prop :=
  (store.revisions projectId).isSome ∧ (authority.actors actorId).isSome ∧
    ∀ session ∈ sessionId, session ∈ authority.sessions

instance (projectId actorId : String) (sessionId : Option String) :
    Decidable (References authority store projectId actorId sessionId) :=
  inferInstanceAs (Decidable (_ ∧ _))

def recordOperationContext (context : IdentityContext) (operationId : String) :
    Except IdentityError (SqliteStore ρ) := do
  requireText "operation_id" operationId
  verifyContext authority context
  match store.operations.find? (fun row => row.operationId = operationId) with
  | none => .error (.operationInvalidated operationId context.database.restoreEpoch)
  | some row => do
    refuse (row.projectId ≠ context.projectId)
      (.foreignSubject context.projectId "operation" operationId)
    match store.operationIdentities.find? (fun row => row.operationId = operationId) with
    | some row => do
      refuse (row.projectId ≠ context.projectId)
        (.foreignSubject context.projectId "operation" operationId)
      sameLineage context.database row.database
      refuse row.invalidated (.operationInvalidated operationId row.database.restoreEpoch)
      return store
    | none => return { store with operationIdentities := store.operationIdentities ++
        [⟨operationId, context.projectId, context.database, false⟩] }

def insertOperation (operation : OperationRecord) : Except StoreError (SqliteStore ρ) := do
  [operation.operationId, operation.projectId, operation.command, operation.actorId].forM bindText
  bindOptionalText operation.sessionId
  bindOptionalI64 operation.expectedRevision
  bindOptionalText operation.attemptId
  bindOptionalI64 operation.fence
  bindText operation.requestDigest
  bindI64 operation.revision
  bindText operation.createdAt
  bindOptionalText operation.completedAt
  refuse (operation.operationId ∈ store.operations.map OperationRecord.operationId)
    (unique "operation.operation_id")
  refuse (¬ References authority store operation.projectId operation.actorId operation.sessionId)
    foreignKey
  return { store with operations := store.operations ++ [operation] }

def appendOperation (operation : OperationRecord) : Except StoreError (SqliteStore ρ) := do
  let context ← operationIdentityContext authority operation.projectId
  let store ← insertOperation authority store operation
  match context with
  | none => return store
  | some context =>
    (recordOperationContext authority store context operation.operationId).mapError
      operationIdentityError

def insertAuditEvent (event : AuditEventRecord) : Except StoreError (SqliteStore ρ) := do
  bindText event.projectId
  bindI64 event.revision
  [event.operationId, event.eventType, event.subjectType, event.subjectId, event.actorId].forM
    bindText
  bindOptionalText event.sessionId
  bindOptionalI64 event.fence
  bindText event.asOf
  refuse (event.revision = 0 ∨ event.eventType ∉ eventTypes ∨ event.subjectType ∉ subjectTypes ∨
    event.fence = some 0) (.constraint .check "CHECK constraint failed: audit_event")
  refuse (event.operationId ∈ store.audits.map AuditEventRecord.operationId)
    (unique "audit_event.operation_id")
  refuse ((event.projectId, event.revision) ∈
      store.audits.map fun row => (row.projectId, row.revision))
    (unique "audit_event.project_id, audit_event.revision")
  refuse (¬ References authority store event.projectId event.actorId event.sessionId) foreignKey
  return { store with audits := store.audits ++ [event] }

def appendAuditEvent (event : AuditEventRecord) : Except StoreError (SqliteStore ρ) := do
  let context ← operationIdentityContext authority event.projectId
  match ← operation store event.operationId with
  | none => .error (.corrupt "audit event has no operation outcome")
  | some row => do
    refuse (row.projectId ≠ event.projectId) (.wrongSubject row.projectId event.projectId)
    refuse (row.actorId ≠ event.actorId ∨ row.sessionId ≠ event.sessionId ∨
        row.fence ≠ event.fence)
      (.conflict "operation and audit actor/session/fence identities disagree")
    refuse (row.revision ≠ event.revision)
      (.conflict "operation and audit revision identities disagree")
    refuse (context.isSome ∧ ¬ ∃ row ∈ store.operationIdentities,
        row.operationId = event.operationId ∧ row.projectId = event.projectId ∧
          row.invalidated = false)
      (.corrupt "identity-bound audit event has no committed operation identity")
    insertAuditEvent authority store event

def appendInTransactionWithIdentity (context : IdentityContext) (bundle : OperationBundle) :
    Except StoreError (SqliteStore ρ) := do
  bundle.validateIdentity
  match bundle.audit with
  | none => .error (.invalid "identity-bound operation requires an audit event")
  | some audit => do
    (verifyContext authority context).mapError operationIdentityError
    refuse (bundle.operation.projectId ≠ context.projectId)
      (.wrongSubject context.projectId bundle.operation.projectId)
    let operation := boundedOperation bundle.operation
    let store ← appendOperation authority store operation
    let store ← (recordOperationContext authority store context operation.operationId).mapError
      operationIdentityError
    appendAuditEvent authority store (redactedEvent audit)

def appendOperationAuditInTransaction (operation : OperationRecord) (audit : AuditEventRecord) :
    Except StoreError (SqliteStore ρ) := do
  match ← operationIdentityContext authority operation.projectId with
  | some context => appendInTransactionWithIdentity authority store context ⟨operation, some audit⟩
  | none => do
    refuse authority.canonicalProduction
      (.corrupt "canonical production operation requires project identity binding")
    let store ← appendOperation authority store operation
    appendAuditEvent authority store audit

/-- Returns an exact replay and rejects reuse across immutable request fields. -/
def replayInContext (context : IdentityContext) (identity : OperationIdentity) :
    Except StoreError (Option OperationReadback) := do
  identity.validate
  let readback ← (identityOperation authority store context identity.operationId).mapError
    operationIdentityError
  match readback with
  | none => do
    let found ← operation store identity.operationId
    refuse found.isSome (.corrupt "operation exists without a durable database identity")
    return none
  | some readback =>
    match readback.operation with
    | none => .error (.corrupt "identity-bound operation has no operation outcome")
    | some row => do
      refuse (¬ identity.MatchesRecord row)
        (.conflict "operation ID was reused with a different immutable identity")
      match ← auditEvent store identity.operationId with
      | none => .error (.corrupt "operation audit event is missing")
      | some audit => do
        validateOperationAudit row audit
        identity.subject.forM fun subject =>
          refuse (audit.subjectType ≠ subject.1 ∨ audit.subjectId ≠ subject.2)
            (.wrongSubject s!"{subject.1}/{subject.2}"
              s!"{audit.subjectType}/{audit.subjectId}")
        return some { readback with operation := some (boundedOperation row) }

def preflightOperationReplay (asked : OperationIdentity) :
    Except StoreError (Option OperationRecord) := do
  onlyIf (authority.canonicalProduction ∧
      asked.command ≠ "project.init" ∧ asked.command ≠ "principal.bootstrap")
    (discard (principalAuthority authority asked.projectId asked.actorId))
  let context ← operationIdentityContext authority asked.projectId
  match ← operation store asked.operationId with
  | none => do
    onlyIf (authority.canonicalProduction ∧ asked.command ≠ "session.register")
      (asked.sessionId.forM (validateProjectSession authority asked.projectId asked.actorId))
    return none
  | some existing => do
    refuse (¬ asked.MatchesRecord existing) (.conflict
      s!"operation {asked.operationId} was already used with another immutable identity")
    match context with
    | some context => do
      match ← replayInContext authority store context
          (.fromRecord existing asked.subject) with
      | none => .error (.corrupt
          "operation exists but identity-bound replay returned no result")
      | some _ => return some existing
    | none => do
      (← auditEvent store asked.operationId).forM fun audit =>
        asked.subject.forM fun subject =>
          refuse (audit.subjectType ≠ subject.1 ∨ audit.subjectId ≠ subject.2)
            (.wrongSubject s!"{subject.1}/{subject.2}"
              s!"{audit.subjectType}/{audit.subjectId}")
      return some existing

end Journal

end Boreal.Store
