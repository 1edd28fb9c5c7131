/- The canonical fact transaction: role and session, replay, revision, write, journal and audit,
committed together or rolled back together. -/
import BorealWork.StoreJournal

namespace Boreal.Store
open Drain JsonValue

structure V3MutationContext where
  projectId : String
  actorId : String
  sessionId : Option String
  operationId : String
  requestDigest : String
  expectedRevision : Option ℕ
  now : String

structure MutationResult where
  operationId : String
  revision : ℕ
  replayed : Bool
  deriving DecidableEq

/-- One call: the context, what the command is about, the roles it permits, and its write, which
may read the whole store and changes domain rows only. -/
structure Mutation (ρ : Type) where
  context : V3MutationContext
  command : String
  subjectType : String
  subjectId : String
  roles : List ActorRole
  write : SqliteStore ρ → Except StoreError ρ

variable {ρ : Type} (authority : Authority) (store : SqliteStore ρ) (call : Mutation ρ)

def semanticSubject (payload : Value) : Except StoreError (String × String) :=
  match payload.getString? "subject_type", payload.getString? "subject_id" with
  | some subjectType, some subjectId => .ok (subjectType, subjectId)
  | _, _ => .error (.corrupt "v3 operation result is missing its semantic subject identity")

def ensureV3ReplayIdentity (existing : OperationRecord) : Except StoreError Unit := do
  refuse (existing.actorId ≠ call.context.actorId)
    (.wrongOwner existing.actorId call.context.actorId)
  refuse (existing.sessionId ≠ call.context.sessionId)
    (.conflict "operation ID was reused with a different authenticated session")
  refuse (existing.expectedRevision ≠ call.context.expectedRevision)
    (.conflict "operation ID was reused with a different expected revision")
  let existingSubject ← semanticSubject existing.resultJson
  refuse (existingSubject.1 ≠ call.subjectType ∨ existingSubject.2 ≠ call.subjectId)
    (.wrongSubject s!"{call.subjectType}/{call.subjectId}"
      s!"{existingSubject.1}/{existingSubject.2}")

def checkExpectedRevision (actual : ℕ) (expected : Option ℕ) : Except StoreError Unit :=
  expected.forM fun expected => refuse (expected ≠ actual) (.staleRevision expected actual)

/-- SQLite adds one until the largest integer, which is where a larger sum reads back. -/
def nextRevision (revision : ℕ) : ℕ := min (revision + 1) maxInteger

def bumpRevisionInTransaction (projectId : String) : Except StoreError (ℕ × SqliteStore ρ) := do
  let revision ← projectRevision store projectId
  return (nextRevision revision, { store with
    revisions := Function.update store.revisions projectId (some (nextRevision revision)) })

def mutationPayload : Value :=
  .object [("command", .string call.command), ("subject_id", .string call.subjectId),
    ("subject_type", .string call.subjectType)]

def mutationOperation (revision : ℕ) : OperationRecord where
  operationId := call.context.operationId
  projectId := call.context.projectId
  command := call.command
  actorId := call.context.actorId
  sessionId := call.context.sessionId
  expectedRevision := call.context.expectedRevision
  attemptId := none
  fence := none
  requestDigest := call.context.requestDigest
  outcome := .changed
  resultJson := mutationPayload call
  revision := revision
  createdAt := call.context.now
  completedAt := some call.context.now

def mutationAudit (revision : ℕ) : AuditEventRecord where
  projectId := call.context.projectId
  revision := revision
  operationId := call.context.operationId
  eventType := "repair.correction"
  subjectType := "operation"
  subjectId := call.context.operationId
  actorId := call.context.actorId
  sessionId := call.context.sessionId
  fence := none
  asOf := call.context.now
  payloadJson := mutationPayload call

/-- The production checks, before anything is read of the journal. -/
def authorizeMutation : Except StoreError Unit :=
  onlyIf authority.canonicalProduction do
    let (role, _) ← principalAuthority authority call.context.projectId call.context.actorId
    refuse (role ∉ call.roles)
      (.invalid "principal role does not permit this canonical mutation")
    refuse (call.context.expectedRevision.isNone ∨ call.context.sessionId.isNone)
      (.invalid "canonical mutations require explicit revision and project session")
    match call.context.sessionId with
    | none => .error (.invalid "project session missing")
    | some session =>
      validateProjectSession authority call.context.projectId call.context.actorId session

def classifyKnown : Except StoreError Unit := do
  (← operation store call.context.operationId).forM fun existing => do
    refuse (existing.projectId ≠ call.context.projectId ∨ existing.command ≠ call.command)
      (.conflict s!"operation {call.context.operationId} was already used with another immutable identity")
    ensureV3ReplayIdentity call existing
    refuse (existing.requestDigest ≠ call.context.requestDigest)
      (.conflict "operation request digest mismatch")

/-- The second: the replay helper, then its record once more. -/
def replayKnown : Except StoreError (Option MutationResult) := do
  match ← preflightOperationReplay authority store
      ⟨call.context.operationId, call.context.projectId, call.command, call.context.actorId,
        call.context.sessionId, call.context.expectedRevision, none, none,
        call.context.requestDigest, some ("operation", call.context.operationId)⟩ with
  | none => return none
  | some existing => do
    refuse (existing.projectId ≠ call.context.projectId ∨ existing.command ≠ call.command ∨
        existing.requestDigest ≠ call.context.requestDigest)
      (.conflict "operation request digest mismatch")
    ensureV3ReplayIdentity call existing
    return some ⟨call.context.operationId, existing.revision, true⟩

def performMutation : Except StoreError (MutationResult × SqliteStore ρ) := do
  let current ← projectRevision store call.context.projectId
  checkExpectedRevision current call.context.expectedRevision
  let rows ← call.write store
  let (revision, store) ← bumpRevisionInTransaction { store with rows := rows }
    call.context.projectId
  let store ← appendOperationAuditInTransaction authority store
    (mutationOperation call revision) (mutationAudit call revision)
  return (⟨call.context.operationId, revision, false⟩, store)

/-- The transaction's body, between BEGIN and COMMIT or ROLLBACK. -/
def mutationBody : Except StoreError (MutationResult × SqliteStore ρ) := do
  authorizeMutation authority call
  classifyKnown store call
  match ← replayKnown authority store call with
  | some replayed => return (replayed, store)
  | none => performMutation authority store call

def factMutation : Except StoreError MutationResult × SqliteStore ρ :=
  if ¬ authority.workModelV3Enabled then
    (.error (.unsupportedSchema authority.schemaVersion), store)
  else match mutationBody authority store call with
    | .ok (result, committed) => (.ok result, committed)
    | .error error => (.error error, store)

end Boreal.Store
