/- The three ways a fact mutation ends, what a commit leaves in the journal, and what calls under the
id of a recorded operation come to. -/
import BorealWork.Mutations

namespace Boreal.Store
open Drain JsonValue

variable {ρ : Type} {authority : Authority} {store store' : SqliteStore ρ} {call call' : Mutation ρ}

/-- The request's immutable identity: what a repeat must have in common with the first call. -/
structure SameIdentity (call call' : Mutation ρ) : Prop where
  project : call'.context.projectId = call.context.projectId
  command : call'.command = call.command
  actor : call'.context.actorId = call.context.actorId
  session : call'.context.sessionId = call.context.sessionId
  expected : call'.context.expectedRevision = call.context.expectedRevision
  subjectType : call'.subjectType = call.subjectType
  subjectId : call'.subjectId = call.subjectId
  digest : call'.context.requestDigest = call.context.requestDigest

/-- The call made again: its time and its write may be new, the permitted roles are the command's. -/
structure Repeats (call call' : Mutation ρ) : Prop extends SameIdentity call call' where
  operationId : call'.context.operationId = call.context.operationId
  roles : call'.roles = call.roles

/-- The project has an identity row, so that its journal is redacted and read in context. -/
def Bound (authority : Authority) (projectId : String) : Prop :=
  authority.identityTablesInstalled = true ∧ (authority.projectIdentities projectId).isSome

/-- What the journal of a bound project can give back of a call. -/
structure Legible (authority : Authority) (call : Mutation ρ) : Prop where
  subjectType : redactString call.subjectType = call.subjectType
  subjectId : redactString call.subjectId = call.subjectId
  bounded : (redactValue (mutationPayload call)).encodedLength ≤ maxAuditBytes
  execution : ∀ project ∈ authority.evidenceExecutions call.context.operationId,
    project = call.context.projectId

instance (projectId : String) : Decidable (Bound authority projectId) :=
  inferInstanceAs (Decidable (_ ∧ _))

section Stored
variable (authority)

/-- The rows as the journal keeps them. -/
def keptOperation (operation : OperationRecord) : OperationRecord :=
  if Bound authority operation.projectId then boundedOperation operation else operation

def keptAudit (audit : AuditEventRecord) : AuditEventRecord :=
  if Bound authority audit.projectId then redactedEvent audit else audit

end Stored

theorem operation_eq_ok {operationId : String} {found : Option OperationRecord} :
    operation store operationId = .ok found ↔ bindText operationId = .ok () ∧
      store.operations.find? (fun row => row.operationId = operationId) = found := by
  rw [operation, bind_eq_ok]
  constructor
  · rintro ⟨_, bound, read⟩
    exact ⟨bound, Except.ok.inj read⟩
  · rintro ⟨bound, rfl⟩
    exact ⟨(), bound, rfl⟩

theorem auditEvent_eq_ok {operationId : String} {found : Option AuditEventRecord} :
    auditEvent store operationId = .ok found ↔ bindText operationId = .ok () ∧
      store.audits.find? (fun row => row.operationId = operationId) = found := by
  rw [auditEvent, bind_eq_ok]
  constructor
  · rintro ⟨_, bound, read⟩
    exact ⟨bound, Except.ok.inj read⟩
  · rintro ⟨bound, rfl⟩
    exact ⟨(), bound, rfl⟩

variable {projectId : String}

theorem projectRevision_eq_ok {revision : ℕ} :
    projectRevision store projectId = .ok revision ↔
      bindText projectId = .ok () ∧ store.revisions projectId = some revision := by
  rw [projectRevision, bind_eq_ok]
  constructor
  · rintro ⟨_, bound, read⟩
    cases found : store.revisions projectId with
    | none => simp [found] at read
    | some r =>
      simp only [found, Except.ok.injEq] at read
      exact ⟨bound, congrArg some read⟩
  · rintro ⟨bound, found⟩
    exact ⟨(), bound, by simp only [found]⟩

theorem operationIdentityContext_eq_ok {context : Option IdentityContext}
    (read : operationIdentityContext authority projectId = .ok context) :
    (context.isSome ↔ Bound authority projectId) ∧
      ∀ c ∈ context, identityContext authority projectId = .ok c := by
  obtain ⟨_, _, read⟩ := bind_eq_ok.mp read
  obtain ⟨bound, asked, read⟩ := bind_eq_ok.mp read
  have told : bound = true ↔ Bound authority projectId := by
    unfold Bound
    by_cases installed : authority.identityTablesInstalled = true
    · rw [if_pos installed] at asked
      obtain ⟨_, _, told⟩ := bind_eq_ok.mp asked
      rw [← Except.ok.inj told, and_iff_right installed]
    · rw [if_neg installed] at asked
      rw [← Except.ok.inj asked]
      exact iff_of_false Bool.false_ne_true fun both => installed both.1
  rw [← told]
  cases bound with
  | true =>
    obtain ⟨c, found, read⟩ := bind_eq_ok.mp read
    cases Except.ok.inj read
    refine ⟨iff_of_true rfl rfl, fun c' member => ?_⟩
    cases Option.mem_some_iff.mp member
    exact mapError_eq_ok.mp found
  | false =>
    obtain ⟨_, _, read⟩ := bind_eq_ok.mp read
    cases Except.ok.inj read
    exact ⟨iff_of_false (by simp) (by simp), fun c member => by cases member⟩

theorem identityContext_project {context : IdentityContext}
    (read : identityContext authority projectId = .ok context) : context.projectId = projectId := by
  obtain ⟨_, _, read⟩ := bind_eq_ok.mp read
  obtain ⟨_, _, read⟩ := bind_eq_ok.mp read
  obtain ⟨_, _, read⟩ := bind_eq_ok.mp read
  cases Except.ok.inj read
  rfl

section Appends
variable {operation : OperationRecord} {event : AuditEventRecord}

theorem insertOperation_eq_ok (done : insertOperation authority store operation = .ok store') :
    bindText operation.operationId = .ok () ∧
      (∀ row ∈ store.operations, row.operationId ≠ operation.operationId) ∧
      store' = { store with operations := store.operations ++ [operation] } := by
  obtain ⟨_, bound, done⟩ := bind_eq_ok.mp done
  obtain ⟨_, _, done⟩ := bind_eq_ok.mp done
  obtain ⟨_, _, done⟩ := bind_eq_ok.mp done
  obtain ⟨_, _, done⟩ := bind_eq_ok.mp done
  obtain ⟨_, _, done⟩ := bind_eq_ok.mp done
  obtain ⟨_, _, done⟩ := bind_eq_ok.mp done
  obtain ⟨_, _, done⟩ := bind_eq_ok.mp done
  obtain ⟨_, _, done⟩ := bind_eq_ok.mp done
  obtain ⟨_, _, done⟩ := bind_eq_ok.mp done
  obtain ⟨_, absent, done⟩ := bind_eq_ok.mp done
  obtain ⟨_, _, done⟩ := bind_eq_ok.mp done
  refine ⟨forM_eq_ok.mp bound _ List.mem_cons_self, ?_, (Except.ok.inj done).symm⟩
  intro row member same
  exact refuse_eq_ok.mp absent (List.mem_map.mpr ⟨row, member, same⟩)

theorem insertAuditEvent_eq_ok (done : insertAuditEvent authority store event = .ok store') :
    (∀ row ∈ store.audits, row.operationId ≠ event.operationId ∧
        (row.projectId, row.revision) ≠ (event.projectId, event.revision)) ∧
      store' = { store with audits := store.audits ++ [event] } := by
  obtain ⟨_, _, done⟩ := bind_eq_ok.mp done
  obtain ⟨_, _, done⟩ := bind_eq_ok.mp done
  obtain ⟨_, _, done⟩ := bind_eq_ok.mp done
  obtain ⟨_, _, done⟩ := bind_eq_ok.mp done
  obtain ⟨_, _, done⟩ := bind_eq_ok.mp done
  obtain ⟨_, _, done⟩ := bind_eq_ok.mp done
  obtain ⟨_, _, done⟩ := bind_eq_ok.mp done
  obtain ⟨_, other, done⟩ := bind_eq_ok.mp done
  obtain ⟨_, unused, done⟩ := bind_eq_ok.mp done
  obtain ⟨_, _, done⟩ := bind_eq_ok.mp done
  refine ⟨?_, (Except.ok.inj done).symm⟩
  intro row member
  constructor
  · intro same
    exact refuse_eq_ok.mp other (List.mem_map.mpr ⟨row, member, same⟩)
  · intro same
    exact refuse_eq_ok.mp unused (List.mem_map.mpr ⟨row, member, same⟩)

theorem appendAuditEvent_eq_ok (done : appendAuditEvent authority store event = .ok store') :
    insertAuditEvent authority store event = .ok store' := by
  obtain ⟨_, _, done⟩ := bind_eq_ok.mp done
  obtain ⟨found, _, done⟩ := bind_eq_ok.mp done
  cases found with
  | none => cases done
  | some row =>
    obtain ⟨_, _, done⟩ := bind_eq_ok.mp done
    obtain ⟨_, _, done⟩ := bind_eq_ok.mp done
    obtain ⟨_, _, done⟩ := bind_eq_ok.mp done
    obtain ⟨_, _, done⟩ := bind_eq_ok.mp done
    exact done

def CurrentRow (context : IdentityContext) (row : OperationIdentityRow) : Prop :=
  row.projectId = context.projectId ∧ sameLineage context.database row.database = .ok () ∧
    row.invalidated = false

theorem sameLineage_self (database : DatabaseIdentity) : sameLineage database database = .ok () :=
  bind_eq_ok.mpr ⟨(), refuse_eq_ok.mpr fun differ => differ rfl, refuse_eq_ok.mpr fun differ => differ rfl⟩

theorem recordOperationContext_eq_ok {context : IdentityContext} {operationId : String}
    (done : recordOperationContext authority store context operationId = .ok store') :
    requireText "operation_id" operationId = .ok () ∧
      verifyContext authority context = .ok () ∧
      ∃ added, store' = { store with operationIdentities := store.operationIdentities ++ added } ∧
        ∃ row, store'.operationIdentities.find? (fun row => row.operationId = operationId) =
          some row ∧ CurrentRow context row := by
  obtain ⟨_, named, done⟩ := bind_eq_ok.mp done
  obtain ⟨_, verified, done⟩ := bind_eq_ok.mp done
  refine ⟨named, verified, ?_⟩
  cases found : store.operations.find? (fun row => row.operationId = operationId) with
  | none => simp [found] at done
  | some operation =>
    simp only [found] at done
    obtain ⟨_, _, done⟩ := bind_eq_ok.mp done
    cases known : store.operationIdentities.find? (fun row => row.operationId = operationId) with
    | some row =>
      simp only [known] at done
      obtain ⟨_, own, done⟩ := bind_eq_ok.mp done
      obtain ⟨_, lineage, done⟩ := bind_eq_ok.mp done
      obtain ⟨_, valid, done⟩ := bind_eq_ok.mp done
      cases Except.ok.inj done
      refine ⟨[], by rw [List.append_nil], row, known, ?_, lineage, ?_⟩
      · exact not_not.mp (refuse_eq_ok.mp own)
      · exact Bool.not_eq_true _ ▸ refuse_eq_ok.mp valid
    | none =>
      simp only [known] at done
      cases Except.ok.inj done
      refine ⟨_, rfl, ⟨operationId, context.projectId, context.database, false⟩, ?_, rfl,
        sameLineage_self _, rfl⟩
      rw [List.find?_append, known]
      simp

end Appends

section Journaled
variable {operation : OperationRecord} {audit : AuditEventRecord}

structure Journaled (authority : Authority) (store : SqliteStore ρ) (operation : OperationRecord)
    (audit : AuditEventRecord) (store' : SqliteStore ρ) : Prop where
  named : bindText operation.operationId = .ok ()
  fresh : ∀ row ∈ store.operations, row.operationId ≠ operation.operationId
  unaudited : ∀ row ∈ store.audits, row.operationId ≠ audit.operationId ∧
    (row.projectId, row.revision) ≠ (audit.projectId, audit.revision)
  operations : store'.operations = store.operations ++ [keptOperation authority operation]
  audits : store'.audits = store.audits ++ [keptAudit authority audit]
  identities : ∃ added, store'.operationIdentities = store.operationIdentities ++ added
  rows : store'.rows = store.rows
  revisions : store'.revisions = store.revisions
  context : ∃ context, operationIdentityContext authority operation.projectId = .ok context
  identity : Bound authority operation.projectId →
    ∀ context, identityContext authority operation.projectId = .ok context →
      requireText "operation_id" operation.operationId = .ok () ∧
        verifyContext authority context = .ok () ∧
        ∃ row, store'.operationIdentities.find?
            (fun row => row.operationId = operation.operationId) = some row ∧
          CurrentRow context row
  valid : Bound authority operation.projectId →
    (OperationIdentity.fromRecord operation none).validate = .ok () ∧
      validateAuditIdentityFields audit = .ok ()

theorem appendOperation_eq_ok {context : Option IdentityContext}
    (read : operationIdentityContext authority operation.projectId = .ok context)
    (done : appendOperation authority store operation = .ok store') :
    ∃ added, insertOperation authority store operation =
        .ok { store with operations := store.operations ++ [operation] } ∧
      store' = { store with
        operations := store.operations ++ [operation]
        operationIdentities := store.operationIdentities ++ added } := by
  rw [appendOperation, read, ok_bind] at done
  obtain ⟨inserted, insert, done⟩ := bind_eq_ok.mp done
  obtain ⟨_, _, rfl⟩ := insertOperation_eq_ok insert
  cases context with
  | none =>
    cases Except.ok.inj done
    exact ⟨[], insert, by rw [List.append_nil]⟩
  | some context =>
    obtain ⟨_, _, added, rfl, _⟩ := recordOperationContext_eq_ok (mapError_eq_ok.mp done)
    exact ⟨added, insert, rfl⟩

theorem validateIdentity_eq_ok
    (valid : (OperationBundle.mk operation (some audit)).validateIdentity = .ok ()) :
    (OperationIdentity.fromRecord operation none).validate = .ok () ∧
      validateAuditIdentityFields audit = .ok () ∧ audit.projectId = operation.projectId := by
  obtain ⟨_, valid, _⟩ := bind_eq_ok.mp valid
  obtain ⟨_, identity, valid⟩ := bind_eq_ok.mp valid
  obtain ⟨_, _, valid⟩ := bind_eq_ok.mp valid
  obtain ⟨_, _, valid⟩ := bind_eq_ok.mp valid
  obtain ⟨_, fields, valid⟩ := bind_eq_ok.mp (option_forM_eq_ok.mp valid audit rfl)
  obtain ⟨_, same, _⟩ := bind_eq_ok.mp valid
  exact ⟨identity, fields, not_not.mp fun differ => refuse_eq_ok.mp same (.inl differ)⟩

theorem appendOperationAudit_eq_ok (alike : audit.projectId = operation.projectId)
    (done : appendOperationAuditInTransaction authority store operation audit = .ok store') :
    Journaled authority store operation audit store' := by
  obtain ⟨context, read, done⟩ := bind_eq_ok.mp done
  have kind := operationIdentityContext_eq_ok read
  cases context with
  | some context =>
    have bound : Bound authority operation.projectId := kind.1.mp rfl
    obtain ⟨_, valid, done⟩ := bind_eq_ok.mp done
    obtain ⟨_, _, done⟩ := bind_eq_ok.mp done
    obtain ⟨_, _, done⟩ := bind_eq_ok.mp done
    obtain ⟨appended, first, done⟩ := bind_eq_ok.mp done
    have readBounded : operationIdentityContext authority (boundedOperation operation).projectId =
      .ok (some context) := read
    obtain ⟨added, insert, rfl⟩ := appendOperation_eq_ok readBounded first
    obtain ⟨recorded, second, done⟩ := bind_eq_ok.mp done
    obtain ⟨named, verified, more, rfl, row, found, current⟩ :=
      recordOperationContext_eq_ok (mapError_eq_ok.mp second)
    obtain ⟨unaudited, rfl⟩ := insertAuditEvent_eq_ok (appendAuditEvent_eq_ok done)
    obtain ⟨bindable, fresh, _⟩ := insertOperation_eq_ok insert
    obtain ⟨identity, fields, _⟩ := validateIdentity_eq_ok valid
    exact {
      named := bindable
      fresh := fresh
      unaudited := unaudited
      operations := by rw [keptOperation, if_pos bound]
      audits := by rw [keptAudit, alike, if_pos bound]
      identities := ⟨added ++ more, List.append_assoc _ _ _⟩
      rows := rfl
      revisions := rfl
      context := ⟨_, read⟩
      identity := by
        intro _ context' same
        cases (kind.2 context rfl).symm.trans same
        exact ⟨named, verified, row, found, current⟩
      valid := fun _ => ⟨identity, fields⟩ }
  | none =>
    have unbound : ¬ Bound authority operation.projectId := fun bound =>
      Bool.false_ne_true (kind.1.mpr bound)
    obtain ⟨_, _, done⟩ := bind_eq_ok.mp done
    obtain ⟨appended, first, done⟩ := bind_eq_ok.mp done
    obtain ⟨added, insert, rfl⟩ := appendOperation_eq_ok read first
    obtain ⟨unaudited, rfl⟩ := insertAuditEvent_eq_ok (appendAuditEvent_eq_ok done)
    obtain ⟨bindable, fresh, _⟩ := insertOperation_eq_ok insert
    exact {
      named := bindable
      fresh := fresh
      unaudited := unaudited
      operations := by rw [keptOperation, if_neg unbound]
      audits := by rw [keptAudit, alike, if_neg unbound]
      identities := ⟨added, rfl⟩
      rows := rfl
      revisions := rfl
      context := ⟨_, read⟩
      identity := fun bound => absurd bound unbound
      valid := fun bound => absurd bound unbound }

end Journaled

theorem checkExpectedRevision_eq_ok {actual : ℕ} {expected : Option ℕ} {u : Unit} :
    checkExpectedRevision actual expected = .ok u ↔ ∀ n ∈ expected, n = actual := by
  rw [checkExpectedRevision, option_forM_eq_ok]
  refine forall₂_congr fun n _ => ?_
  rw [refuse_eq_ok, not_not]

/-- What a committed new operation leaves behind. -/
structure Commits (authority : Authority) (store : SqliteStore ρ) (call : Mutation ρ)
    (result : MutationResult) (store' : SqliteStore ρ) : Prop where
  answer : result = ⟨call.context.operationId, result.revision, false⟩
  current : ∃ revision, store.revisions call.context.projectId = some revision ∧
    (∀ expected ∈ call.context.expectedRevision, expected = revision) ∧
    result.revision = nextRevision revision
  written : call.write store = .ok store'.rows
  revisions : store'.revisions =
    Function.update store.revisions call.context.projectId (some result.revision)
  journaled : Journaled authority
    { store with rows := store'.rows, revisions := store'.revisions }
    (mutationOperation call result.revision) (mutationAudit call result.revision) store'

theorem performMutation_eq_ok {result : MutationResult}
    (done : performMutation authority store call = .ok (result, store')) :
    Commits authority store call result store' := by
  obtain ⟨revision, read, done⟩ := bind_eq_ok.mp done
  obtain ⟨_, expected, done⟩ := bind_eq_ok.mp done
  obtain ⟨rows, written, done⟩ := bind_eq_ok.mp done
  obtain ⟨⟨next, bumped⟩, bump, done⟩ := bind_eq_ok.mp done
  obtain ⟨before, again, bump⟩ := bind_eq_ok.mp bump
  obtain ⟨journal, append, done⟩ := bind_eq_ok.mp done
  cases Except.ok.inj done
  cases Except.ok.inj bump
  have found := (projectRevision_eq_ok.mp read).2
  have same : before = revision :=
    Option.some.inj ((projectRevision_eq_ok.mp again).2.symm.trans found)
  have journaled := appendOperationAudit_eq_ok rfl append
  exact {
    answer := rfl
    current := ⟨revision, found, checkExpectedRevision_eq_ok.mp expected, by rw [same]⟩
    written := by
      rw [journaled.rows]
      exact written
    revisions := journaled.revisions
    journaled := by
      rw [journaled.rows, journaled.revisions]
      exact journaled }

/-- The stored record is of this very request. -/
structure Answers (call : Mutation ρ) (existing : OperationRecord) : Prop where
  project : existing.projectId = call.context.projectId
  command : existing.command = call.command
  actor : existing.actorId = call.context.actorId
  session : existing.sessionId = call.context.sessionId
  expected : existing.expectedRevision = call.context.expectedRevision
  subject : semanticSubject existing.resultJson = .ok (call.subjectType, call.subjectId)
  digest : existing.requestDigest = call.context.requestDigest

theorem ensureV3ReplayIdentity_eq_ok {existing : OperationRecord} {u : Unit} :
    ensureV3ReplayIdentity call existing = .ok u ↔
      existing.actorId = call.context.actorId ∧ existing.sessionId = call.context.sessionId ∧
        existing.expectedRevision = call.context.expectedRevision ∧
        semanticSubject existing.resultJson = .ok (call.subjectType, call.subjectId) := by
  constructor
  · intro ensured
    obtain ⟨_, actor, ensured⟩ := bind_eq_ok.mp ensured
    obtain ⟨_, session, ensured⟩ := bind_eq_ok.mp ensured
    obtain ⟨_, expected, ensured⟩ := bind_eq_ok.mp ensured
    obtain ⟨⟨subjectType, subjectId⟩, stored, ensured⟩ := bind_eq_ok.mp ensured
    have same := not_or.mp (refuse_eq_ok.mp ensured)
    refine ⟨not_not.mp (refuse_eq_ok.mp actor), not_not.mp (refuse_eq_ok.mp session),
      not_not.mp (refuse_eq_ok.mp expected), ?_⟩
    rw [stored, ← not_not.mp same.1, ← not_not.mp same.2]
  · rintro ⟨actor, session, expected, subject⟩
    refine bind_eq_ok.mpr ⟨(), refuse_eq_ok.mpr (not_not.mpr actor), ?_⟩
    refine bind_eq_ok.mpr ⟨(), refuse_eq_ok.mpr (not_not.mpr session), ?_⟩
    refine bind_eq_ok.mpr ⟨(), refuse_eq_ok.mpr (not_not.mpr expected), ?_⟩
    refine bind_eq_ok.mpr ⟨_, subject, refuse_eq_ok.mpr ?_⟩
    rintro (differ | differ)
    · exact differ rfl
    · exact differ rfl

theorem preflight_eq_ok {asked : OperationIdentity} {found : Option OperationRecord}
    (done : preflightOperationReplay authority store asked = .ok found) :
    store.operations.find? (fun row => row.operationId = asked.operationId) = found := by
  obtain ⟨_, _, done⟩ := bind_eq_ok.mp done
  obtain ⟨context, _, done⟩ := bind_eq_ok.mp done
  obtain ⟨existing, read, done⟩ := bind_eq_ok.mp done
  rw [(operation_eq_ok.mp read).2]
  cases existing with
  | none =>
    obtain ⟨_, _, done⟩ := bind_eq_ok.mp done
    exact Except.ok.inj done
  | some existing =>
    obtain ⟨_, _, done⟩ := bind_eq_ok.mp done
    cases context with
    | some context =>
      obtain ⟨readback, _, done⟩ := bind_eq_ok.mp done
      cases readback with
      | none => cases done
      | some readback => exact Except.ok.inj done
    | none =>
      obtain ⟨_, _, done⟩ := bind_eq_ok.mp done
      obtain ⟨_, _, done⟩ := bind_eq_ok.mp done
      exact Except.ok.inj done

theorem replayKnown_eq_some {result : MutationResult}
    (done : replayKnown authority store call = .ok (some result)) :
    ∃ existing, store.operations.find?
        (fun row => row.operationId = call.context.operationId) = some existing ∧
      Answers call existing ∧ result = ⟨call.context.operationId, existing.revision, true⟩ := by
  obtain ⟨found, preflight, done⟩ := bind_eq_ok.mp done
  have read := preflight_eq_ok preflight
  cases found with
  | none => cases done
  | some existing =>
    obtain ⟨_, compared, done⟩ := bind_eq_ok.mp done
    obtain ⟨_, ensured, done⟩ := bind_eq_ok.mp done
    obtain ⟨project, others⟩ := not_or.mp (refuse_eq_ok.mp compared)
    obtain ⟨command, digest⟩ := not_or.mp others
    obtain ⟨actor, session, expected, subject⟩ := ensureV3ReplayIdentity_eq_ok.mp ensured
    refine ⟨existing, read, ?_, (Option.some.inj (Except.ok.inj done)).symm⟩
    exact {
      project := not_not.mp project
      command := not_not.mp command
      actor := actor
      session := session
      expected := expected
      subject := subject
      digest := not_not.mp digest }

/-- The three ways a call ends. -/
inductive Outcome (authority : Authority) (store : SqliteStore ρ) (call : Mutation ρ) :
    Except StoreError MutationResult × SqliteStore ρ → Prop
  | failed (error : StoreError) : Outcome authority store call (.error error, store)
  | replayed (existing : OperationRecord)
      (known : store.operations.find?
        (fun row => row.operationId = call.context.operationId) = some existing)
      (answers : Answers call existing) :
      Outcome authority store call
        (.ok ⟨call.context.operationId, existing.revision, true⟩, store)
  | committed (result : MutationResult) (store' : SqliteStore ρ)
      (enabled : authority.workModelV3Enabled = true)
      (authorized : authorizeMutation authority call = .ok ())
      (commits : Commits authority store call result store') :
      Outcome authority store call (.ok result, store')

theorem factMutation_outcome (authority : Authority) (store : SqliteStore ρ) (call : Mutation ρ) :
    Outcome authority store call (factMutation authority store call) := by
  unfold factMutation
  by_cases enabled : authority.workModelV3Enabled = true
  · rw [if_neg (not_not.mpr enabled)]
    cases body : mutationBody authority store call with
    | error error => exact .failed error
    | ok outcome =>
      obtain ⟨_, authorized, body⟩ := bind_eq_ok.mp body
      obtain ⟨_, _, body⟩ := bind_eq_ok.mp body
      obtain ⟨replayed, known, body⟩ := bind_eq_ok.mp body
      cases replayed with
      | some result =>
        obtain ⟨existing, found, answers, rfl⟩ := replayKnown_eq_some known
        cases Except.ok.inj body
        exact .replayed existing found answers
      | none => exact .committed _ _ enabled authorized (performMutation_eq_ok body)
  · rw [if_pos enabled]
    exact .failed _

section Recorded
variable {revision : ℕ}

@[simp] theorem keptOperation_operationId (operation : OperationRecord) :
    (keptOperation authority operation).operationId = operation.operationId := by
  unfold keptOperation
  split <;> rfl

@[simp] theorem keptAudit_operationId (audit : AuditEventRecord) :
    (keptAudit authority audit).operationId = audit.operationId := by
  unfold keptAudit
  split <;> rfl

/-- The journal holds a call as its commit left it. -/
structure Recorded (authority : Authority) (call : Mutation ρ) (revision : ℕ)
    (store : SqliteStore ρ) : Prop where
  operation : store.operations.find? (fun row => row.operationId = call.context.operationId) =
    some (keptOperation authority (mutationOperation call revision))
  audit : store.audits.find? (fun row => row.operationId = call.context.operationId) =
    some (keptAudit authority (mutationAudit call revision))
  identity : Bound authority call.context.projectId →
    ∀ context, identityContext authority call.context.projectId = .ok context →
      ∃ row, store.operationIdentities.find?
          (fun row => row.operationId = call.context.operationId) = some row ∧
        CurrentRow context row

/-- What the authority said of a call when it was committed; no mutation changes it. -/
structure Admitted (authority : Authority) (call : Mutation ρ) (revision : ℕ) : Prop where
  enabled : authority.workModelV3Enabled = true
  authorized : authorizeMutation authority call = .ok ()
  named : bindText call.context.operationId = .ok ()
  context : ∃ context, operationIdentityContext authority call.context.projectId = .ok context
  lineage : Bound authority call.context.projectId →
    ∀ context, identityContext authority call.context.projectId = .ok context →
      requireText "operation_id" call.context.operationId = .ok () ∧
        verifyContext authority context = .ok ()
  valid : Bound authority call.context.projectId →
    (OperationIdentity.fromRecord (mutationOperation call revision) none).validate = .ok () ∧
      validateAuditIdentityFields (mutationAudit call revision) = .ok ()

theorem find?_append_fresh {α : Type} {p : α → Bool} {l : List α} {a : α}
    (fresh : ∀ b ∈ l, p b = false) (own : p a = true) : (l ++ [a]).find? p = some a := by
  rw [List.find?_append, List.find?_eq_none.mpr fun b member => by simp [fresh b member]]
  simp [own]

theorem Commits.recorded {result : MutationResult} (commits : Commits authority store call result store') :
    Recorded authority call result.revision store' where
  operation := by
    rw [commits.journaled.operations]
    refine find?_append_fresh (fun row member => ?_) ?_
    · exact decide_eq_false (commits.journaled.fresh row member)
    · rw [keptOperation_operationId]
      exact decide_eq_true rfl
  audit := by
    rw [commits.journaled.audits]
    refine find?_append_fresh (fun row member => ?_) ?_
    · exact decide_eq_false (commits.journaled.unaudited row member).1
    · rw [keptAudit_operationId]
      exact decide_eq_true rfl
  identity := by
    intro bound context read
    exact (commits.journaled.identity bound context read).2.2

theorem Commits.admitted {result : MutationResult}
    (enabled : authority.workModelV3Enabled = true)
    (authorized : authorizeMutation authority call = .ok ())
    (commits : Commits authority store call result store') :
    Admitted authority call result.revision where
  enabled := enabled
  authorized := authorized
  named := commits.journaled.named
  context := commits.journaled.context
  lineage := by
    intro bound context read
    obtain ⟨named, verified, _⟩ := commits.journaled.identity bound context read
    exact ⟨named, verified⟩
  valid := commits.journaled.valid

theorem find?_append_known {α : Type} {p : α → Bool} {l l' : List α} {a : α}
    (known : l.find? p = some a) : (l ++ l').find? p = some a := by
  rw [List.find?_append, known]
  rfl

theorem Recorded.kept (recorded : Recorded authority call revision store) (call' : Mutation ρ) :
    Recorded authority call revision (factMutation authority store call').2 := by
  rcases outcome : factMutation authority store call' with ⟨answer, after⟩
  have ended := factMutation_outcome authority store call'
  rw [outcome] at ended
  cases ended with
  | failed error => exact recorded
  | replayed existing known answers => exact recorded
  | committed result _ enabled authorized commits =>
    obtain ⟨added, identities⟩ := commits.journaled.identities
    constructor
    · rw [commits.journaled.operations]
      exact find?_append_known recorded.operation
    · rw [commits.journaled.audits]
      exact find?_append_known recorded.audit
    · intro bound context read
      obtain ⟨row, found, current⟩ := recorded.identity bound context read
      refine ⟨row, ?_, current⟩
      rw [identities]
      exact find?_append_known found

end Recorded

section Replay
variable {revision : ℕ}

theorem Repeats.authorized (repeats : Repeats call call') :
    authorizeMutation authority call' = authorizeMutation authority call := by
  unfold authorizeMutation
  rw [repeats.project, repeats.actor, repeats.session, repeats.expected, repeats.roles]

theorem authorized_principal {call : Mutation ρ} (authorized : authorizeMutation authority call = .ok ())
    (production : authority.canonicalProduction = true) :
    ∃ principal, principalAuthority authority call.context.projectId call.context.actorId =
      .ok principal := by
  obtain ⟨principal, found, _⟩ := bind_eq_ok.mp (onlyIf_eq_ok.mp authorized production)
  exact ⟨principal, found⟩

theorem validate_subject {operation : OperationRecord} {kind id : String}
    (valid : (OperationIdentity.fromRecord operation none).validate = .ok ())
    (kindShown : isBlank kind = false) (idShown : isBlank id = false) :
    (OperationIdentity.fromRecord operation (some (kind, id))).validate = .ok () := by
  obtain ⟨_, texts, valid⟩ := bind_eq_ok.mp valid
  obtain ⟨_, options, valid⟩ := bind_eq_ok.mp valid
  obtain ⟨_, fence, _⟩ := bind_eq_ok.mp valid
  refine bind_eq_ok.mpr ⟨(), texts, bind_eq_ok.mpr ⟨(), options, bind_eq_ok.mpr ⟨(), fence, ?_⟩⟩⟩
  refine refuse_eq_ok.mpr ?_
  simp [OperationIdentity.fromRecord, kindShown, idShown]

theorem validate_operationId {operation : OperationRecord} {subject : Option (String × String)}
    (valid : (OperationIdentity.fromRecord operation subject).validate = .ok ()) :
    isBlank operation.operationId = false := by
  obtain ⟨_, texts, _⟩ := bind_eq_ok.mp valid
  have first := forM_eq_ok.mp texts _ List.mem_cons_self
  exact Bool.not_eq_true _ ▸ refuse_eq_ok.mp first

variable {row : OperationRecord}

theorem operationReadback_known {projectId operationId : String}
    (read : operation store operationId = .ok (some row)) (own : row.projectId = projectId)
    (executed : ∀ project ∈ authority.evidenceExecutions operationId, project = projectId) :
    operationReadback authority store projectId operationId =
      .ok (some ⟨some row, authority.evidenceExecutions operationId⟩) := by
  rw [operationReadback, read, ok_bind, if_neg (by simp)]
  refine bind_eq_ok.mpr ⟨(), option_forM_eq_ok.mpr ?_, bind_eq_ok.mpr ⟨(), option_forM_eq_ok.mpr ?_,
    bind_eq_ok.mpr ⟨(), option_forM_eq_ok.mpr ?_, rfl⟩⟩⟩
  · intro row' member
    cases Option.mem_some_iff.mp member
    exact refuse_eq_ok.mpr (not_not.mpr own)
  · intro project member
    exact refuse_eq_ok.mpr (not_not.mpr (executed project member))
  · intro row' member
    cases Option.mem_some_iff.mp member
    refine option_forM_eq_ok.mpr fun project found => refuse_eq_ok.mpr (not_not.mpr ?_)
    rw [own, executed project found]

theorem identityOperation_known {context : IdentityContext} {operationId : String}
    {identityRow : OperationIdentityRow}
    (named : requireText "operation_id" operationId = .ok ())
    (verified : verifyContext authority context = .ok ())
    (found : store.operationIdentities.find? (fun row => row.operationId = operationId) =
      some identityRow) (current : CurrentRow context identityRow)
    (read : operation store operationId = .ok (some row))
    (own : row.projectId = context.projectId)
    (executed : ∀ project ∈ authority.evidenceExecutions operationId,
      project = context.projectId) :
    identityOperation authority store context operationId =
      .ok (some ⟨some row, authority.evidenceExecutions operationId⟩) := by
  rw [identityOperation, named, ok_bind, verified, ok_bind]
  simp only [found]
  refine bind_eq_ok.mpr ⟨(), refuse_eq_ok.mpr (not_not.mpr current.1), ?_⟩
  refine bind_eq_ok.mpr ⟨(), current.2.1, bind_eq_ok.mpr ⟨(), refuse_eq_ok.mpr ?_, ?_⟩⟩
  · rw [current.2.2]
    exact Bool.false_ne_true
  · exact mapError_eq_ok.mpr (operationReadback_known read own executed)

theorem replayInContext_known {context : IdentityContext} {identity : OperationIdentity}
    {readback : OperationReadback} {audit : AuditEventRecord} (valid : identity.validate = .ok ())
    (read : identityOperation authority store context identity.operationId = .ok (some readback))
    (held : readback.operation = some row) (own : identity.MatchesRecord row)
    (audited : auditEvent store identity.operationId = .ok (some audit))
    (agreed : validateOperationAudit row audit = .ok ())
    (subject : ∀ s ∈ identity.subject, audit.subjectType = s.1 ∧ audit.subjectId = s.2) :
    ∃ readback, replayInContext authority store context identity = .ok (some readback) := by
  refine ⟨{ readback with operation := some (boundedOperation row) }, ?_⟩
  rw [replayInContext, valid, ok_bind, read]
  simp only [Except.mapError, ok_bind, held]
  refine bind_eq_ok.mpr ⟨(), refuse_eq_ok.mpr (not_not.mpr own), ?_⟩
  rw [audited, ok_bind]
  refine bind_eq_ok.mpr ⟨(), agreed, bind_eq_ok.mpr ⟨(), option_forM_eq_ok.mpr ?_, rfl⟩⟩
  intro s member
  obtain ⟨kind, id⟩ := subject s member
  refine refuse_eq_ok.mpr ?_
  rintro (differ | differ)
  · exact differ kind
  · exact differ id

theorem preflight_known {asked : OperationIdentity} {context : Option IdentityContext}
    (principal : authority.canonicalProduction = true →
      ∃ principal, principalAuthority authority asked.projectId asked.actorId = .ok principal)
    (read : operationIdentityContext authority asked.projectId = .ok context)
    (found : operation store asked.operationId = .ok (some row)) (own : asked.MatchesRecord row)
    (bound : ∀ c ∈ context, ∃ readback,
      replayInContext authority store c (.fromRecord row asked.subject) = .ok (some readback))
    (audited : ∃ audit, auditEvent store asked.operationId = .ok (some audit) ∧
      ∀ s ∈ asked.subject, audit.subjectType = s.1 ∧ audit.subjectId = s.2) :
    preflightOperationReplay authority store asked = .ok (some row) := by
  refine bind_eq_ok.mpr ⟨(), onlyIf_eq_ok.mpr ?_, ?_⟩
  · rintro ⟨production, _⟩
    exact discard_eq_ok.mpr (principal production)
  rw [read, ok_bind, found, ok_bind]
  refine bind_eq_ok.mpr ⟨(), refuse_eq_ok.mpr (not_not.mpr own), ?_⟩
  cases context with
  | some c =>
    obtain ⟨readback, replayed⟩ := bound c rfl
    simp only [replayed, ok_bind]
    rfl
  | none =>
    obtain ⟨audit, held, subject⟩ := audited
    simp only [held, ok_bind]
    refine bind_eq_ok.mpr ⟨(), option_forM_eq_ok.mpr fun a member => ?_, rfl⟩
    cases Option.mem_some_iff.mp member
    refine option_forM_eq_ok.mpr fun s asked => refuse_eq_ok.mpr ?_
    obtain ⟨kind, id⟩ := subject s asked
    rintro (differ | differ)
    · exact differ kind
    · exact differ id

theorem isBlank_operation : isBlank "operation" = false := by decide

section Kept
variable {operation : OperationRecord} {audit : AuditEventRecord}

theorem kept_matches {identity : OperationIdentity} (own : identity.MatchesRecord operation) :
    identity.MatchesRecord (keptOperation authority operation) := by
  unfold keptOperation
  split
  · exact own
  · exact own

theorem kept_fromRecord (subject : Option (String × String)) :
    OperationIdentity.fromRecord (keptOperation authority operation) subject =
      .fromRecord operation subject := by
  unfold keptOperation
  split <;> rfl

theorem kept_projectId : (keptOperation authority operation).projectId = operation.projectId := by
  unfold keptOperation
  split <;> rfl

theorem kept_resultJson : (keptOperation authority operation).resultJson =
    if Bound authority operation.projectId then redactedPayload operation.resultJson
    else operation.resultJson := by
  unfold keptOperation
  split <;> rfl

theorem kept_revision : (keptOperation authority operation).revision = operation.revision := by
  unfold keptOperation
  split <;> rfl

theorem keptAudit_subject : (keptAudit authority audit).subjectType = audit.subjectType ∧
    (keptAudit authority audit).subjectId = audit.subjectId := by
  unfold keptAudit
  split
  · exact ⟨rfl, rfl⟩
  · exact ⟨rfl, rfl⟩

theorem kept_agreed (agreed : validateOperationAudit operation audit = .ok ()) :
    validateOperationAudit (keptOperation authority operation) (keptAudit authority audit) =
      .ok () := by
  unfold keptOperation keptAudit
  split
  · split
    · exact agreed
    · exact agreed
  · split
    · exact agreed
    · exact agreed

end Kept

theorem recorded_preflight (recorded : Recorded authority call revision store)
    (admitted : Admitted authority call revision)
    (executed : Bound authority call.context.projectId →
      ∀ project ∈ authority.evidenceExecutions call.context.operationId,
        project = call.context.projectId) :
    preflightOperationReplay authority store
      ⟨call.context.operationId, call.context.projectId, call.command, call.context.actorId,
        call.context.sessionId, call.context.expectedRevision, none, none,
        call.context.requestDigest, some ("operation", call.context.operationId)⟩ =
      .ok (some (keptOperation authority (mutationOperation call revision))) := by
  have found : operation store call.context.operationId =
      .ok (some (keptOperation authority (mutationOperation call revision))) :=
    operation_eq_ok.mpr ⟨admitted.named, recorded.operation⟩
  have audited : auditEvent store call.context.operationId =
      .ok (some (keptAudit authority (mutationAudit call revision))) :=
    auditEvent_eq_ok.mpr ⟨admitted.named, recorded.audit⟩
  have subject : ∀ s ∈ some ("operation", call.context.operationId),
      (keptAudit authority (mutationAudit call revision)).subjectType = s.1 ∧
        (keptAudit authority (mutationAudit call revision)).subjectId = s.2 := by
    intro s member
    cases Option.mem_some_iff.mp member
    exact keptAudit_subject
  obtain ⟨context, read⟩ := admitted.context
  have kind := operationIdentityContext_eq_ok read
  refine preflight_known (fun production => authorized_principal admitted.authorized production)
    read found (kept_matches ⟨rfl, rfl, rfl, rfl, rfl, rfl, rfl, rfl, rfl⟩) ?_
    ⟨_, audited, subject⟩
  intro c member
  have bound : Bound authority call.context.projectId :=
    kind.1.mp (Option.isSome_iff_exists.mpr ⟨c, member⟩)
  have lineage := kind.2 c member
  obtain ⟨named, verified⟩ := admitted.lineage bound c lineage
  obtain ⟨row, identified, current⟩ := recorded.identity bound c lineage
  obtain ⟨identity, fields⟩ := admitted.valid bound
  rw [kept_fromRecord]
  refine replayInContext_known
    (validate_subject identity isBlank_operation (validate_operationId identity))
    (identityOperation_known named verified identified current found ?_ ?_) rfl
    (kept_matches ⟨rfl, rfl, rfl, rfl, rfl, rfl, rfl, rfl, rfl⟩) audited
    (kept_agreed ?_) subject
  · rw [kept_projectId, identityContext_project lineage]
    rfl
  · rw [identityContext_project lineage]
    exact executed bound
  · refine bind_eq_ok.mpr ⟨(), refuse_eq_ok.mpr ?_, fields⟩
    rintro (differ | differ | differ | differ | differ | differ) <;> exact differ rfl

end Replay

section Subjects
variable {revision : ℕ}

theorem redactValue_mutationPayload : redactValue (mutationPayload call) =
    .object [("command", .string (redactString call.command)),
      ("subject_id", .string (redactString call.subjectId)),
      ("subject_type", .string (redactString call.subjectType))] := by
  have command : isSensitiveKey "command" = false := by decide
  have subjectId : isSensitiveKey "subject_id" = false := by decide
  have subjectType : isSensitiveKey "subject_type" = false := by decide
  simp [redactValue, mutationPayload, redactValueAtDepth, redactMembers, command, subjectId,
    subjectType, maxNestingDepth]

theorem semanticSubject_members (command subjectId subjectType : String) :
    semanticSubject (.object [("command", .string command), ("subject_id", .string subjectId),
      ("subject_type", .string subjectType)]) = .ok (subjectType, subjectId) := rfl

theorem semanticSubject_redacted
    (bounded : (redactValue (mutationPayload call)).encodedLength ≤ maxAuditBytes) :
    semanticSubject (redactedPayload (mutationPayload call)) =
      .ok (redactString call.subjectType, redactString call.subjectId) := by
  rw [redactedPayload, if_neg (not_lt.mpr bounded), redactValue_mutationPayload]
  exact semanticSubject_members _ _ _

theorem mutationOperation_resultJson :
    (mutationOperation call revision).resultJson = mutationPayload call := rfl

theorem semanticSubject_kept (legible : Bound authority call.context.projectId → Legible authority call) :
    semanticSubject (keptOperation authority (mutationOperation call revision)).resultJson =
      .ok (call.subjectType, call.subjectId) := by
  rw [kept_resultJson, mutationOperation_resultJson]
  split
  · rename_i bound
    have read := legible bound
    rw [semanticSubject_redacted read.bounded, read.subjectType, read.subjectId]
  · exact semanticSubject_members _ _ _

theorem kept_answers (legible : Bound authority call.context.projectId → Legible authority call) :
    Answers call (keptOperation authority (mutationOperation call revision)) := by
  have own : OperationIdentity.MatchesRecord
      (.fromRecord (mutationOperation call revision) none)
      (keptOperation authority (mutationOperation call revision)) :=
    kept_matches ⟨rfl, rfl, rfl, rfl, rfl, rfl, rfl, rfl, rfl⟩
  obtain ⟨_, project, command, actor, session, expected, _, _, digest⟩ := own
  exact {
    project := project.symm
    command := command.symm
    actor := actor.symm
    session := session.symm
    expected := expected.symm
    subject := semanticSubject_kept legible
    digest := digest.symm }

variable {existing : OperationRecord}

theorem Answers.same (answers : Answers call existing) :
    Answers call' existing ↔ SameIdentity call call' := by
  constructor
  · intro answers'
    have subject := Except.ok.inj (answers.subject.symm.trans answers'.subject)
    exact {
      project := answers'.project.symm.trans answers.project
      command := answers'.command.symm.trans answers.command
      actor := answers'.actor.symm.trans answers.actor
      session := answers'.session.symm.trans answers.session
      expected := answers'.expected.symm.trans answers.expected
      subjectType := (congrArg Prod.fst subject).symm
      subjectId := (congrArg Prod.snd subject).symm
      digest := answers'.digest.symm.trans answers.digest }
  · intro same
    exact {
      project := answers.project.trans same.project.symm
      command := answers.command.trans same.command.symm
      actor := answers.actor.trans same.actor.symm
      session := answers.session.trans same.session.symm
      expected := answers.expected.trans same.expected.symm
      subject := by rw [same.subjectType, same.subjectId, answers.subject]
      digest := answers.digest.trans same.digest.symm }

theorem classifyKnown_of_answers (found : operation store call.context.operationId = .ok (some existing))
    (answers : Answers call existing) : classifyKnown store call = .ok () := by
  rw [classifyKnown, found, ok_bind]
  refine option_forM_eq_ok.mpr fun row member => ?_
  cases Option.mem_some_iff.mp member
  refine bind_eq_ok.mpr ⟨(), refuse_eq_ok.mpr ?_, bind_eq_ok.mpr ⟨(), ?_, refuse_eq_ok.mpr ?_⟩⟩
  · rintro (differ | differ)
    · exact differ answers.project
    · exact differ answers.command
  · exact ensureV3ReplayIdentity_eq_ok.mpr
      ⟨answers.actor, answers.session, answers.expected, answers.subject⟩
  · exact not_not.mpr answers.digest

theorem replayKnown_of_answers
    (preflight : preflightOperationReplay authority store
      ⟨call.context.operationId, call.context.projectId, call.command, call.context.actorId,
        call.context.sessionId, call.context.expectedRevision, none, none,
        call.context.requestDigest, some ("operation", call.context.operationId)⟩ =
      .ok (some existing)) (answers : Answers call existing) :
    replayKnown authority store call =
      .ok (some ⟨call.context.operationId, existing.revision, true⟩) := by
  rw [replayKnown, preflight, ok_bind]
  refine bind_eq_ok.mpr ⟨(), refuse_eq_ok.mpr ?_, bind_eq_ok.mpr ⟨(), ?_, rfl⟩⟩
  · rintro (differ | differ | differ)
    · exact differ answers.project
    · exact differ answers.command
    · exact differ answers.digest
  · exact ensureV3ReplayIdentity_eq_ok.mpr
      ⟨answers.actor, answers.session, answers.expected, answers.subject⟩

theorem Recorded.repeated (recorded : Recorded authority call revision store)
    (admitted : Admitted authority call revision)
    (legible : Bound authority call.context.projectId → Legible authority call)
    (repeats : Repeats call call') :
    factMutation authority store call' =
      (.ok ⟨call.context.operationId, revision, true⟩, store) := by
  have answers := (@kept_answers _ _ _ revision legible).same.mpr repeats.toSameIdentity
  have preflight := recorded_preflight recorded admitted fun bound => (legible bound).execution
  have found := operation_eq_ok.mpr ⟨admitted.named, recorded.operation⟩
  rw [← repeats.operationId] at found
  rw [← repeats.operationId, ← repeats.project, ← repeats.command, ← repeats.actor,
    ← repeats.session, ← repeats.expected, ← repeats.digest] at preflight
  have replayed := replayKnown_of_answers preflight answers
  rw [kept_revision, repeats.operationId] at replayed
  have body : mutationBody authority store call' =
      .ok (⟨call.context.operationId, revision, true⟩, store) := by
    rw [mutationBody, repeats.authorized, admitted.authorized, ok_bind,
      classifyKnown_of_answers found answers, ok_bind, replayed, ok_bind]
    rfl
  rw [factMutation, if_neg (not_not.mpr admitted.enabled), body]

theorem Recorded.altered (recorded : Recorded authority call revision store)
    (legible : Bound authority call.context.projectId → Legible authority call)
    (reused : call'.context.operationId = call.context.operationId) (differs : ¬ SameIdentity call call') :
    ∃ error, factMutation authority store call' = (.error error, store) := by
  rcases outcome : factMutation authority store call' with ⟨answer, after⟩
  have ended := factMutation_outcome authority store call'
  rw [outcome] at ended
  cases ended with
  | failed error => exact ⟨error, rfl⟩
  | replayed existing known answers =>
    rw [reused, recorded.operation] at known
    cases Option.some.inj known
    exact absurd ((kept_answers legible).same.mp answers) differs
  | committed result _ enabled authorized commits =>
    have found := List.find?_some recorded.operation
    have fresh := commits.journaled.fresh _ (List.mem_of_find?_eq_some recorded.operation)
    exact absurd ((of_decide_eq_true found).trans reused.symm) fresh

theorem Recorded.unwritten (recorded : Recorded authority call revision store)
    (reused : call'.context.operationId = call.context.operationId)
    (write : SqliteStore ρ → Except StoreError ρ) :
    factMutation authority store { call' with write := write } =
      factMutation authority store call' := by
  have body : mutationBody authority store { call' with write := write } =
      mutationBody authority store call' := by
    refine bind_congr' fun _ _ => bind_congr' fun _ _ => bind_congr' fun replayed known => ?_
    cases replayed with
    | some result => rfl
    | none =>
      obtain ⟨found, preflight, known⟩ := bind_eq_ok.mp known
      have read := preflight_eq_ok preflight
      change store.operations.find? (fun row => row.operationId = call'.context.operationId) =
        found at read
      rw [reused, recorded.operation] at read
      subst read
      obtain ⟨_, _, known⟩ := bind_eq_ok.mp known
      obtain ⟨_, _, known⟩ := bind_eq_ok.mp known
      cases known
  rw [factMutation, factMutation, body]

theorem stale_fails {expected : ℕ} (asked : call.context.expectedRevision = some expected)
    (fresh : ∀ row ∈ store.operations, row.operationId ≠ call.context.operationId)
    (other : store.revisions call.context.projectId ≠ some expected) :
    ∃ error, factMutation authority store call = (.error error, store) := by
  rcases outcome : factMutation authority store call with ⟨answer, after⟩
  have ended := factMutation_outcome authority store call
  rw [outcome] at ended
  cases ended with
  | failed error => exact ⟨error, rfl⟩
  | replayed existing known answers =>
    have found := List.find?_some known
    exact absurd (of_decide_eq_true found) (fresh existing (List.mem_of_find?_eq_some known))
  | committed result _ enabled authorized commits =>
    obtain ⟨revision, current, same, _⟩ := commits.current
    rw [same expected asked] at other
    exact absurd current other

end Subjects

end Boreal.Store
