/- When a new fact mutation goes through: its request is well formed, authorized and current, its
journal rows are free, and its write succeeds. -/
import BorealWork.MutationOutcomes

namespace Boreal.Store
open Drain JsonValue

variable {ρ : Type} {authority : Authority} {store store' : SqliteStore ρ} {call : Mutation ρ}

/-- A text that names something and can be bound. -/
def Speaks (text : String) : Prop := isBlank text = false ∧ '\x00' ∉ text.toList

instance (text : String) : Decidable (Speaks text) := inferInstanceAs (Decidable (_ ∧ _))

/-- A request that only its write can still stop. -/
structure Acceptable (authority : Authority) (store : SqliteStore ρ) (call : Mutation ρ)
    (revision : ℕ) : Prop where
  enabled : authority.workModelV3Enabled = true
  authorized : authorizeMutation authority call = .ok ()
  texts : ∀ text ∈ [call.context.operationId, call.context.projectId, call.command,
    call.context.actorId, call.context.requestDigest, call.context.now], Speaks text
  session : ∀ session ∈ call.context.sessionId, Speaks session
  context : ∃ context, operationIdentityContext authority call.context.projectId = .ok context ∧
    ∀ c ∈ context, verifyContext authority c = .ok ()
  current : store.revisions call.context.projectId = some revision
  room : revision < maxInteger
  expected : ∀ expected ∈ call.context.expectedRevision, expected = revision
  references : References authority store call.context.projectId call.context.actorId
    call.context.sessionId
  fresh : ∀ row ∈ store.operations, row.operationId ≠ call.context.operationId
  unaudited : ∀ row ∈ store.audits, row.operationId ≠ call.context.operationId ∧
    (row.projectId, row.revision) ≠ (call.context.projectId, revision + 1)
  unidentified : ∀ row ∈ store.operationIdentities, row.operationId ≠ call.context.operationId

theorem authorized_session (authorized : authorizeMutation authority call = .ok ())
    (production : authority.canonicalProduction = true) {session : String}
    (named : call.context.sessionId = some session) :
    validateProjectSession authority call.context.projectId call.context.actorId session =
      .ok () := by
  obtain ⟨_, _, authorized⟩ := bind_eq_ok.mp (onlyIf_eq_ok.mp authorized production)
  obtain ⟨_, _, authorized⟩ := bind_eq_ok.mp authorized
  obtain ⟨_, _, authorized⟩ := bind_eq_ok.mp authorized
  simp only [named] at authorized
  exact authorized

theorem operation_fresh {operationId : String} (bound : bindText operationId = .ok ())
    (fresh : ∀ row ∈ store.operations, row.operationId ≠ operationId) :
    operation store operationId = .ok none :=
  operation_eq_ok.mpr ⟨bound, List.find?_eq_none.mpr fun row member =>
    by simpa using fresh row member⟩

theorem preflight_fresh {asked : OperationIdentity} {context : Option IdentityContext}
    (principal : authority.canonicalProduction = true →
      ∃ principal, principalAuthority authority asked.projectId asked.actorId = .ok principal)
    (session : authority.canonicalProduction = true → ∀ session ∈ asked.sessionId,
      validateProjectSession authority asked.projectId asked.actorId session = .ok ())
    (read : operationIdentityContext authority asked.projectId = .ok context)
    (fresh : operation store asked.operationId = .ok none) :
    preflightOperationReplay authority store asked = .ok none := by
  refine bind_eq_ok.mpr ⟨(), onlyIf_eq_ok.mpr ?_, ?_⟩
  · rintro ⟨production, _⟩
    exact discard_eq_ok.mpr (principal production)
  rw [read, ok_bind, fresh, ok_bind]
  refine bind_eq_ok.mpr ⟨(), onlyIf_eq_ok.mpr ?_, rfl⟩
  rintro ⟨production, _⟩
  exact option_forM_eq_ok.mpr (session production)

section Inserts
variable {operation : OperationRecord} {event : AuditEventRecord}

theorem bindI64_of_le {value : ℕ} (fits : value ≤ maxInteger) : bindI64 value = .ok () :=
  refuse_eq_ok.mpr (not_lt.mpr fits)

/-- Every value of an operation row can be bound. -/
structure Bindable (operation : OperationRecord) : Prop where
  texts : ∀ text ∈ [operation.operationId, operation.projectId, operation.command,
    operation.actorId, operation.requestDigest, operation.createdAt], bindText text = .ok ()
  session : bindOptionalText operation.sessionId = .ok ()
  attempt : bindOptionalText operation.attemptId = .ok ()
  completed : bindOptionalText operation.completedAt = .ok ()
  expected : bindOptionalI64 operation.expectedRevision = .ok ()
  fence : bindOptionalI64 operation.fence = .ok ()
  revision : bindI64 operation.revision = .ok ()

theorem insertOperation_succeeds (bindable : Bindable operation)
    (fresh : ∀ row ∈ store.operations, row.operationId ≠ operation.operationId)
    (references : References authority store operation.projectId operation.actorId
      operation.sessionId) :
    insertOperation authority store operation =
      .ok { store with operations := store.operations ++ [operation] } := by
  have named : [operation.operationId, operation.projectId, operation.command,
      operation.actorId].forM bindText = .ok () := by
    refine forM_eq_ok.mpr fun text member => bindable.texts text ?_
    simp only [List.mem_cons, List.not_mem_nil, or_false] at member ⊢
    tauto
  have digest : bindText operation.requestDigest = .ok () := bindable.texts _ (by simp)
  have created : bindText operation.createdAt = .ok () := bindable.texts _ (by simp)
  have absent : ¬ operation.operationId ∈ store.operations.map OperationRecord.operationId := by
    intro member
    obtain ⟨row, held, same⟩ := List.mem_map.mp member
    exact fresh row held same
  rw [insertOperation, named, ok_bind, bindable.session, ok_bind, bindable.expected, ok_bind,
    bindable.attempt, ok_bind, bindable.fence, ok_bind, digest, ok_bind, bindable.revision,
    ok_bind, created, ok_bind, bindable.completed, ok_bind, refuse_of_not absent, ok_bind,
    refuse_of_not (not_not.mpr references), ok_bind]
  rfl

/-- And every value of an audit row. -/
structure AuditBindable (event : AuditEventRecord) : Prop where
  texts : ∀ text ∈ [event.projectId, event.operationId, event.eventType, event.subjectType,
    event.subjectId, event.actorId, event.asOf], bindText text = .ok ()
  session : bindOptionalText event.sessionId = .ok ()
  fence : bindOptionalI64 event.fence = .ok ()
  revision : bindI64 event.revision = .ok ()
  checked : ¬ (event.revision = 0 ∨ event.eventType ∉ eventTypes ∨
    event.subjectType ∉ subjectTypes ∨ event.fence = some 0)

theorem insertAuditEvent_succeeds (bindable : AuditBindable event)
    (unaudited : ∀ row ∈ store.audits, row.operationId ≠ event.operationId ∧
      (row.projectId, row.revision) ≠ (event.projectId, event.revision))
    (references : References authority store event.projectId event.actorId event.sessionId) :
    insertAuditEvent authority store event =
      .ok { store with audits := store.audits ++ [event] } := by
  have project : bindText event.projectId = .ok () := bindable.texts _ (by simp)
  have named : [event.operationId, event.eventType, event.subjectType, event.subjectId,
      event.actorId].forM bindText = .ok () := by
    refine forM_eq_ok.mpr fun text member => bindable.texts text ?_
    simp only [List.mem_cons, List.not_mem_nil, or_false] at member ⊢
    tauto
  have asOf : bindText event.asOf = .ok () := bindable.texts _ (by simp)
  have absent : ¬ event.operationId ∈ store.audits.map AuditEventRecord.operationId := by
    intro member
    obtain ⟨row, held, same⟩ := List.mem_map.mp member
    exact (unaudited row held).1 same
  have free : ¬ (event.projectId, event.revision) ∈
      store.audits.map fun row => (row.projectId, row.revision) := by
    intro member
    obtain ⟨row, held, same⟩ := List.mem_map.mp member
    exact (unaudited row held).2 same
  rw [insertAuditEvent, project, ok_bind, bindable.revision, ok_bind, named, ok_bind,
    bindable.session, ok_bind, bindable.fence, ok_bind, asOf, ok_bind,
    refuse_of_not bindable.checked, ok_bind, refuse_of_not absent, ok_bind,
    refuse_of_not free, ok_bind, refuse_of_not (not_not.mpr references), ok_bind]
  rfl

theorem appendAuditEvent_succeeds {context : Option IdentityContext}
    (read : operationIdentityContext authority event.projectId = .ok context)
    (found : Store.operation store event.operationId = .ok (some operation))
    (project : operation.projectId = event.projectId) (actor : operation.actorId = event.actorId)
    (session : operation.sessionId = event.sessionId) (fence : operation.fence = event.fence)
    (revision : operation.revision = event.revision)
    (identified : context.isSome → ∃ row ∈ store.operationIdentities,
      row.operationId = event.operationId ∧ row.projectId = event.projectId ∧
        row.invalidated = false) (inserted : insertAuditEvent authority store event = .ok store') :
    appendAuditEvent authority store event = .ok store' := by
  rw [appendAuditEvent, read, ok_bind, found, ok_bind]
  refine bind_eq_ok.mpr ⟨(), refuse_eq_ok.mpr (not_not.mpr project), ?_⟩
  refine bind_eq_ok.mpr ⟨(), refuse_eq_ok.mpr ?_, ?_⟩
  · rintro (differ | differ | differ)
    · exact differ actor
    · exact differ session
    · exact differ fence
  refine bind_eq_ok.mpr ⟨(), refuse_eq_ok.mpr (not_not.mpr revision), ?_⟩
  refine bind_eq_ok.mpr ⟨(), refuse_eq_ok.mpr ?_, inserted⟩
  rintro ⟨bound, missing⟩
  exact missing (identified bound)

theorem recordOperationContext_fresh {context : IdentityContext} {operationId : String}
    (named : requireText "operation_id" operationId = .ok ())
    (verified : verifyContext authority context = .ok ())
    (found : store.operations.find? (fun row => row.operationId = operationId) = some operation)
    (own : operation.projectId = context.projectId)
    (absent : store.operationIdentities.find? (fun row => row.operationId = operationId) = none) :
    recordOperationContext authority store context operationId =
      .ok { store with operationIdentities := store.operationIdentities ++
        [⟨operationId, context.projectId, context.database, false⟩] } := by
  rw [recordOperationContext, named, ok_bind, verified, ok_bind]
  simp only [found, absent]
  exact bind_eq_ok.mpr ⟨(), refuse_eq_ok.mpr (not_not.mpr own), rfl⟩

theorem recordOperationContext_known {context : IdentityContext} {operationId : String}
    {row : OperationIdentityRow} (named : requireText "operation_id" operationId = .ok ())
    (verified : verifyContext authority context = .ok ())
    (found : store.operations.find? (fun row => row.operationId = operationId) = some operation)
    (own : operation.projectId = context.projectId)
    (known : store.operationIdentities.find? (fun row => row.operationId = operationId) = some row)
    (current : CurrentRow context row) :
    recordOperationContext authority store context operationId = .ok store := by
  rw [recordOperationContext, named, ok_bind, verified, ok_bind]
  simp only [found, known]
  refine bind_eq_ok.mpr ⟨(), refuse_eq_ok.mpr (not_not.mpr own), ?_⟩
  refine bind_eq_ok.mpr ⟨(), refuse_eq_ok.mpr (not_not.mpr current.1), ?_⟩
  refine bind_eq_ok.mpr ⟨(), current.2.1, bind_eq_ok.mpr ⟨(), refuse_eq_ok.mpr ?_, rfl⟩⟩
  rw [current.2.2]
  exact Bool.false_ne_true

end Inserts

section Bundles
variable {operation : OperationRecord} {event : AuditEventRecord}

theorem identity_succeeds
    (texts : ∀ text ∈ [operation.operationId, operation.projectId, operation.command,
      operation.actorId, operation.requestDigest], isBlank text = false)
    (session : ∀ session ∈ operation.sessionId, isBlank session = false)
    (attempt : operation.attemptId = none) (fence : operation.fence = none) :
    (OperationIdentity.fromRecord operation none).validate = .ok () := by
  refine bind_eq_ok.mpr ⟨(), forM_eq_ok.mpr ?_, bind_eq_ok.mpr ⟨(), forM_eq_ok.mpr ?_,
    bind_eq_ok.mpr ⟨(), refuse_of_not ?_, refuse_of_not (by simp [OperationIdentity.fromRecord])⟩⟩⟩
  · rintro ⟨field, text⟩ member
    refine refuse_of_not ?_
    rw [texts text ?_]
    · exact Bool.false_ne_true
    · simp only [OperationIdentity.fromRecord, List.mem_cons, Prod.mk.injEq, List.not_mem_nil,
        or_false] at member ⊢
      tauto
  · rintro ⟨field, text⟩ member
    refine refuse_of_not ?_
    simp only [OperationIdentity.fromRecord, attempt, List.mem_cons, Prod.mk.injEq,
      List.not_mem_nil, or_false] at member
    rcases member with ⟨_, rfl⟩ | ⟨_, rfl⟩
    · rw [Option.any_eq_true]
      rintro ⟨name, named, blank⟩
      rw [session name named] at blank
      cases blank
    · simp
  · change ¬ operation.fence = some 0
    rw [fence]
    simp

theorem auditFields_succeed
    (texts : ∀ text ∈ [event.projectId, event.operationId, event.eventType, event.subjectType,
      event.subjectId, event.actorId, event.asOf], isBlank text = false)
    (session : ∀ session ∈ event.sessionId, isBlank session = false)
    (fence : event.fence = none) (revision : event.revision ≠ 0)
    (eventType : event.eventType ∈ eventTypes) (subjectType : event.subjectType ∈ subjectTypes) :
    validateAuditIdentityFields event = .ok () := by
  refine bind_eq_ok.mpr ⟨(), forM_eq_ok.mpr ?_, bind_eq_ok.mpr ⟨(), refuse_of_not ?_,
    bind_eq_ok.mpr ⟨(), refuse_of_not ?_, bind_eq_ok.mpr ⟨(), refuse_of_not revision,
      bind_eq_ok.mpr ⟨(), refuse_of_not (not_not.mpr eventType),
        refuse_of_not (not_not.mpr subjectType)⟩⟩⟩⟩⟩
  · rintro ⟨field, text⟩ member
    refine refuse_of_not ?_
    rw [texts text ?_]
    · exact Bool.false_ne_true
    · simp only [List.mem_cons, Prod.mk.injEq, List.not_mem_nil, or_false] at member ⊢
      tauto
  · rw [Option.any_eq_true]
    rintro ⟨name, named, blank⟩
    rw [session name named] at blank
    cases blank
  · rw [fence]
    simp

theorem validateIdentity_succeeds
    (identity : (OperationIdentity.fromRecord operation none).validate = .ok ())
    (fields : validateAuditIdentityFields event = .ok ())
    (terminal : operation.outcome.isTerminal = operation.completedAt.isSome)
    (project : event.projectId = operation.projectId) (named : event.operationId = operation.operationId)
    (actor : event.actorId = operation.actorId) (revision : event.revision = operation.revision)
    (session : event.sessionId = operation.sessionId) (fence : event.fence = operation.fence) :
    (OperationBundle.mk operation (some event)).validateIdentity = .ok () := by
  refine bind_eq_ok.mpr ⟨(), bind_eq_ok.mpr ⟨(), identity, bind_eq_ok.mpr ⟨(),
    refuse_of_not (not_not.mpr terminal), bind_eq_ok.mpr ⟨(), refuse_of_not (by simp),
      option_forM_eq_ok.mpr ?_⟩⟩⟩, option_forM_eq_ok.mpr ?_⟩
  · intro event' member
    cases Option.mem_some_iff.mp member
    refine bind_eq_ok.mpr ⟨(), fields, bind_eq_ok.mpr ⟨(), refuse_of_not ?_, bind_eq_ok.mpr ⟨(),
      refuse_of_not (not_not.mpr actor), refuse_of_not (not_not.mpr revision)⟩⟩⟩
    rintro (differ | differ)
    · exact differ project
    · exact differ named
  · intro event' member
    cases Option.mem_some_iff.mp member
    exact bind_eq_ok.mpr ⟨(), refuse_of_not (not_not.mpr session), refuse_of_not (not_not.mpr fence)⟩

theorem operationIdentityContext_none {projectId : String}
    (read : operationIdentityContext authority projectId = .ok none) :
    ¬ authority.canonicalProduction = true := by
  obtain ⟨_, _, read⟩ := bind_eq_ok.mp read
  obtain ⟨bound, _, read⟩ := bind_eq_ok.mp read
  cases bound with
  | true =>
    obtain ⟨_, _, read⟩ := bind_eq_ok.mp read
    cases Except.ok.inj read
  | false =>
    obtain ⟨_, refused, _⟩ := bind_eq_ok.mp read
    exact refuse_eq_ok.mp refused

variable {context : Option IdentityContext}

theorem appendOperation_succeeds
    (read : operationIdentityContext authority operation.projectId = .ok context)
    (verified : ∀ c ∈ context, verifyContext authority c = .ok ())
    (named : context.isSome → requireText "operation_id" operation.operationId = .ok ())
    (bindable : Bindable operation)
    (fresh : ∀ row ∈ store.operations, row.operationId ≠ operation.operationId)
    (unidentified : ∀ row ∈ store.operationIdentities, row.operationId ≠ operation.operationId)
    (references : References authority store operation.projectId operation.actorId
      operation.sessionId) :
    ∃ added, appendOperation authority store operation = .ok { store with
        operations := store.operations ++ [operation]
        operationIdentities := store.operationIdentities ++ added } ∧
      ∀ c ∈ context, ∃ row, (store.operationIdentities ++ added).find?
        (fun row => row.operationId = operation.operationId) = some row ∧
          row.operationId = operation.operationId ∧ CurrentRow c row := by
  have inserted := insertOperation_succeeds bindable fresh references
  have kind := operationIdentityContext_eq_ok read
  rw [appendOperation, read, ok_bind, inserted, ok_bind]
  cases context with
  | none =>
    refine ⟨[], ?_, fun c member => by cases member⟩
    rw [List.append_nil]
    rfl
  | some context =>
    have own : operation.projectId = context.projectId :=
      (identityContext_project (kind.2 context rfl)).symm
    have found : (store.operations ++ [operation]).find?
        (fun row => row.operationId = operation.operationId) = some operation :=
      find?_append_fresh (fun row member => decide_eq_false (fresh row member))
        (decide_eq_true rfl)
    have absent : store.operationIdentities.find?
        (fun row => row.operationId = operation.operationId) = none :=
      List.find?_eq_none.mpr fun row member => by simpa using unidentified row member
    have recorded := @recordOperationContext_fresh _ authority
      { store with operations := store.operations ++ [operation] } operation context
      operation.operationId (named rfl) (verified context rfl) found own absent
    refine ⟨_, mapError_eq_ok.mpr recorded, fun c member => ?_⟩
    cases Option.mem_some_iff.mp member
    refine ⟨_, find?_append_fresh (fun row member => decide_eq_false (unidentified row member))
      (decide_eq_true rfl), rfl, rfl, sameLineage_self _, rfl⟩

theorem appendAuditEvent_appended {added}
    (read : operationIdentityContext authority operation.projectId = .ok context)
    (bindable : AuditBindable event) (bound : bindText operation.operationId = .ok ())
    (fresh : ∀ row ∈ store.operations, row.operationId ≠ operation.operationId)
    (identified : ∀ c ∈ context, ∃ row, (store.operationIdentities ++ added).find?
        (fun row => row.operationId = operation.operationId) = some row ∧
          row.operationId = operation.operationId ∧ CurrentRow c row)
    (unaudited : ∀ row ∈ store.audits, row.operationId ≠ event.operationId ∧
      (row.projectId, row.revision) ≠ (event.projectId, event.revision))
    (references : References authority store operation.projectId operation.actorId
      operation.sessionId)
    (same : event.operationId = operation.operationId ∧ event.projectId = operation.projectId ∧
      event.actorId = operation.actorId ∧ event.sessionId = operation.sessionId ∧
      event.fence = operation.fence ∧ event.revision = operation.revision) :
    ∃ store', appendAuditEvent authority { store with
        operations := store.operations ++ [operation]
        operationIdentities := store.operationIdentities ++ added } event = .ok store' := by
  obtain ⟨sameId, sameProject, sameActor, sameSession, sameFence, sameRevision⟩ := same
  have found : (store.operations ++ [operation]).find?
      (fun row => row.operationId = operation.operationId) = some operation :=
    find?_append_fresh (fun row member => decide_eq_false (fresh row member)) (decide_eq_true rfl)
  refine ⟨_, appendAuditEvent_succeeds (by rw [sameProject]; exact read)
    (operation_eq_ok.mpr ⟨by rw [sameId]; exact bound, by rw [sameId]; exact found⟩)
    sameProject.symm sameActor.symm sameSession.symm sameFence.symm sameRevision.symm ?_
    (insertAuditEvent_succeeds bindable unaudited ?_)⟩
  · intro isBound
    obtain ⟨c, member⟩ := Option.isSome_iff_exists.mp isBound
    obtain ⟨row, known, named, current⟩ := identified c member
    have project := identityContext_project ((operationIdentityContext_eq_ok read).2 c member)
    refine ⟨row, List.mem_of_find?_eq_some known, by rw [named, sameId], ?_, current.2.2⟩
    rw [current.1, project, sameProject]
  · rw [sameProject, sameActor, sameSession]
    exact references

theorem appendOperationAudit_succeeds
    (read : operationIdentityContext authority operation.projectId = .ok context)
    (verified : ∀ c ∈ context, verifyContext authority c = .ok ())
    (named : requireText "operation_id" operation.operationId = .ok ())
    (valid : (OperationBundle.mk operation (some event)).validateIdentity = .ok ())
    (bindable : Bindable operation) (auditBindable : AuditBindable event)
    (fresh : ∀ row ∈ store.operations, row.operationId ≠ operation.operationId)
    (unidentified : ∀ row ∈ store.operationIdentities, row.operationId ≠ operation.operationId)
    (unaudited : ∀ row ∈ store.audits, row.operationId ≠ event.operationId ∧
      (row.projectId, row.revision) ≠ (event.projectId, event.revision))
    (references : References authority store operation.projectId operation.actorId
      operation.sessionId)
    (same : event.operationId = operation.operationId ∧ event.projectId = operation.projectId ∧
      event.actorId = operation.actorId ∧ event.sessionId = operation.sessionId ∧
      event.fence = operation.fence ∧ event.revision = operation.revision) :
    ∃ store', appendOperationAuditInTransaction authority store operation event = .ok store' := by
  have bound : bindText operation.operationId = .ok () := bindable.texts _ List.mem_cons_self
  cases context with
  | none =>
    obtain ⟨added, appended, identified⟩ := appendOperation_succeeds read verified
      (fun _ => named) bindable fresh unidentified references
    obtain ⟨store', audited⟩ := appendAuditEvent_appended read auditBindable bound fresh
      identified unaudited references same
    refine ⟨store', ?_⟩
    rw [appendOperationAuditInTransaction, read, ok_bind]
    refine bind_eq_ok.mpr ⟨(), refuse_of_not (operationIdentityContext_none read), ?_⟩
    exact bind_eq_ok.mpr ⟨_, appended, audited⟩
  | some context =>
    have own : operation.projectId = context.projectId :=
      (identityContext_project ((operationIdentityContext_eq_ok read).2 context rfl)).symm
    have readBounded : operationIdentityContext authority (boundedOperation operation).projectId =
      .ok (some context) := read
    have bindableBounded : Bindable (boundedOperation operation) :=
      ⟨bindable.texts, bindable.session, bindable.attempt, bindable.completed,
        bindable.expected, bindable.fence, bindable.revision⟩
    have auditBounded : AuditBindable (redactedEvent event) :=
      ⟨auditBindable.texts, auditBindable.session, auditBindable.fence, auditBindable.revision,
        auditBindable.checked⟩
    obtain ⟨added, appended, identified⟩ := appendOperation_succeeds readBounded verified
      (fun _ => named) bindableBounded fresh unidentified references
    obtain ⟨store', audited⟩ := appendAuditEvent_appended readBounded auditBounded bound fresh
      identified unaudited references same
    obtain ⟨row, known, _, current⟩ := identified context rfl
    have found : (store.operations ++ [boundedOperation operation]).find?
        (fun row => row.operationId = operation.operationId) =
          some (boundedOperation operation) :=
      find?_append_fresh (fun row member => decide_eq_false (fresh row member))
        (decide_eq_true rfl)
    have again := @recordOperationContext_known _ authority
      { store with
        operations := store.operations ++ [boundedOperation operation]
        operationIdentities := store.operationIdentities ++ added }
      (boundedOperation operation) context operation.operationId row named
      (verified context rfl) found own known current
    refine ⟨store', ?_⟩
    rw [appendOperationAuditInTransaction, read, ok_bind]
    refine bind_eq_ok.mpr ⟨(), valid, bind_eq_ok.mpr ⟨(), mapError_eq_ok.mpr
      (verified context rfl), bind_eq_ok.mpr ⟨(), refuse_of_not (not_not.mpr own), ?_⟩⟩⟩
    exact bind_eq_ok.mpr ⟨_, appended, bind_eq_ok.mpr ⟨_, mapError_eq_ok.mpr again, audited⟩⟩

end Bundles

section Acceptance

theorem requireText_of_speaks {field text : String} (speaks : Speaks text) :
    requireText field text = .ok () := by
  refine refuse_of_not ?_
  rintro (blank | nul)
  · rw [speaks.1] at blank
    cases blank
  · exact speaks.2 nul

section Rows
variable {revision : ℕ}

theorem bindOptionalText_of_speaks {text : Option String} (speaks : ∀ t ∈ text, Speaks t) :
    bindOptionalText text = .ok () := by
  cases text with
  | none => rfl
  | some t => exact refuse_of_not (speaks t rfl).2

theorem Acceptable.bindable (acceptable : Acceptable authority store call revision) :
    Bindable (mutationOperation call (revision + 1)) where
  texts := fun text member => refuse_of_not (acceptable.texts text member).2
  session := bindOptionalText_of_speaks acceptable.session
  attempt := rfl
  completed := refuse_of_not (acceptable.texts call.context.now (by simp)).2
  expected := by
    have room := acceptable.room
    change bindOptionalI64 call.context.expectedRevision = .ok ()
    cases asked : call.context.expectedRevision with
    | none => rfl
    | some expected =>
      refine bindI64_of_le ?_
      rw [acceptable.expected expected asked]
      omega
  fence := rfl
  revision := bindI64_of_le acceptable.room

theorem Acceptable.auditBindable (acceptable : Acceptable authority store call revision) :
    AuditBindable (mutationAudit call (revision + 1)) where
  texts := by
    intro text member
    have event : bindText "repair.correction" = .ok () := by decide
    have subject : bindText "operation" = .ok () := by decide
    have own : ∀ t ∈ [call.context.operationId, call.context.projectId, call.command,
        call.context.actorId, call.context.requestDigest, call.context.now], bindText t = .ok () :=
      fun t member => refuse_of_not (acceptable.texts t member).2
    simp only [mutationAudit, List.mem_cons, List.not_mem_nil, or_false] at member
    rcases member with rfl | rfl | rfl | rfl | rfl | rfl | rfl
    · exact own _ (by simp)
    · exact own _ (by simp)
    · exact event
    · exact subject
    · exact own _ (by simp)
    · exact own _ (by simp)
    · exact own _ (by simp)
  session := bindOptionalText_of_speaks acceptable.session
  fence := rfl
  revision := bindI64_of_le acceptable.room
  checked := by
    have kinds : "repair.correction" ∈ eventTypes ∧ "operation" ∈ subjectTypes := by decide
    simp [mutationAudit, kinds.1, kinds.2]

theorem Acceptable.valid (acceptable : Acceptable authority store call revision) :
    (OperationBundle.mk (mutationOperation call (revision + 1))
      (some (mutationAudit call (revision + 1)))).validateIdentity = .ok () := by
  have own : ∀ t ∈ [call.context.operationId, call.context.projectId, call.command,
      call.context.actorId, call.context.requestDigest, call.context.now], isBlank t = false :=
    fun t member => (acceptable.texts t member).1
  have kinds : "repair.correction" ∈ eventTypes ∧ "operation" ∈ subjectTypes := by decide
  have identity : (OperationIdentity.fromRecord (mutationOperation call (revision + 1))
      none).validate = .ok () := by
    refine identity_succeeds (fun text member => own text ?_)
      (fun session named => (acceptable.session session named).1) rfl rfl
    simp only [mutationOperation, List.mem_cons, List.not_mem_nil, or_false] at member ⊢
    tauto
  have fields : validateAuditIdentityFields (mutationAudit call (revision + 1)) = .ok () := by
    refine auditFields_succeed ?_ (fun session named => (acceptable.session session named).1) rfl
      (Nat.succ_ne_zero _) kinds.1 kinds.2
    intro text member
    have event : isBlank "repair.correction" = false := by decide
    simp only [mutationAudit, List.mem_cons, List.not_mem_nil, or_false] at member
    rcases member with rfl | rfl | rfl | rfl | rfl | rfl | rfl
    · exact own _ (by simp)
    · exact own _ (by simp)
    · exact event
    · exact isBlank_operation
    · exact own _ (by simp)
    · exact own _ (by simp)
    · exact own _ (by simp)
  exact validateIdentity_succeeds identity fields rfl rfl rfl rfl rfl rfl rfl

end Rows

theorem factMutation_accepts {revision : ℕ} (acceptable : Acceptable authority store call revision)
    {rows : ρ} (written : call.write store = .ok rows) :
    ∃ store', factMutation authority store call =
        (.ok ⟨call.context.operationId, revision + 1, false⟩, store') ∧
      Commits authority store call ⟨call.context.operationId, revision + 1, false⟩ store' := by
  obtain ⟨context, read, verified⟩ := acceptable.context
  have idSpeaks : Speaks call.context.operationId := acceptable.texts _ (by simp)
  have idBound : bindText call.context.operationId = .ok () := refuse_of_not idSpeaks.2
  have projectBound : bindText call.context.projectId = .ok () :=
    refuse_of_not (acceptable.texts _ (by simp)).2
  have fresh := operation_fresh idBound acceptable.fresh
  have classified : classifyKnown store call = .ok () := by
    rw [classifyKnown, fresh, ok_bind]
    rfl
  have unknown : replayKnown authority store call = .ok none := by
    refine bind_eq_ok.mpr ⟨none, preflight_fresh ?_ ?_ read fresh, rfl⟩
    · exact fun production => authorized_principal acceptable.authorized production
    · exact fun production session named =>
        authorized_session acceptable.authorized production named
  have next : nextRevision revision = revision + 1 := by
    have room := acceptable.room
    rw [nextRevision]
    omega
  have revised : projectRevision store call.context.projectId = .ok revision :=
    projectRevision_eq_ok.mpr ⟨projectBound, acceptable.current⟩
  have references : References authority { store with
      rows := rows
      revisions := Function.update store.revisions call.context.projectId (some (revision + 1)) }
      call.context.projectId call.context.actorId call.context.sessionId :=
    ⟨by simp, acceptable.references.2⟩
  have named : requireText "operation_id"
      (mutationOperation call (revision + 1)).operationId = .ok () :=
    requireText_of_speaks idSpeaks
  obtain ⟨store', appended⟩ := @appendOperationAudit_succeeds _ authority
    { store with
      rows := rows
      revisions := Function.update store.revisions call.context.projectId (some (revision + 1)) }
    (mutationOperation call (revision + 1)) (mutationAudit call (revision + 1)) context
    read verified named acceptable.valid acceptable.bindable acceptable.auditBindable
    acceptable.fresh acceptable.unidentified acceptable.unaudited references
    ⟨rfl, rfl, rfl, rfl, rfl, rfl⟩
  have bumped : bumpRevisionInTransaction { store with rows := rows } call.context.projectId =
      .ok (revision + 1, { store with
        rows := rows
        revisions :=
          Function.update store.revisions call.context.projectId (some (revision + 1)) }) := by
    have again : projectRevision { store with rows := rows } call.context.projectId =
        .ok revision := revised
    rw [bumpRevisionInTransaction, again, ok_bind, next]
    rfl
  have performed : performMutation authority store call =
      .ok (⟨call.context.operationId, revision + 1, false⟩, store') := by
    have expected : checkExpectedRevision revision call.context.expectedRevision = .ok () :=
      checkExpectedRevision_eq_ok.mpr acceptable.expected
    rw [performMutation, revised, ok_bind, expected, ok_bind, written, ok_bind, bumped, ok_bind]
    exact bind_eq_ok.mpr ⟨store', appended, rfl⟩
  refine ⟨store', ?_, performMutation_eq_ok performed⟩
  have body : mutationBody authority store call =
      .ok (⟨call.context.operationId, revision + 1, false⟩, store') := by
    rw [mutationBody, acceptable.authorized, ok_bind, classified, ok_bind, unknown, ok_bind]
    exact performed
  rw [factMutation, if_neg (not_not.mpr acceptable.enabled), body]

end Acceptance

end Boreal.Store
