/- External jobs: the outbox record of a side effect outside the database, its stages, and the calls
that register a job, advance it and mark it for readback. -/
import BorealWork.PlanningRows

namespace Boreal.Store.Jobs
open Drain

section Stages

inductive JobStage
  | registered | admitted | running | sideEffectStarted | sideEffectFinished | readbackRequired
  | committed | rejected | failed | cancelRequested | reconciled
  deriving DecidableEq

namespace JobStage

def name : JobStage → String
  | registered => "registered"
  | admitted => "admitted"
  | running => "running"
  | sideEffectStarted => "side_effect_started"
  | sideEffectFinished => "side_effect_finished"
  | readbackRequired => "readback_required"
  | committed => "committed"
  | rejected => "rejected"
  | failed => "failed"
  | cancelRequested => "cancel_requested"
  | reconciled => "reconciled"

end JobStage

def jobStages : List JobStage :=
  [.registered, .admitted, .running, .sideEffectStarted, .sideEffectFinished, .readbackRequired,
    .committed, .rejected, .failed, .cancelRequested, .reconciled]

def requireJobStage (value : String) : Except StoreError JobStage :=
  match jobStages.find? (·.name = value) with
  | some stage => .ok stage
  | none => .error (.invalid s!"unsupported external job stage: {value}")

/-- Once an effect is marked unknown, only an attributable readback resolves it. -/
def validTransition : JobStage → JobStage → Bool
  | .registered, .admitted | .registered, .rejected | .registered, .failed => true
  | .admitted, .running | .admitted, .rejected | .admitted, .failed => true
  | .running, .sideEffectStarted | .running, .failed | .running, .cancelRequested => true
  | .sideEffectStarted, .sideEffectFinished | .sideEffectStarted, .readbackRequired
  | .sideEffectStarted, .failed => true
  | .sideEffectFinished, .committed | .sideEffectFinished, .readbackRequired
  | .sideEffectFinished, .failed => true
  | .readbackRequired, .reconciled => true
  | .cancelRequested, .reconciled | .cancelRequested, .failed => true
  | _, _ => false

def reconciliationState : JobStage → String
  | .committed | .reconciled => "resolved"
  | .rejected | .failed => "terminal"
  | .readbackRequired => "required"
  | _ => "pending"

end Stages

structure ExternalJobInput where
  jobId : String
  operationId : String
  projectId : String
  subjectType : String
  subjectId : String
  kind : String
  requestDigest : String
  sourceIdentity : Option String
  configIdentity : Option String
  actorId : String
  sessionId : Option String
  deadline : Option String
  createdAt : String
  deriving DecidableEq

/-- A row: what was registered, which is never written again, and what the stages fill in. -/
structure ExternalJobRecord extends ExternalJobInput where
  stage : JobStage
  sideEffectRef : Option String
  startedAt : Option String
  resultDigest : Option String
  reconciliationState : String
  errorMessage : Option String
  updatedAt : String
  deriving DecidableEq

structure ExternalJobRegistration where
  job : ExternalJobRecord
  replayed : Bool
  deriving DecidableEq

structure ExternalJobTransitionInput where
  projectId : String
  jobId : String
  expectedStage : String
  nextStage : String
  at_ : String
  sideEffectRef : Option String
  resultDigest : Option String
  errorMessage : Option String
  deriving DecidableEq

structure JobRows where
  workProjects : String → Option String
  jobs : List ExternalJobRecord

abbrev JobStore := SqliteStore JobRows

def SameRequest (existing : ExternalJobRecord) (input : ExternalJobInput) : Prop :=
  existing.jobId = input.jobId ∧ existing.projectId = input.projectId ∧
    existing.subjectType = input.subjectType ∧ existing.subjectId = input.subjectId ∧
    existing.kind = input.kind ∧ existing.requestDigest = input.requestDigest ∧
    existing.sourceIdentity = input.sourceIdentity ∧
    existing.configIdentity = input.configIdentity ∧ existing.actorId = input.actorId ∧
    existing.sessionId = input.sessionId ∧ existing.deadline = input.deadline

instance (existing : ExternalJobRecord) (input : ExternalJobInput) :
    Decidable (SameRequest existing input) :=
  inferInstanceAs (Decidable (_ ∧ _))

def requireText (value label : String) : Except StoreError Unit :=
  refuse (isBlank value) (.invalid s!"{label} must not be empty")

def validateInput (input : ExternalJobInput) : Except StoreError Unit :=
  [(input.jobId, "job id"), (input.operationId, "operation id"), (input.projectId, "project id"),
    (input.subjectType, "subject type"), (input.subjectId, "subject id"), (input.kind, "job kind"),
    (input.requestDigest, "request digest"), (input.actorId, "job actor"),
    (input.createdAt, "creation timestamp")].forM fun (value, label) => requireText value label

def validateTransitionInput (input : ExternalJobTransitionInput) :
    Except StoreError (JobStage × JobStage) := do
  requireText input.projectId "job project id"
  requireText input.jobId "job id"
  let expected ← requireJobStage input.expectedStage
  let next ← requireJobStage input.nextStage
  requireText input.at_ "job timestamp"
  refuse (validTransition expected next = false) (.conflict
    s!"illegal external job transition: {input.expectedStage} -> {input.nextStage}")
  return (expected, next)

section Rows
variable (store : JobStore)

def projectForWork (workId : String) : Except StoreError String := do
  bindText workId
  match store.rows.workProjects workId with
  | some project => return project
  | none => .error (.notFound "work" workId)

def externalJobRow (projectId jobId : String) : Except StoreError (Option ExternalJobRecord) := do
  bindText projectId
  bindText jobId
  return store.rows.jobs.find? fun job => job.projectId = projectId ∧ job.jobId = jobId

def externalJobByOperationRow (projectId operationId : String) :
    Except StoreError (Option ExternalJobRecord) := do
  bindText projectId
  bindText operationId
  return store.rows.jobs.find? fun job => job.projectId = projectId ∧ job.operationId = operationId

def registeredJob (input : ExternalJobInput) : ExternalJobRecord where
  toExternalJobInput := input
  stage := .registered
  sideEffectRef := none
  startedAt := none
  resultDigest := none
  reconciliationState := "pending"
  errorMessage := none
  updatedAt := input.createdAt

def insertExternalJob (input : ExternalJobInput) : Except StoreError JobStore := do
  [input.jobId, input.operationId, input.projectId, input.subjectType, input.subjectId, input.kind,
    input.requestDigest].forM bindText
  bindOptionalText input.sourceIdentity
  bindOptionalText input.configIdentity
  bindText input.actorId
  bindOptionalText input.sessionId
  bindOptionalText input.deadline
  bindText input.createdAt
  [("subject_type", input.subjectType), ("subject_id", input.subjectId), ("kind", input.kind),
    ("request_digest", input.requestDigest), ("actor_id", input.actorId)].forM
      fun (column, value) => refuse (trimsEmpty value) (checkFailed s!"trim({column}) <> ''")
  refuse (input.operationId ∈ store.rows.jobs.map (·.operationId))
    (unique "boreal_external_job.operation_id")
  refuse (input.jobId ∈ store.rows.jobs.map (·.jobId)) (unique "boreal_external_job.job_id")
  refuse (store.revisions input.projectId = none) foreignKey
  return { store with rows.jobs := store.rows.jobs ++ [registeredJob input] }

def registerExternalJobRow (input : ExternalJobInput) :
    Except StoreError (ExternalJobRegistration × JobStore) := do
  match ← externalJobByOperationRow store input.projectId input.operationId with
  | some existing => do
    refuse (¬ SameRequest existing input) (.conflict
      s!"external job operation {input.operationId} was reused with a different request")
    return (⟨existing, true⟩, store)
  | none => do
    let store ← insertExternalJob store input
    match ← externalJobRow store input.projectId input.jobId with
    | some job => return (⟨job, false⟩, store)
    | none => .error (.corrupt "external job disappeared after registration")

/-- The columns that an advance sets. -/
def advancedJob (input : ExternalJobTransitionInput) (next : JobStage) (startedAt : Option String)
    (job : ExternalJobRecord) : ExternalJobRecord :=
  { job with
    stage := next
    sideEffectRef := input.sideEffectRef.or job.sideEffectRef
    startedAt := job.startedAt.or startedAt
    resultDigest := input.resultDigest.or job.resultDigest
    errorMessage := input.errorMessage
    reconciliationState := reconciliationState next
    updatedAt := input.at_ }

def updateExternalJob (input : ExternalJobTransitionInput) (expected next : JobStage)
    (startedAt : Option String) : Except StoreError JobStore := do
  bindOptionalText input.sideEffectRef
  bindOptionalText startedAt
  bindOptionalText input.resultDigest
  bindOptionalText input.errorMessage
  [input.at_, input.projectId, input.jobId].forM bindText
  let advance job :=
    if job.projectId = input.projectId ∧ job.jobId = input.jobId ∧ job.stage = expected then
      advancedJob input next startedAt job
    else job
  return { store with rows.jobs := store.rows.jobs.map advance }

/-- Two identities that are both known differ. -/
def Changed (existing candidate : Option String) : Prop :=
  ∃ known ∈ existing, ∃ given ∈ candidate, known ≠ given

instance (existing candidate : Option String) : Decidable (Changed existing candidate) :=
  inferInstanceAs (Decidable (∃ _ ∈ _, ∃ _ ∈ _, _))

def advanceExternalJobRow (input : ExternalJobTransitionInput) :
    Except StoreError (ExternalJobRecord × JobStore) := do
  let (expected, next) ← validateTransitionInput input
  match ← externalJobRow store input.projectId input.jobId with
  | none => .error (.notFound "external_job" input.jobId)
  | some current => do
    refuse (current.stage ≠ expected) (.conflict
      s!"external job stage changed: expected {input.expectedStage}, actual {current.stage.name}")
    refuse (Changed current.sideEffectRef input.sideEffectRef)
      (.conflict "external side-effect identity cannot be changed")
    refuse (Changed current.resultDigest input.resultDigest)
      (.conflict "external result identity cannot be changed")
    refuse (next = .readbackRequired ∧ current.sideEffectRef = none ∧ input.sideEffectRef = none)
      (.invalid "readback-required job must retain a side-effect reference")
    refuse ((next = .committed ∨ next = .reconciled) ∧ current.resultDigest = none ∧
        input.resultDigest = none)
      (.invalid "terminal external job state requires a result digest")
    let startedAt := current.startedAt.or (some input.at_)
    let store ← updateExternalJob store input expected next startedAt
    match ← externalJobRow store input.projectId input.jobId with
    | some job => return (job, store)
    | none => .error (.corrupt "external job disappeared after transition")

end Rows

section Guards
variable (authority : Authority) (store : JobStore)

def validateJobSubject (input : ExternalJobInput) : Except StoreError Unit :=
  let project := (projectForWork store input.subjectId).toOption
  refuse (input.subjectType = "work" ∧ project ≠ some input.projectId)
    (.wrongSubject input.projectId (project.getD "missing work"))

def operationExists (operationId : String) : Except StoreError Bool := do
  bindText operationId
  return (store.operations.find? fun row => row.operationId = operationId).isSome

def validateOperationAuthority (context : IdentityContext) (job : ExternalJobInput) :
    Except StoreError Unit := do
  (verifyContext authority context).mapError fun error =>
    .conflict s!"external job identity: {error.display}"
  let readback ← (identityOperation authority store context job.operationId).mapError fun error =>
    .conflict s!"external job operation identity: {error.display}"
  match readback.bind OperationReadback.operation with
  | none => do
    refuse (← operationExists store job.operationId)
      (.corrupt "external job operation has no current identity readback")
    .error (.notFound "operation" job.operationId)
  | some row => do
    refuse (row.projectId ≠ context.projectId) (.wrongSubject context.projectId row.projectId)
    refuse (row.requestDigest ≠ job.requestDigest)
      (.conflict "external job request digest differs from its operation")
    refuse (row.actorId ≠ job.actorId) (.wrongOwner row.actorId job.actorId)
    refuse (row.sessionId ≠ job.sessionId)
      (.conflict "external job session identity differs from its operation")
    match ← auditEvent store job.operationId with
    | none => .error (.corrupt "external job operation has no audit event")
    | some audit => do
      refuse (audit.projectId ≠ row.projectId ∨ audit.operationId ≠ row.operationId ∨
          audit.actorId ≠ row.actorId ∨ audit.sessionId ≠ row.sessionId ∨
          audit.fence ≠ row.fence ∨ audit.revision ≠ row.revision)
        (.corrupt "external job operation and audit identities disagree")
      refuse (audit.subjectType ≠ job.subjectType ∨ audit.subjectId ≠ job.subjectId)
        (.wrongSubject s!"{job.subjectType}/{job.subjectId}"
          s!"{audit.subjectType}/{audit.subjectId}")

def validateJobAuthority (context : IdentityContext) (job : ExternalJobInput) :
    Except StoreError Unit := do
  refuse (job.projectId ≠ context.projectId) (.wrongSubject context.projectId job.projectId)
  validateOperationAuthority authority store context job

/-- The calls without an identity context serve unbound projects only. -/
def ensureLegacyExternalJobCompatibility (projectId : String) : Except StoreError Unit := do
  let bound ← (if authority.canonicalProduction then .ok true
    else if authority.identityTablesInstalled then projectIdentityIsBound authority projectId
    else .ok false : Except StoreError Bool)
  refuse (bound = true) (.conflict <|
    "external job requires a current project identity and audited operation; use the " ++
      "identity-bound API")

end Guards

section Calls
variable (authority : Authority) (store : JobStore)

def registerExternalJob (input : ExternalJobInput) :
    Except StoreError (ExternalJobRegistration × JobStore) := do
  validateInput input
  ensureLegacyExternalJobCompatibility authority input.projectId
  validateJobSubject store input
  registerExternalJobRow store input

def registerExternalJobWithIdentity (context : IdentityContext) (input : ExternalJobInput) :
    Except StoreError (ExternalJobRegistration × JobStore) := do
  validateInput input
  refuse (input.projectId ≠ context.projectId) (.wrongSubject context.projectId input.projectId)
  validateJobAuthority authority store context input
  validateJobSubject store input
  registerExternalJobRow store input

def advanceExternalJob (input : ExternalJobTransitionInput) :
    Except StoreError (ExternalJobRecord × JobStore) := do
  discard (validateTransitionInput input)
  ensureLegacyExternalJobCompatibility authority input.projectId
  advanceExternalJobRow store input

def advanceExternalJobWithIdentity (context : IdentityContext) (input : ExternalJobTransitionInput) :
    Except StoreError (ExternalJobRecord × JobStore) := do
  discard (validateTransitionInput input)
  refuse (input.projectId ≠ context.projectId) (.wrongSubject context.projectId input.projectId)
  match ← externalJobRow store input.projectId input.jobId with
  | none => .error (.notFound "external_job" input.jobId)
  | some current => do
    validateJobAuthority authority store context current.toExternalJobInput
    advanceExternalJobRow store input

def externalJob (projectId jobId : String) : Except StoreError (Option ExternalJobRecord) := do
  ensureLegacyExternalJobCompatibility authority projectId
  externalJobRow store projectId jobId

def externalJobWithIdentity (context : IdentityContext) (jobId : String) :
    Except StoreError (Option ExternalJobRecord) := do
  (verifyContext authority context).mapError fun error =>
    .conflict s!"external job identity: {error.display}"
  match ← externalJobRow store context.projectId jobId with
  | none => return none
  | some job => do
    validateJobAuthority authority store context job.toExternalJobInput
    return some job

/-- The transition that marks a job in `stage` for readback. -/
def readbackTransition (projectId jobId sideEffectRef at_ : String) (stage : JobStage) :
    ExternalJobTransitionInput where
  projectId := projectId
  jobId := jobId
  expectedStage := stage.name
  nextStage := "readback_required"
  at_ := at_
  sideEffectRef := some sideEffectRef
  resultDigest := none
  errorMessage := none

def markReadback (read : Except StoreError (Option ExternalJobRecord))
    (advance : ExternalJobTransitionInput → Except StoreError (ExternalJobRecord × JobStore))
    (projectId jobId sideEffectRef at_ : String) : Except StoreError (ExternalJobRecord × JobStore) := do
  requireText sideEffectRef "external side-effect reference"
  match ← read with
  | none => .error (.notFound "external_job" jobId)
  | some current =>
    if current.stage = .readbackRequired then do
      refuse (current.sideEffectRef ≠ some sideEffectRef)
        (.conflict "external readback side-effect identity changed during replay")
      return (current, store)
    else advance (readbackTransition projectId jobId sideEffectRef at_ current.stage)

def markExternalJobReadbackRequired (projectId jobId sideEffectRef at_ : String) :
    Except StoreError (ExternalJobRecord × JobStore) :=
  markReadback store (externalJob authority store projectId jobId)
    (advanceExternalJob authority store) projectId jobId sideEffectRef at_

def markExternalJobReadbackRequiredWithIdentity (context : IdentityContext)
    (jobId sideEffectRef at_ : String) : Except StoreError (ExternalJobRecord × JobStore) :=
  markReadback store (externalJobWithIdentity authority store context jobId)
    (advanceExternalJobWithIdentity authority store context) context.projectId jobId sideEffectRef at_

inductive JobCall
  | register (context : Option IdentityContext) (input : ExternalJobInput)
  | advance (context : Option IdentityContext) (input : ExternalJobTransitionInput)
  | markReadbackRequired (projectId jobId sideEffectRef at_ : String)
  | markReadbackRequiredWithIdentity (context : IdentityContext) (jobId sideEffectRef at_ : String)

inductive JobAnswer
  | registration (registration : ExternalJobRegistration)
  | job (job : ExternalJobRecord)
  deriving DecidableEq

def answerJob (result : ExternalJobRecord × JobStore) : JobAnswer × JobStore := (.job result.1, result.2)

def answerRegistration (result : ExternalJobRegistration × JobStore) : JobAnswer × JobStore :=
  (.registration result.1, result.2)

def performCall : JobCall → Except StoreError (JobAnswer × JobStore)
  | .register none input => (registerExternalJob authority store input).map answerRegistration
  | .register (some context) input =>
    (registerExternalJobWithIdentity authority store context input).map answerRegistration
  | .advance none input => (advanceExternalJob authority store input).map answerJob
  | .advance (some context) input =>
    (advanceExternalJobWithIdentity authority store context input).map answerJob
  | .markReadbackRequired projectId jobId sideEffectRef at_ =>
    (markExternalJobReadbackRequired authority store projectId jobId sideEffectRef at_).map answerJob
  | .markReadbackRequiredWithIdentity context jobId sideEffectRef at_ =>
    (markExternalJobReadbackRequiredWithIdentity authority store context jobId sideEffectRef
      at_).map answerJob

/-- A call in its transaction: rolled back unless it succeeds. -/
def jobCall (call : JobCall) : Except StoreError JobAnswer × JobStore :=
  match performCall authority store call with
  | .ok (answer, committed) => (.ok answer, committed)
  | .error error => (.error error, store)

end Calls

end Boreal.Store.Jobs
