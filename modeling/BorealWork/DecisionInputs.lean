/- The facts behind one decision: each is present or explicitly classified as unavailable, and a
structural check reports what does not fit together. -/
import BorealWork.Acceptance
import BorealWork.BusinessTime
import BorealWork.Library.Checks

namespace Boreal

abbrev Revision := TypedRevision "Revision"
abbrev HoldId := TypedId "HoldId"
abbrev RecoveryId := TypedId "RecoveryId"
abbrev DelegationId := TypedId "DelegationId"
abbrev HoldCode := TypedId "HoldCode"

inductive DispatchPolicy
  | automatic
  | operatorOnly
  | paused
  deriving DecidableEq

inductive GateState
  | open
  | satisfied
  | failed
  deriving DecidableEq

def ProofIdentity.isBound (proof : ProofIdentity) : Bool :=
  proof.sourceSnapshot.any (·.value ≠ "") && proof.configuration.any (·.value ≠ "")

namespace Decision
open Checks WorkModel

inductive FactKind
  | lifecycle
  | actorAuthority
  | pinnedRequirements
  | dependencyOutcomes
  | holds
  | execution
  | submission
  | review
  | recovery
  deriving DecidableEq

inductive FactTarget
  | work
  | actor (id : ActorId)
  | requirements
  | dependencies
  | holds
  | attempt (id : AttemptId)
  | submission (id : SubmissionId)
  | review (id : ReviewId)
  | recovery (id : RecoveryId)
  deriving DecidableEq

structure FactSubject where
  projectId : ProjectId
  workId : WorkId
  target : FactTarget
  deriving DecidableEq

inductive AbsenceAllowance
  | required
  | allowed
  deriving DecidableEq

structure AbsentDiagnostic where
  fact : FactKind
  subject : FactSubject
  allowance : AbsenceAllowance
  deriving DecidableEq

inductive UnreadableReason
  | corrupt
  | unsupportedVersion
  | missingReference
  | permissionDenied
  deriving DecidableEq

structure UnreadableDiagnostic where
  fact : FactKind
  subject : FactSubject
  reason : UnreadableReason
  deriving DecidableEq

inductive RevisionMarker
  | snapshot (revision : Revision)
  | entity (revision : EntityRevision)
  | proof (revision : ProofRevision)
  | fence (fence : AttemptFence)
  deriving DecidableEq

structure StaleDiagnostic where
  fact : FactKind
  subject : FactSubject
  expected : RevisionMarker
  observed : RevisionMarker
  deriving DecidableEq

inductive FailureReason
  | evaluationFailed
  | externalCheckFailed
  | invalidInput
  | unknownOutcome
  deriving DecidableEq

structure FailedDiagnostic where
  fact : FactKind
  subject : FactSubject
  reason : FailureReason
  deriving DecidableEq

inductive FactDiagnostic
  | absent (item : AbsentDiagnostic)
  | unreadable (item : UnreadableDiagnostic)
  | stale (item : StaleDiagnostic)
  | failed (item : FailedDiagnostic)
  deriving DecidableEq

/-- No state is an inferred default: a fact that is not present says why. -/
inductive Fact (α : Type)
  | present (value : α)
  | absent (diagnostic : AbsentDiagnostic)
  | unreadable (diagnostic : UnreadableDiagnostic)
  | stale (diagnostic : StaleDiagnostic)
  | failed (diagnostic : FailedDiagnostic)
  deriving DecidableEq

def Fact.asPresent {α : Type} : Fact α → Option α
  | .present value => some value
  | _ => none

def Fact.diagnostic {α : Type} : Fact α → Option FactDiagnostic
  | .present _ => none
  | .absent diagnostic => some (.absent diagnostic)
  | .unreadable diagnostic => some (.unreadable diagnostic)
  | .stale diagnostic => some (.stale diagnostic)
  | .failed diagnostic => some (.failed diagnostic)

inductive TerminalDecision
  | closed (decidedAt : TimestampMs)
  | cancelled (decidedAt : TimestampMs)
  deriving DecidableEq

structure LifecycleInput where
  identity : EntityIdentity
  lifecycle : PersistedLifecycle
  terminalDecision : Option TerminalDecision
  deriving DecidableEq

inductive PrincipalBinding
  | authenticated (actorId : ActorId)
  | delegated (actorId : ActorId) (delegationId : DelegationId) (delegatorId : ActorId)
  deriving DecidableEq

structure ActorAuthorityInput where
  authorityRoot : ActorId
  projectId : ProjectId
  role : ActorRole
  principal : PrincipalBinding
  sessionId : Option SessionId
  deriving DecidableEq

def ActorAuthorityInput.actorId (authority : ActorAuthorityInput) : ActorId :=
  match authority.principal with
  | .authenticated actorId => actorId
  | .delegated actorId _ _ => actorId

structure RequirementExceptionInput where
  comment : String
  actorRole : ActorRole
  entityRevision : EntityRevision
  proofRevision : ProofRevision
  expiresAt : Option TimestampMs
  revoked : Bool
  deriving DecidableEq

def RequirementExceptionInput.applies (exception : RequirementExceptionInput) (raw : GateState)
    (entity : EntityRevision) (proof : ProofRevision) (moment : TimestampMs) : Bool :=
  raw = .failed && exception.actorRole = .operator && !isBlank exception.comment &&
    !exception.revoked && exception.entityRevision = entity && exception.proofRevision = proof &&
    exception.expiresAt.all (moment < ·)

structure PinnedRequirement where
  exception : Option RequirementExceptionInput
  id : RequirementId
  gateId : GateId
  kind : GateKind
  required : Bool
  state : GateState
  deriving DecidableEq

structure PinnedRequirementsInput where
  proof : ProofIdentity
  requirements : List PinnedRequirement
  reviewPolicy : ReviewRequirementPolicy
  deriving DecidableEq

inductive DependencyOutcome
  | open
  | closed
  | complete
  | cancelled
  | failed
  | waived
  deriving DecidableEq

structure DependencyWaiver where
  decisionId : DecisionId
  edgeRevision : EntityRevision
  deriving DecidableEq

structure DependencyOutcomeInput where
  id : DependencyId
  predecessor : EntityIdentity
  successor : EntityIdentity
  outcome : DependencyOutcome
  waiver : Option DependencyWaiver
  deriving DecidableEq

structure DependencyOutcomesInput where
  edges : List DependencyOutcomeInput
  deriving DecidableEq

structure IntegrityScope where
  projectId : ProjectId
  workId : WorkId
  target : FactTarget
  deriving DecidableEq

inductive IntegrityLevel
  | valid
  | degraded
  | quarantined
  deriving DecidableEq

inductive IntegrityDiagnosticCode
  | missingRequired
  | corrupt
  | stale
  | failed
  | contradictory
  deriving DecidableEq

structure IntegrityDiagnostic where
  scope : IntegrityScope
  code : IntegrityDiagnosticCode
  deriving DecidableEq

structure IntegrityInput where
  scope : IntegrityScope
  level : IntegrityLevel
  diagnostics : List IntegrityDiagnostic
  deriving DecidableEq

inductive Availability
  | live
  | stale
  | unavailable
  | incompatible
  deriving DecidableEq

inductive PermittedAction
  | inspect
  | claim
  | acceptAttempt
  | resumeAttempt
  | attachEvidence
  | submit
  | review
  | finish
  | release
  | recover
  | resolveHold
  | repair
  deriving DecidableEq

structure DeniedAction where
  action : PermittedAction
  deriving DecidableEq

structure PermittedActionsInput where
  allowed : Finset PermittedAction
  denied : List DeniedAction
  deriving DecidableEq

structure ExecutionInput where
  attempt : AttemptIdentity
  actorId : ActorId
  sessionId : Option SessionId
  phase : AttemptPhase
  claimedAt : TimestampMs
  leaseDeadline : TimestampMs
  hardDeadline : TimestampMs
  proof : ProofIdentity
  deriving DecidableEq

inductive SubmissionState
  | sealed
  | superseded
  | rejected
  deriving DecidableEq

structure SubmissionInput where
  actorId : ActorId
  sessionId : SessionId
  authorityRoot : ActorId
  id : SubmissionId
  proof : ProofIdentity
  state : SubmissionState
  deriving DecidableEq

inductive ReviewOutcome
  | pending
  | approved
  | rejected
  | returned
  | revoked
  deriving DecidableEq

structure ReviewInput where
  reviewerAuthorityRoot : ActorId
  attemptAuthorityRoot : ActorId
  id : ReviewId
  submissionId : SubmissionId
  proof : ProofIdentity
  reviewerId : ActorId
  attemptActorId : ActorId
  outcome : ReviewOutcome
  deriving DecidableEq

inductive RecoveryReason
  | expired
  | stopUnknown
  | resourceUnknown
  | failed
  | cancelRequested
  deriving DecidableEq

inductive ResourceDisposition
  | confirmedStopped
  | adopted
  | unknown
  deriving DecidableEq

structure RecoveryInput where
  id : RecoveryId
  attempt : AttemptIdentity
  reason : RecoveryReason
  resource : ResourceDisposition
  unresolved : Bool
  deriving DecidableEq

structure HoldInput where
  id : HoldId
  scope : IntegrityScope
  code : HoldCode
  entityRevision : EntityRevision
  active : Bool
  deriving DecidableEq

structure HoldsInput where
  holds : List HoldInput
  deriving DecidableEq

structure StatusTimingInput where
  schedule : Option WorkSchedule
  cycleActivationAt : Option TimestampMs
  retryNotBefore : Option TimestampMs
  deriving DecidableEq

structure EvaluationClock where
  evaluatedAt : TimestampMs
  timing : StatusTimingInput
  deriving DecidableEq

inductive ContradictionCode
  | terminalDecisionMissing
  | terminalDecisionMismatch
  | nonTerminalLifecycleHasTerminalDecision
  | selfDependency
  | waiverMissing
  | reviewPolicyMismatch
  | currentExecutionIsTerminal
  | deadlineBeforeClaim
  | attemptBindingMismatch
  | proofRevisionMismatch
  | selfReview
  | recoveryDispositionMismatch
  | integrityLevelMismatch
  | malformedInput
  deriving DecidableEq

inductive DuplicateKey
  | requirement (id : RequirementId)
  | dependency (id : DependencyId)
  | hold (id : HoldId)
  deriving DecidableEq

inductive DecisionDiagnostic
  | fact (diagnostic : FactDiagnostic)
  | contradictory (fact : FactKind) (subject : FactSubject) (code : ContradictionCode)
  | identityMismatch (fact : FactKind) (subject : FactSubject) (expected observed : EntityIdentity)
  | crossProject (fact : FactKind) (subject : FactSubject) (observedProject : ProjectId)
  | duplicate (fact : FactKind) (subject : FactSubject) (key : DuplicateKey)
  | integrity (diagnostic : IntegrityDiagnostic)
  | actionConflict (action : PermittedAction)
  deriving DecidableEq

/-- Everything one decision reads: no clock, no store and no process stands behind it. -/
structure DecisionInputs where
  subject : EntityIdentity
  snapshotRevision : Revision
  clock : EvaluationClock
  availability : Availability
  dispatchPolicy : DispatchPolicy
  lifecycle : Fact LifecycleInput
  authority : Fact ActorAuthorityInput
  requirements : Fact PinnedRequirementsInput
  dependencies : Fact DependencyOutcomesInput
  holds : Fact HoldsInput
  execution : Fact ExecutionInput
  submission : Fact SubmissionInput
  review : Fact ReviewInput
  recovery : Fact RecoveryInput
  integrity : IntegrityInput
  permittedActions : PermittedActionsInput
  deriving DecidableEq

namespace DecisionInputs

variable (facts : DecisionInputs)

def target (target : FactTarget) : FactSubject :=
  ⟨facts.subject.projectId, facts.subject.workId, target⟩

def workSubject : FactSubject := facts.target .work

def terminalDiagnostics (input : LifecycleInput) : List DecisionDiagnostic :=
  match input.lifecycle, input.terminalDecision with
  | .closed, some (.closed _) | .cancelled, some (.cancelled _) => []
  | .draft, none | .open, none => []
  | .closed, none | .cancelled, none =>
    [.contradictory .lifecycle facts.workSubject .terminalDecisionMissing]
  | .closed, some (.cancelled _) | .cancelled, some (.closed _) =>
    [.contradictory .lifecycle facts.workSubject .terminalDecisionMismatch]
  | .draft, some _ | .open, some _ =>
    [.contradictory .lifecycle facts.workSubject .nonTerminalLifecycleHasTerminalDecision]

def lifecycleDiagnostics (input : LifecycleInput) : List DecisionDiagnostic :=
  reportIf (input.identity ≠ facts.subject)
    (.identityMismatch .lifecycle facts.workSubject facts.subject input.identity) ++
  facts.terminalDiagnostics input

def authorityDiagnostics (authority : ActorAuthorityInput) : List DecisionDiagnostic :=
  reportIf (authority.projectId ≠ facts.subject.projectId)
    (.crossProject .actorAuthority (facts.target (.actor authority.actorId)) authority.projectId)

/-- Before a result exists the requirements may still be without source and configuration. -/
def planningOnly (fact : FactKind) : Bool :=
  fact = .pinnedRequirements && facts.submission.asPresent.isNone &&
    facts.review.asPresent.isNone &&
    facts.execution.asPresent.all fun execution =>
      execution.phase = .claimed || execution.phase = .accepted

def ownershipOnly (fact : FactKind) : Bool :=
  fact = .execution && facts.execution.asPresent.any fun execution =>
    execution.phase = .claimed || execution.phase = .accepted

/-- A proof may precede a harmless edit of the entity, but not come from a later one. -/
def checkProofIdentity (fact : FactKind) (subject : FactSubject) (proof : ProofIdentity) :
    List DecisionDiagnostic :=
  reportIf (proof.entity.projectId ≠ facts.subject.projectId ∨
      proof.entity.workId ≠ facts.subject.workId ∨ facts.subject.revision < proof.entity.revision)
    (.identityMismatch fact subject facts.subject proof.entity) ++
  reportIf ((facts.planningOnly fact = false ∧ facts.ownershipOnly fact = false ∧
        proof.isBound = false) ∨ proof.proofRevision.value = 0 ∨
      proof.profile.profileId.value = "" ∨ proof.profile.version = "" ∨
      proof.profile.digest.value = "" ∨ proof.policyVersion = "")
    (.contradictory fact subject .malformedInput)

def resultSource (fact : FactKind) (proof : ProofIdentity) : Bool :=
  fact = .submission ||
    (fact = .review && facts.submission.asPresent.any (·.proof = proof))

def checkProofContext (fact : FactKind) (proof : ProofIdentity) : List DecisionDiagnostic :=
  match facts.requirements.asPresent with
  | none => []
  | some requirements =>
    reportIf (proof.proofRevision ≠ requirements.proof.proofRevision ∨
        proof.profile ≠ requirements.proof.profile ∨
        (requirements.proof.isBound = true ∧
          ((facts.resultSource fact proof = false ∧
            proof.sourceSnapshot ≠ requirements.proof.sourceSnapshot) ∨
            proof.configuration ≠ requirements.proof.configuration)))
      (.contradictory .pinnedRequirements facts.workSubject .proofRevisionMismatch)

def requirementDiagnostics (before : List PinnedRequirement) (requirement : PinnedRequirement) :
    List DecisionDiagnostic :=
  repeated PinnedRequirement.id (fun requirement => .duplicate .pinnedRequirements
    (facts.target .requirements) (.requirement requirement.id)) before requirement ++
  repeated PinnedRequirement.gateId (fun _ => .contradictory .pinnedRequirements
    facts.workSubject .reviewPolicyMismatch) before requirement

def requirementsDiagnostics (requirements : PinnedRequirementsInput) : List DecisionDiagnostic :=
  facts.checkProofIdentity .pinnedRequirements facts.workSubject requirements.proof ++
  scan facts.requirementDiagnostics [] requirements.requirements ++
  reportIf (requirements.requirements.any (fun requirement =>
        requirement.required && requirement.kind = .review) = true ∧
      requirements.reviewPolicy = .notRequired)
    (.contradictory .pinnedRequirements facts.workSubject .reviewPolicyMismatch)

/-- A waiver stands beside the outcome; it does not replace it. -/
def edgeDiagnostics (before : List DependencyOutcomeInput) (edge : DependencyOutcomeInput) :
    List DecisionDiagnostic :=
  let subject := facts.target .dependencies
  repeated DependencyOutcomeInput.id (fun edge =>
    .duplicate .dependencyOutcomes subject (.dependency edge.id)) before edge ++
  repeated (fun edge : DependencyOutcomeInput => (edge.predecessor.workId, edge.successor.workId))
    (fun edge => .duplicate .dependencyOutcomes subject (.dependency edge.id)) before edge ++
  reportIf (edge.successor ≠ facts.subject)
    (.identityMismatch .dependencyOutcomes subject facts.subject edge.successor) ++
  reportIf (edge.predecessor.projectId ≠ facts.subject.projectId)
    (.crossProject .dependencyOutcomes subject edge.predecessor.projectId) ++
  reportIf (edge.predecessor.workId = edge.successor.workId)
    (.contradictory .dependencyOutcomes subject .selfDependency) ++
  reportIf (edge.outcome = .waived ∧ edge.waiver = none)
    (.contradictory .dependencyOutcomes subject .waiverMissing) ++
  reportIf (edge.waiver.any (fun waiver =>
      waiver.decisionId.value = "" || waiver.edgeRevision ≠ edge.successor.revision) = true)
    (.contradictory .dependencyOutcomes subject .waiverMissing)

def holdDiagnostics (before : List HoldInput) (hold : HoldInput) : List DecisionDiagnostic :=
  let subject := facts.target .holds
  repeated HoldInput.id (fun hold => .duplicate .holds subject (.hold hold.id)) before hold ++
  reportIf (hold.scope.projectId ≠ facts.subject.projectId ∨
      hold.scope.workId ≠ facts.subject.workId)
    (.crossProject .holds subject hold.scope.projectId)

def executionDiagnostics (execution : ExecutionInput) : List DecisionDiagnostic :=
  let subject := facts.target (.attempt execution.attempt.attemptId)
  facts.checkProofIdentity .execution subject execution.proof ++
  reportIf (execution.proof.attempt ≠ some execution.attempt)
    (.contradictory .execution subject .attemptBindingMismatch) ++
  reportIf (execution.phase.isTerminal = true)
    (.contradictory .execution subject .currentExecutionIsTerminal) ++
  reportIf (execution.leaseDeadline < execution.claimedAt ∨
      execution.hardDeadline < execution.claimedAt)
    (.contradictory .execution subject .deadlineBeforeClaim) ++
  facts.checkProofContext .execution execution.proof

def submissionDiagnostics (submission : SubmissionInput) : List DecisionDiagnostic :=
  let subject := facts.target (.submission submission.id)
  facts.checkProofIdentity .submission subject submission.proof ++
  facts.checkProofContext .submission submission.proof ++
  reportIf (facts.execution.asPresent.any (fun execution =>
      submission.proof.attempt ≠ some execution.attempt) = true)
    (.contradictory .submission subject .attemptBindingMismatch)

def reviewDiagnostics (review : ReviewInput) : List DecisionDiagnostic :=
  let subject := facts.target (.review review.id)
  facts.checkProofIdentity .review subject review.proof ++
  facts.checkProofContext .review review.proof ++
  reportIf (review.reviewerId = review.attemptActorId ∨
      review.reviewerAuthorityRoot = review.attemptAuthorityRoot)
    (.contradictory .review subject .selfReview) ++
  reportIf (facts.submission.asPresent.any (fun submission =>
      review.submissionId ≠ submission.id || review.proof ≠ submission.proof) = true)
    (.contradictory .review subject .attemptBindingMismatch)

def recoveryDiagnostics (recovery : RecoveryInput) : List DecisionDiagnostic :=
  let subject := facts.target (.recovery recovery.id)
  reportIf (recovery.unresolved = false ∧ recovery.resource = .unknown)
    (.contradictory .recovery subject .recoveryDispositionMismatch) ++
  reportIf (facts.execution.asPresent.any (fun execution =>
      recovery.attempt ≠ execution.attempt) = true)
    (.contradictory .recovery subject .attemptBindingMismatch)

def integrityDiagnostics : List DecisionDiagnostic :=
  reportIf (facts.integrity.scope.projectId ≠ facts.subject.projectId ∨
      facts.integrity.scope.workId ≠ facts.subject.workId)
    (.crossProject .lifecycle facts.workSubject facts.integrity.scope.projectId) ++
  reportIf ((facts.integrity.level = .valid ∧ facts.integrity.diagnostics ≠ []) ∨
      (facts.integrity.level = .degraded ∧ facts.integrity.diagnostics = []))
    (.contradictory .lifecycle facts.workSubject .integrityLevelMismatch)

def actionDiagnostics : List DecisionDiagnostic :=
  facts.permittedActions.denied.flatMap fun denied =>
    reportIf (denied.action ∈ facts.permittedActions.allowed) (.actionConflict denied.action)

def structuralDiagnostics : List DecisionDiagnostic :=
  facts.lifecycle.asPresent.toList.flatMap facts.lifecycleDiagnostics ++
  facts.authority.asPresent.toList.flatMap facts.authorityDiagnostics ++
  facts.requirements.asPresent.toList.flatMap facts.requirementsDiagnostics ++
  facts.dependencies.asPresent.toList.flatMap (scan facts.edgeDiagnostics [] ·.edges) ++
  facts.holds.asPresent.toList.flatMap (scan facts.holdDiagnostics [] ·.holds) ++
  facts.execution.asPresent.toList.flatMap facts.executionDiagnostics ++
  facts.submission.asPresent.toList.flatMap facts.submissionDiagnostics ++
  facts.review.asPresent.toList.flatMap facts.reviewDiagnostics ++
  facts.recovery.asPresent.toList.flatMap facts.recoveryDiagnostics ++
  facts.integrityDiagnostics ++ facts.actionDiagnostics

def factDiagnostics : List FactDiagnostic :=
  [facts.lifecycle.diagnostic, facts.authority.diagnostic, facts.requirements.diagnostic,
    facts.dependencies.diagnostic, facts.holds.diagnostic, facts.execution.diagnostic,
    facts.submission.diagnostic, facts.review.diagnostic,
    facts.recovery.diagnostic].filterMap id

def diagnostics : List DecisionDiagnostic :=
  facts.factDiagnostics.map .fact ++ facts.integrity.diagnostics.map .integrity ++
    facts.structuralDiagnostics

/-- An allowed absence and a finding below quarantine are reported but do not block. -/
def isBlocking : DecisionDiagnostic → Bool
  | .fact (.absent item) => item.allowance = .required
  | .integrity _ => facts.integrity.level = .quarantined
  | _ => true

def validate : Except (List DecisionDiagnostic) Unit :=
  let blocking := facts.diagnostics.filter facts.isBlocking
  if blocking = [] then .ok () else .error blocking

end DecisionInputs

end Decision

end Boreal
