/- Status and actions as one decision: the status context is bound to the canonical facts before
either is evaluated. -/
import BorealWork.ActionSafety

namespace Boreal.DecisionApi
open Decision Status Actions Sorting Checks

inductive DecisionContextMismatch
  | subject
  | projectRevision
  | clock
  | lifecycle
  | actor
  | acceptanceProfile
  | gateRequirements
  | dependencies
  | execution
  | dispatchPolicy
  | timing
  deriving DecidableEq

structure DecisionActionView where
  status : StatusDecision
  actions : ActionDecision
  deriving DecidableEq

inductive DecisionApiError
  | missingFact (fact : FactKind)
  | invalidFacts (diagnostics : List DecisionDiagnostic)
  | contextMismatch (field : DecisionContextMismatch)
  deriving DecidableEq

/-- Equal up to order: both lists are sorted by gate id first. -/
def sameGates (left right : List GateRequirement) : Bool :=
  left.length = right.length &&
    sortOn GateRequirement.id left = sortOn GateRequirement.id right

/-- A retained terminal attempt is history and is left out of the comparison, but not one of other
work. -/
def sameCurrentAttempt (attempt : Option Attempt) (facts : DecisionInputs) (workId : WorkId) : Bool :=
  attempt.all (·.workId = workId) &&
    match attempt.filter (!·.phase.isTerminal), facts.execution.asPresent with
    | none, none => true
    | some attempt, some execution =>
      attempt.workId = workId && attempt.attemptId = execution.attempt.attemptId &&
        attempt.fence.value = execution.attempt.fence.value &&
        attempt.actorId = execution.actorId && attempt.sessionId = execution.sessionId &&
        attempt.phase = execution.phase && attempt.claimedAt = execution.claimedAt &&
        attempt.leaseDeadline = execution.leaseDeadline &&
        attempt.maxAttemptDeadline = execution.hardDeadline
    | _, _ => false

def declaredGates (requirements : PinnedRequirementsInput) : List GateRequirement :=
  requirements.requirements.map fun requirement =>
    ⟨requirement.gateId, requirement.kind, requirement.required, requirement.state⟩

def predecessorKey (edge : DependencyOutcomeInput) : ProjectId ×ₗ WorkId :=
  toLex (edge.predecessor.projectId, edge.predecessor.workId)

def prerequisiteKey (work : Status.WorkItem) : ProjectId ×ₗ WorkId :=
  toLex (work.projectId, work.id)

section Binding

variable (context : StatusContext) (facts : DecisionInputs)

def require (condition : Prop) [Decidable condition] (field : DecisionContextMismatch) :
    Except DecisionApiError Unit :=
  if condition then .ok () else .error (.contextMismatch field)

def presentFact {α : Type} (fact : Fact α) (kind : FactKind) : Except DecisionApiError α :=
  match fact.asPresent with
  | some value => .ok value
  | none => .error (.missingFact kind)

def validateDependencies : Except DecisionApiError Unit :=
  match facts.dependencies.asPresent with
  | some dependencies =>
    require (sortOn id (dependencies.edges.map predecessorKey) =
      sortOn id (context.prerequisites.map prerequisiteKey)) .dependencies
  | none => require (context.prerequisites = []) .dependencies

def validateContext : Except DecisionApiError Unit := do
  require (context.work.projectId = facts.subject.projectId ∧
    context.work.id = facts.subject.workId) .subject
  require (context.projectRevision = facts.snapshotRevision) .projectRevision
  require (context.asOf = facts.clock.evaluatedAt) .clock
  require (context.work.dispatchPolicy = facts.dispatchPolicy) .dispatchPolicy
  require (context.schedule = facts.clock.timing.schedule ∧
    context.activationAt = facts.clock.timing.cycleActivationAt ∧
    context.retryNotBefore = facts.clock.timing.retryNotBefore) .timing
  let lifecycle ← presentFact facts.lifecycle .lifecycle
  require (lifecycle.identity = facts.subject ∧ lifecycle.lifecycle = context.work.lifecycle) .lifecycle
  let authority ← presentFact facts.authority .actorAuthority
  require (authority.projectId = facts.subject.projectId ∧
    authority.actorId = context.actor.actorId ∧ authority.role = context.actor.role) .actor
  let requirements ← presentFact facts.requirements .pinnedRequirements
  require (requirements.proof.profile.profileId = context.work.acceptanceProfile.id ∧
    requirements.proof.profile.version = context.work.acceptanceProfile.version) .acceptanceProfile
  require (sameGates (declaredGates requirements) context.work.acceptanceProfile.gates = true ∧
    sameGates (declaredGates requirements) context.gates = true) .gateRequirements
  validateDependencies context facts
  require (sameCurrentAttempt context.currentAttempt facts facts.subject.workId = true) .execution

end Binding

def evaluateDecisionActions (context : StatusContext) (facts : DecisionInputs) :
    Except DecisionApiError DecisionActionView := do
  validateContext context facts
  let status := evaluateCanonicalStatus context facts
  let actions := evaluateActions ⟨facts, status.displayStatus, status.reasonCodes⟩
  return ⟨{ status with claimableForActor := actions.allows .claim }, actions⟩

end Boreal.DecisionApi
