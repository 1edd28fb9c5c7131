/- Revision-bound rollups: one task's facts judged, a scope's descendants folded into counters, and
the state of the container that holds them. -/
import BorealWork.WorkModel
import BorealWork.Library.Sorting

namespace Boreal

inductive DerivedStatus
  | draft
  | queued
  | ready
  | claimed
  | inProgress
  | needsVerification
  | awaitingReview
  | complete
  | closed
  | blocked
  | paused
  | retryWait
  | scheduled
  | expiredReview
  | cancelled
  deriving DecidableEq

namespace Rollups
open Sorting WorkModel

abbrev CycleId := TypedId "CycleId"

inductive RollupSubject
  | task (id : WorkId)
  | container (id : WorkId)
  | cycle (id : CycleId)
  deriving DecidableEq

def RollupSubject.isContainer : RollupSubject → Bool
  | .container _ => true
  | _ => false

structure RollupScope where
  projectId : ProjectId
  subject : RollupSubject
  revision : EntityRevision
  deriving DecidableEq

inductive RollupQuality
  | complete
  | incomplete
  | corrupt
  deriving DecidableEq

inductive DescendantIntegrity
  | valid
  | degraded (code : String)
  | corrupt (code : String)
  deriving DecidableEq

def DescendantIntegrity.quality : DescendantIntegrity → RollupQuality
  | .valid => .complete
  | .degraded _ => .incomplete
  | .corrupt _ => .corrupt

def DescendantIntegrity.isTrustworthy : DescendantIntegrity → Bool
  | .valid => true
  | _ => false

structure AcceptedOutcome where
  identity : EntityIdentity
  proofRevision : ProofRevision
  digest : ContentDigest
  deriving DecidableEq

inductive ScopeDisposition
  | acceptedClosed (entityRevision : EntityRevision) (outcomeDigest : ContentDigest)
  | acceptedCancelled (entityRevision : EntityRevision) (outcomeDigest : ContentDigest)
  | deferred (reason : String)
  | replaced (replacementId : WorkId) (reason : String)
  deriving DecidableEq

structure RollupBlocker where
  workId : WorkId
  code : String
  deriving DecidableEq

/-- The derived order compares the fields in declaration order. -/
def RollupBlocker.key (b : RollupBlocker) : WorkId ×ₗ String := toLex (b.workId, b.code)

inductive ReconciliationState
  | notRequired
  | unresolved
  | acceptedClosed
  | acceptedCancelled
  | deferred
  | replaced
  deriving DecidableEq

def ReconciliationState.isReconciled : ReconciliationState → Bool
  | .acceptedClosed | .acceptedCancelled | .deferred | .replaced => true
  | .notRequired | .unresolved => false

inductive RollupFactDiagnostic
  | containerClaimabilityIgnored
  | containerExecutionPresent
  | activeTerminal
  | lifecycleStatusMismatch
  | acceptedOutcomeWrongIdentity
  | acceptedOutcomeNotClosed
  | acceptedOutcomeMissingDigest
  | acceptedDispositionWithoutOutcome
  | acceptedDispositionBindingMismatch
  | cancelledDispositionNotCancelled
  | dispositionBindingMismatch
  | dispositionInvalid
  | dispositionMissing
  | degradedIntegrity
  | corruptIntegrity
  deriving DecidableEq

/-- The facts about a descendant that a container answers with attention. -/
def RollupFactDiagnostic.isStructural : RollupFactDiagnostic → Bool
  | .dispositionMissing | .degradedIntegrity => false
  | _ => true

inductive RollupDiagnostic
  | task (workId : WorkId) (code : RollupFactDiagnostic)
  | duplicateDescendant (workId : WorkId)
  | foreignProject (workId : WorkId)
  | wrongScopeSubject
  | invalidCycle
  | assignmentProjectMismatch (id : String)
  | assignmentCycleMismatch (id : String)
  | assignmentWorkMismatch (id : String)
  | completedAssignmentNotAcceptedClosed (workId : WorkId)
  | cycleHasLiveAssignments
  | integrationCloseoutMissing (workId : WorkId)
  | integrationCloseoutNotDirect (workId : WorkId)
  deriving DecidableEq

def RollupDiagnostic.subject : RollupDiagnostic → String
  | .task workId _ | .duplicateDescendant workId | .foreignProject workId
  | .completedAssignmentNotAcceptedClosed workId | .integrationCloseoutMissing workId
  | .integrationCloseoutNotDirect workId => workId.value
  | .assignmentProjectMismatch id | .assignmentCycleMismatch id | .assignmentWorkMismatch id => id
  | .wrongScopeSubject | .invalidCycle | .cycleHasLiveAssignments => ""

def RollupDiagnostic.rank : RollupDiagnostic → ℕ
  | .task _ code => code.ctorIdx
  | _ => 0

/-- The derived order compares the constructors' positions, then their fields. -/
def RollupDiagnostic.key (d : RollupDiagnostic) : ℕ ×ₗ String ×ₗ ℕ :=
  toLex (d.ctorIdx, toLex (d.subject, d.rank))

def RollupDiagnostic.isStructural : RollupDiagnostic → Bool
  | .duplicateDescendant _ | .foreignProject _ | .wrongScopeSubject
  | .integrationCloseoutNotDirect _ => true
  | .task _ code => code.isStructural
  | _ => false

structure TaskRollupInput where
  identity : EntityIdentity
  executionMode : ExecutionMode
  lifecycle : PersistedLifecycle
  status : DerivedStatus
  claimableForActor : Bool
  activeExecution : Bool
  acceptedOutcome : Option AcceptedOutcome
  disposition : Option ScopeDisposition
  requiresReconciliation : Bool
  gateGaps : List GateId
  overdue : Bool
  blockers : List RollupBlocker
  integrity : DescendantIntegrity
  deriving DecidableEq

structure TaskRollup where
  identity : EntityIdentity
  executionMode : ExecutionMode
  lifecycle : PersistedLifecycle
  status : DerivedStatus
  claimableForActor : Bool
  activeExecution : Bool
  acceptedClosed : Bool
  reconciliation : ReconciliationState
  gateGaps : List GateId
  overdue : Bool
  blockers : List RollupBlocker
  quality : RollupQuality
  diagnostics : List RollupDiagnostic
  deriving DecidableEq

def TaskRollup.workId (task : TaskRollup) : WorkId := task.identity.workId

def TaskRollup.isReconciled (task : TaskRollup) : Bool :=
  task.quality = .complete && task.reconciliation.isReconciled

def normalizedGates (gates : List GateId) : List GateId := sortDedup id gates

def normalizedBlockers (blockers : List RollupBlocker) : List RollupBlocker :=
  sortDedup RollupBlocker.key blockers

/-- The quality reached so far and the codes pushed so far. -/
structure Findings where
  quality : RollupQuality
  codes : List RollupFactDiagnostic
  deriving DecidableEq

def Findings.push (code : RollupFactDiagnostic) (f : Findings) : Findings :=
  ⟨f.quality, f.codes ++ [code]⟩

def Findings.corruptIf (violated : Prop) [Decidable violated] (code : RollupFactDiagnostic)
    (f : Findings) : Findings :=
  if violated then ⟨.corrupt, f.codes ++ [code]⟩ else f

section Task

variable (input : TaskRollupInput)

def integrityFindings : Findings :=
  match input.integrity with
  | .valid => ⟨.complete, []⟩
  | .degraded _ => ⟨.incomplete, [.degradedIntegrity]⟩
  | .corrupt _ => ⟨.corrupt, [.corruptIntegrity]⟩

/-- The lifecycle and the derived status disagree on whether, and how, the task ended. -/
def LifecycleStatusMismatch : Prop :=
  (input.lifecycle = .closed ∧ input.status ≠ .closed) ∨
    (input.lifecycle = .cancelled ∧ input.status ≠ .cancelled) ∨
    (input.lifecycle.isTerminal = false ∧ (input.status = .closed ∨ input.status = .cancelled))

instance : Decidable (LifecycleStatusMismatch input) :=
  inferInstanceAs (Decidable (_ ∨ _ ∨ _))

def executionFindings (f : Findings) : Findings := f
  |>.corruptIf (input.executionMode = .container ∧ input.claimableForActor = true)
    .containerClaimabilityIgnored
  |>.corruptIf (input.executionMode = .container ∧ input.activeExecution = true)
    .containerExecutionPresent
  |>.corruptIf (input.lifecycle.isTerminal = true ∧ input.activeExecution = true) .activeTerminal
  |>.corruptIf (LifecycleStatusMismatch input) .lifecycleStatusMismatch

def outcomeFindings (f : Findings) : Findings × Bool :=
  match input.acceptedOutcome with
  | none => (f, false)
  | some outcome =>
    if outcome.identity ≠ input.identity then
      (⟨.corrupt, f.codes ++ [.acceptedOutcomeWrongIdentity]⟩, false)
    else if input.lifecycle ≠ .closed then
      (⟨.corrupt, f.codes ++ [.acceptedOutcomeNotClosed]⟩, false)
    else if isBlank outcome.digest.value then
      (⟨.corrupt, f.codes ++ [.acceptedOutcomeMissingDigest]⟩, false)
    else (f, input.integrity.isTrustworthy)

def outcomeMatches (entityRevision : EntityRevision) (outcomeDigest : ContentDigest) : Bool :=
  input.acceptedOutcome.any fun outcome =>
    outcome.identity.revision = entityRevision && outcome.digest = outcomeDigest

def dispositionFindings (requiresReconciliation : Bool) (f : Findings) :
    Findings × ReconciliationState :=
  match input.disposition with
  | none =>
    if requiresReconciliation then
      (Findings.push .dispositionMissing
        ⟨if f.quality = .complete then .incomplete else f.quality, f.codes⟩, .unresolved)
    else (f, .notRequired)
  | some (.acceptedClosed entityRevision outcomeDigest) =>
    (f.corruptIf (outcomeMatches input entityRevision outcomeDigest = false)
      (if input.acceptedOutcome = none then .acceptedDispositionWithoutOutcome
        else .acceptedDispositionBindingMismatch), .acceptedClosed)
  | some (.acceptedCancelled entityRevision outcomeDigest) =>
    (f
      |>.corruptIf (input.lifecycle ≠ .cancelled) .cancelledDispositionNotCancelled
      |>.corruptIf (entityRevision ≠ input.identity.revision ∨ isBlank outcomeDigest.value = true)
        .dispositionBindingMismatch, .acceptedCancelled)
  | some (.deferred reason) =>
    (f.corruptIf (isBlank reason = true) .dispositionInvalid, .deferred)
  | some (.replaced replacementId reason) =>
    (f.corruptIf (replacementId = input.identity.workId ∨ isBlank reason = true)
      .dispositionInvalid, .replaced)

def evaluateTask (requiresReconciliation : Bool) : TaskRollup :=
  let (outcome, accepted) := outcomeFindings input (executionFindings input (integrityFindings input))
  let (findings, reconciliation) := dispositionFindings input requiresReconciliation outcome
  let gateGaps := normalizedGates (normalizedGates input.gateGaps)
  let blockers := normalizedBlockers (normalizedBlockers input.blockers)
  { identity := input.identity
    executionMode := input.executionMode
    lifecycle := input.lifecycle
    status := input.status
    claimableForActor := input.executionMode = .direct && input.claimableForActor &&
      input.lifecycle = .open && input.status = .ready && !input.activeExecution &&
      gateGaps = [] && blockers = [] && input.acceptedOutcome = none && input.disposition = none &&
      findings.quality = .complete
    activeExecution := input.activeExecution
    acceptedClosed := accepted && findings.quality ≠ .corrupt
    reconciliation
    gateGaps
    overdue := input.overdue
    blockers
    quality := findings.quality
    diagnostics := sortOn RollupDiagnostic.key
      (findings.codes.map (.task input.identity.workId)) }

def evaluateTaskRollup : TaskRollup := evaluateTask input input.requiresReconciliation

end Task

structure RollupTotals where
  total : ℕ
  acceptedClosed : ℕ
  acceptedCancelled : ℕ
  reconciledScope : ℕ
  deferred : ℕ
  replaced : ℕ
  unresolvedScope : ℕ
  activeWork : ℕ
  gateReviewGaps : ℕ
  gateReviewGapTasks : ℕ
  overdueWork : ℕ
  blockers : ℕ
  blockedWork : ℕ
  incompleteDescendants : ℕ
  corruptDescendants : ℕ
  deriving DecidableEq

def RollupTotals.zero : RollupTotals := ⟨0, 0, 0, 0, 0, 0, 0, 0, 0, 0, 0, 0, 0, 0, 0⟩

namespace RollupTotals

def record (totals : RollupTotals) (task : TaskRollup) : RollupTotals where
  total := totals.total + 1
  acceptedClosed := totals.acceptedClosed +
    (decide (task.acceptedClosed = true ∧ task.quality ≠ .corrupt)).toNat
  acceptedCancelled := totals.acceptedCancelled +
    (decide (task.quality = .complete ∧ task.reconciliation = .acceptedCancelled)).toNat
  reconciledScope := totals.reconciledScope + task.isReconciled.toNat
  deferred := totals.deferred +
    (decide (task.quality = .complete ∧ task.reconciliation = .deferred)).toNat
  replaced := totals.replaced +
    (decide (task.quality = .complete ∧ task.reconciliation = .replaced)).toNat
  unresolvedScope := totals.unresolvedScope +
    (decide (task.isReconciled = false ∧ task.reconciliation = .unresolved)).toNat
  activeWork := totals.activeWork + task.activeExecution.toNat
  gateReviewGaps := totals.gateReviewGaps + task.gateGaps.length
  gateReviewGapTasks := totals.gateReviewGapTasks + (decide (task.gateGaps ≠ [])).toNat
  overdueWork := totals.overdueWork + task.overdue.toNat
  blockers := totals.blockers + task.blockers.length
  blockedWork := totals.blockedWork + (decide (task.blockers ≠ [])).toNat
  incompleteDescendants := totals.incompleteDescendants +
    (decide (task.quality = .incomplete)).toNat
  corruptDescendants := totals.corruptDescendants + (decide (task.quality = .corrupt)).toNat

/-- A percentage is cut to a byte. -/
def acceptedPercentage (totals : RollupTotals) : Option ℕ :=
  if totals.total = 0 ∨ totals.incompleteDescendants ≠ 0 ∨ totals.corruptDescendants ≠ 0 then none
  else some (totals.acceptedClosed * 100 / totals.total % 2 ^ 8)

def reconciledPercentage (totals : RollupTotals) : Option ℕ :=
  if totals.total = 0 ∨ totals.incompleteDescendants ≠ 0 ∨ totals.corruptDescendants ≠ 0 then none
  else some (totals.reconciledScope * 100 / totals.total % 2 ^ 8)

def isFullyAccepted (totals : RollupTotals) : Bool :=
  totals.total > 0 && totals.acceptedClosed = totals.total &&
    totals.incompleteDescendants = 0 && totals.corruptDescendants = 0

def addScope (totals : RollupTotals) (gateGaps : List GateId) (blockers : List RollupBlocker)
    (overdue : Bool) : RollupTotals :=
  { totals with
    gateReviewGaps := totals.gateReviewGaps + (normalizedGates gateGaps).length
    gateReviewGapTasks := totals.gateReviewGapTasks + (decide (gateGaps ≠ [])).toNat
    blockers := totals.blockers + (normalizedBlockers blockers).length
    blockedWork := totals.blockedWork + (decide (blockers ≠ [])).toNat
    overdueWork := totals.overdueWork + overdue.toNat }

end RollupTotals

def admitDescendant (projectId : ProjectId) (seen : Std.TreeSet WorkId) (input : TaskRollupInput) :
    TaskRollupInput × List RollupDiagnostic :=
  let foreign := decide (input.identity.projectId ≠ projectId)
  let duplicate := seen.contains input.identity.workId
  let taken := if foreign then { input with integrity := .corrupt "foreign_project" } else input
  (if duplicate then { taken with integrity := .corrupt "duplicate_descendant" } else taken,
    (if foreign then [.foreignProject input.identity.workId] else []) ++
      if duplicate then [.duplicateDescendant input.identity.workId] else [])

def admitDescendants (projectId : ProjectId) :
    Std.TreeSet WorkId → List TaskRollupInput → List (TaskRollupInput × List RollupDiagnostic)
  | _, [] => []
  | seen, input :: rest => admitDescendant projectId seen input ::
      admitDescendants projectId (seen.insert input.identity.workId) rest

structure DescendantsRollup where
  descendants : List TaskRollup
  totals : RollupTotals
  diagnostics : List RollupDiagnostic
  quality : RollupQuality
  deriving DecidableEq

def evaluateDescendants (projectId : ProjectId) (inputs : List TaskRollupInput)
    (requiresReconciliation : Bool) : DescendantsRollup :=
  let admitted := admitDescendants projectId ∅ inputs
  let descendants := sortOn TaskRollup.workId
    (admitted.map fun a => evaluateTask a.1 requiresReconciliation)
  let totals := descendants.foldl RollupTotals.record .zero
  { descendants
    totals
    diagnostics := sortOn RollupDiagnostic.key
      (admitted.flatMap Prod.snd ++ descendants.flatMap (·.diagnostics))
    quality :=
      if totals.corruptDescendants ≠ 0 then .corrupt
      else if totals.incompleteDescendants ≠ 0 then .incomplete
      else .complete }

structure IntegrationCloseoutSpec where
  workId : WorkId
  required : Bool
  deriving DecidableEq

inductive IntegrationCloseoutState
  | missing
  | pending
  | accepted
  | reconciled
  | corrupt
  deriving DecidableEq

structure IntegrationCloseoutRollup where
  workId : WorkId
  required : Bool
  state : IntegrationCloseoutState
  deriving DecidableEq

def IntegrationCloseoutRollup.blocksCloseout (closeout : IntegrationCloseoutRollup) : Bool :=
  closeout.required && closeout.state ≠ .accepted

def integrationCloseoutState (spec : IntegrationCloseoutSpec) :
    List TaskRollup → IntegrationCloseoutState × List RollupDiagnostic
  | [] => (.missing, if spec.required then [.integrationCloseoutMissing spec.workId] else [])
  | [task] =>
    if task.executionMode ≠ .direct then
      (.corrupt, [.integrationCloseoutNotDirect spec.workId])
    else if task.quality = .corrupt then (.corrupt, [])
    else if task.acceptedClosed then (.accepted, [])
    else if task.isReconciled then (.reconciled, [])
    else (.pending, [])
  | _ => (.corrupt, [])

def evaluateIntegrationCloseout (spec : Option IntegrationCloseoutSpec)
    (descendants : List TaskRollup) : Option IntegrationCloseoutRollup × List RollupDiagnostic :=
  match spec with
  | none => (none, [])
  | some spec =>
    let (state, diagnostics) :=
      integrationCloseoutState spec (descendants.filter (·.workId = spec.workId))
    (some ⟨spec.workId, spec.required, state⟩, diagnostics)

structure ContainerRollupInput where
  scope : RollupScope
  lifecycle : PersistedLifecycle
  descendants : List TaskRollupInput
  gateGaps : List GateId
  overdue : Bool
  blockers : List RollupBlocker
  summaryPresent : Bool
  integrationCloseout : Option IntegrationCloseoutSpec
  deriving DecidableEq

inductive ContainerRollupState
  | planning
  | closing
  | readyToClose
  | closed
  | cancelled
  | attention
  deriving DecidableEq

structure ContainerRollup where
  scope : RollupScope
  state : ContainerRollupState
  claimableForActor : Bool
  totals : RollupTotals
  quality : RollupQuality
  gateReviewGaps : List GateId
  overdue : Bool
  blockers : List RollupBlocker
  diagnostics : List RollupDiagnostic
  descendants : List TaskRollup
  integrationCloseout : Option IntegrationCloseoutRollup
  deriving DecidableEq

def containerState (lifecycle : PersistedLifecycle) (structuralAttention integrationBlocks
    summaryPresent : Bool) (gateReviewGaps : List GateId) (blockers : List RollupBlocker)
    (totals : RollupTotals) : ContainerRollupState :=
  if structuralAttention = true ∨ blockers ≠ [] then .attention
  else match lifecycle with
    | .draft => .planning
    | .cancelled => .cancelled
    | .closed =>
      if integrationBlocks = true ∨ summaryPresent = false ∨ gateReviewGaps ≠ [] ∨
          totals.unresolvedScope ≠ 0 ∨ totals.incompleteDescendants ≠ 0 then .attention
      else .closed
    | .open =>
      if integrationBlocks = true ∨ summaryPresent = false ∨ gateReviewGaps ≠ [] ∨
          totals.unresolvedScope ≠ 0 ∨ totals.incompleteDescendants ≠ 0 ∨
          totals.activeWork ≠ 0 then .closing
      else .readyToClose

def evaluateContainerRollup (input : ContainerRollupInput) : ContainerRollup :=
  let scope := evaluateDescendants input.scope.projectId input.descendants true
  let gateReviewGaps := normalizedGates
    (normalizedGates input.gateGaps ++ scope.descendants.flatMap (·.gateGaps))
  let blockers := normalizedBlockers
    (normalizedBlockers input.blockers ++ scope.descendants.flatMap (·.blockers))
  let totals := scope.totals.addScope input.gateGaps input.blockers input.overdue
  let (integrationCloseout, closeoutDiagnostics) :=
    evaluateIntegrationCloseout input.integrationCloseout scope.descendants
  let diagnostics :=
    (if input.scope.subject.isContainer then [] else [.wrongScopeSubject]) ++
      scope.diagnostics ++ closeoutDiagnostics
  let structuralAttention := diagnostics.any RollupDiagnostic.isStructural
  { scope := input.scope
    state := containerState input.lifecycle structuralAttention
      (integrationCloseout.any IntegrationCloseoutRollup.blocksCloseout) input.summaryPresent
      gateReviewGaps blockers totals
    claimableForActor := false
    totals
    quality := if structuralAttention = true ∨ scope.quality = .corrupt then .corrupt
      else scope.quality
    gateReviewGaps
    overdue := input.overdue || totals.overdueWork ≠ 0
    blockers
    diagnostics := sortOn RollupDiagnostic.key diagnostics
    descendants := scope.descendants
    integrationCloseout }

end Rollups

end Boreal
