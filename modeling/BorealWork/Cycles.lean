/- Cycles: a time box with its assignments, and the rollup of one assignment snapshot. -/
import BorealWork.Rollups

namespace Boreal.WorkModel

inductive CycleLifecycle
  | planned
  | active
  | completed
  | cancelled
  deriving DecidableEq

def CycleLifecycle.isTerminal : CycleLifecycle → Bool
  | .completed | .cancelled => true
  | .planned | .active => false

structure Cycle where
  id : Rollups.CycleId
  projectId : ProjectId
  lifecycle : CycleLifecycle
  scheduledStartAt : Option TimestampMs
  scheduledEndAt : Option TimestampMs
  deriving DecidableEq

def Cycle.validate (cycle : Cycle) : Except ModelError Unit :=
  match cycle.scheduledStartAt, cycle.scheduledEndAt with
  | some start, some «end» =>
    if «end» ≤ start then .error (.invalidSchedule "cycle end must be after cycle start")
    else .ok ()
  | _, _ => .ok ()

inductive CycleAssignmentState
  | planned
  | committed
  | removed
  | completed
  | carriedOver
  deriving DecidableEq

def CycleAssignmentState.isLive : CycleAssignmentState → Bool
  | .planned | .committed => true
  | _ => false

structure CycleAssignment where
  id : String
  cycleId : Rollups.CycleId
  workId : WorkId
  projectId : ProjectId
  state : CycleAssignmentState
  deriving DecidableEq

end Boreal.WorkModel

namespace Boreal.Rollups
open Sorting WorkModel

structure AssignmentCounts where
  planned : ℕ
  committed : ℕ
  removed : ℕ
  completed : ℕ
  carriedOver : ℕ
  live : ℕ
  deriving DecidableEq

def AssignmentCounts.zero : AssignmentCounts := ⟨0, 0, 0, 0, 0, 0⟩

def AssignmentCounts.record (counts : AssignmentCounts) : CycleAssignmentState → AssignmentCounts
  | .planned => { counts with planned := counts.planned + 1, live := counts.live + 1 }
  | .committed => { counts with committed := counts.committed + 1, live := counts.live + 1 }
  | .removed => { counts with removed := counts.removed + 1 }
  | .completed => { counts with completed := counts.completed + 1 }
  | .carriedOver => { counts with carriedOver := counts.carriedOver + 1 }

structure CycleAssignmentRollupInput where
  assignment : CycleAssignment
  task : TaskRollupInput
  deriving DecidableEq

structure CycleRollupInput where
  scope : RollupScope
  cycle : Cycle
  assignments : List CycleAssignmentRollupInput
  gateGaps : List GateId
  overdue : Bool
  blockers : List RollupBlocker
  integrationCloseout : Option IntegrationCloseoutSpec
  deriving DecidableEq

inductive CycleRollupState
  | planned
  | active
  | readyToComplete
  | completed
  | cancelled
  | attention
  deriving DecidableEq

structure CycleRollup where
  scope : RollupScope
  state : CycleRollupState
  claimableForActor : Bool
  totals : RollupTotals
  quality : RollupQuality
  scopeReconciled : Bool
  assignmentCounts : AssignmentCounts
  gateReviewGaps : List GateId
  overdue : Bool
  blockers : List RollupBlocker
  diagnostics : List RollupDiagnostic
  descendants : List TaskRollup
  integrationCloseout : Option IntegrationCloseoutRollup
  deriving DecidableEq

/-- The facts that a cycle answers with attention. -/
def RollupDiagnostic.isCycleStructural : RollupDiagnostic → Bool
  | .wrongScopeSubject | .invalidCycle | .assignmentProjectMismatch _ | .assignmentCycleMismatch _
  | .assignmentWorkMismatch _ | .integrationCloseoutNotDirect _
  | .completedAssignmentNotAcceptedClosed _ | .cycleHasLiveAssignments => true
  | _ => false

section Cycle

variable (input : CycleRollupInput)

def cycleDiagnostics : List RollupDiagnostic :=
  (match input.scope.subject with
    | .cycle _ => []
    | _ => [.wrongScopeSubject]) ++
  (if input.cycle.projectId ≠ input.scope.projectId then
      [.assignmentProjectMismatch input.cycle.id.value]
    else []) ++
  (if input.scope.subject ≠ .cycle input.cycle.id then
      [.assignmentCycleMismatch input.cycle.id.value]
    else []) ++
  match input.cycle.validate with
    | .error _ => [.invalidCycle]
    | .ok () => []

def corruptTaskIf (violated : Bool) (code : String) (diagnostic : RollupDiagnostic)
    (taken : TaskRollupInput × List RollupDiagnostic) : TaskRollupInput × List RollupDiagnostic :=
  if violated then ({ taken.1 with integrity := .corrupt code }, taken.2 ++ [diagnostic]) else taken

/-- The checks run in this order, so the last one that fails names the code. -/
def admitAssignment (seen : Std.TreeSet String) (entry : CycleAssignmentRollupInput) :
    TaskRollupInput × List RollupDiagnostic :=
  let assignment := entry.assignment
  (entry.task, [])
    |> corruptTaskIf (seen.contains assignment.id) "duplicate_assignment"
      (.assignmentWorkMismatch assignment.id)
    |> corruptTaskIf (assignment.projectId ≠ input.scope.projectId) "assignment_foreign_project"
      (.assignmentProjectMismatch assignment.id)
    |> corruptTaskIf (assignment.cycleId ≠ input.cycle.id) "assignment_wrong_cycle"
      (.assignmentCycleMismatch assignment.id)
    |> corruptTaskIf (assignment.workId ≠ entry.task.identity.workId) "assignment_wrong_work"
      (.assignmentWorkMismatch assignment.id)

def admitAssignments (input : CycleRollupInput) :
    List (TaskRollupInput × List RollupDiagnostic) :=
  Lookup.admitAll (·.assignment.id) (admitAssignment input) ∅ input.assignments

def unacceptedAssignment (descendants : List TaskRollup) (state : CycleAssignmentState)
    (task : TaskRollupInput) : Bool :=
  state = .completed &&
    !(descendants.find? (·.workId = task.identity.workId)).any TaskRollup.acceptedClosed

def unacceptedAssignments (descendants : List TaskRollup) : List RollupDiagnostic :=
  ((input.assignments.map (·.assignment.state)).zip ((admitAssignments input).map Prod.fst)).filter
      (fun taken => unacceptedAssignment descendants taken.1 taken.2)
    |>.map fun taken => .completedAssignmentNotAcceptedClosed taken.2.identity.workId

def cycleQuality (unaccepted : List RollupDiagnostic) (liveAfterEnd : Bool)
    (diagnostics : List RollupDiagnostic) (quality : RollupQuality) : RollupQuality :=
  if unaccepted ≠ [] ∨ liveAfterEnd = true ∨
      diagnostics.any RollupDiagnostic.isCycleStructural = true then .corrupt
  else quality

def cycleState (lifecycle : CycleLifecycle) (quality : RollupQuality) (scopeReconciled : Bool)
    (live : ℕ) (gateReviewGaps : List GateId) (integrationBlocks : Bool)
    (blockers : List RollupBlocker) : CycleRollupState :=
  if quality = .corrupt ∨ blockers ≠ [] then .attention
  else match lifecycle with
    | .planned => .planned
    | .active =>
      if scopeReconciled = true ∧ live = 0 ∧ gateReviewGaps = [] ∧ integrationBlocks = false then
        .readyToComplete
      else .active
    | .completed =>
      if scopeReconciled = true ∧ gateReviewGaps = [] ∧ integrationBlocks = false then .completed
      else .attention
    | .cancelled => .cancelled

def evaluateCycleRollup : CycleRollup :=
  let admitted := admitAssignments input
  let assignmentCounts := (input.assignments.map (·.assignment.state)).foldl
    AssignmentCounts.record .zero
  let scope := evaluateDescendants input.scope.projectId (admitted.map Prod.fst) true
  let unaccepted := unacceptedAssignments input scope.descendants
  let liveAfterEnd := decide (input.cycle.lifecycle.isTerminal = true ∧ assignmentCounts.live ≠ 0)
  let gateReviewGaps := normalizedGates
    (normalizedGates input.gateGaps ++ scope.descendants.flatMap (·.gateGaps))
  let blockers := normalizedBlockers
    (normalizedBlockers input.blockers ++ scope.descendants.flatMap (·.blockers))
  let totals := scope.totals.addScope input.gateGaps input.blockers input.overdue
  let (integrationCloseout, closeoutDiagnostics) :=
    evaluateIntegrationCloseout input.integrationCloseout scope.descendants
  let diagnostics := cycleDiagnostics input ++ admitted.flatMap Prod.snd ++ scope.diagnostics ++
    unaccepted ++ (if liveAfterEnd then [.cycleHasLiveAssignments] else []) ++ closeoutDiagnostics
  let quality := cycleQuality unaccepted liveAfterEnd diagnostics scope.quality
  let scopeReconciled := decide (quality = .complete ∧ totals.unresolvedScope = 0 ∧
    totals.incompleteDescendants = 0 ∧ totals.corruptDescendants = 0)
  { scope := input.scope
    state := cycleState input.cycle.lifecycle quality scopeReconciled assignmentCounts.live
      gateReviewGaps (integrationCloseout.any IntegrationCloseoutRollup.blocksCloseout) blockers
    claimableForActor := false
    totals
    quality
    scopeReconciled
    assignmentCounts
    gateReviewGaps
    overdue := input.overdue || totals.overdueWork ≠ 0
    blockers
    diagnostics := sortOn RollupDiagnostic.key diagnostics
    descendants := scope.descendants
    integrationCloseout }

end Cycle

end Boreal.Rollups
