/- Cycles with all their fields, and the checks of an assignment list against the cycles and the work:
each assignment by itself, its links to the one before and after, and the chains the links form. -/
import BorealWork.Cycles
import BorealWork.Library.Orders

namespace Boreal.Planning
open Drain WorkModel

inductive PlanningModelError
  | model (error : ModelError)
  | invalidIdentifier (kind value : String)
  | missingCycle (id : Rollups.CycleId)
  | illegalCycleTransition
  | assignmentProjectMismatch (id : String)
  | assignmentRequiresDirectTask (id : WorkId)
  | terminalCycleHasLiveAssignment (id : Rollups.CycleId)
  | invalidActivation (id : String)
  | multipleLiveAssignments (id : WorkId)
  | assignmentLineageCycle (id : String)
  | assignmentLineageInvalid (id : String)
  | illegalIntakeTransition
  | deferredWithoutRevisit
  | promotionSubjectMismatch
  | promotionSourceChanged
  | containerRequired (id : WorkId)
  | invalidDispositionSubject (id : TypedId "CloseoutDispositionId")
  | duplicateCurrentDisposition (id : WorkId)
  | invalidDispositionShape
  deriving DecidableEq

structure Cycle extends WorkModel.Cycle where
  name : String
  goal : String
  actualStartedAt : Option TimestampMs
  actualEndedAt : Option TimestampMs
  deriving DecidableEq

def Cycle.start (cycle : Cycle) (instant : TimestampMs) : Except PlanningModelError Cycle := do
  refuse (cycle.lifecycle ≠ .planned) .illegalCycleTransition
  return { cycle with lifecycle := .active, actualStartedAt := some instant }

inductive ActivationPolicy
  | atCycleStart
  | immediate
  | explicitNotBefore
  deriving DecidableEq

structure CycleAssignment extends WorkModel.CycleAssignment where
  activationPolicy : ActivationPolicy
  activationAt : Option TimestampMs
  predecessorId : Option String
  successorId : Option String
  deriving DecidableEq

abbrev CycleIndex := Std.TreeMap Rollups.CycleId Cycle
abbrev AssignmentIndex := Std.TreeMap String CycleAssignment

structure AssignmentPass where
  ids : Std.TreeSet String
  liveByWork : Std.TreeSet WorkId

def AssignmentPass.add (pass : AssignmentPass) (assignment : CycleAssignment) : AssignmentPass where
  ids := pass.ids.insert assignment.id
  liveByWork := if assignment.state.isLive then pass.liveByWork.insert assignment.workId
    else pass.liveByWork

section Checks

variable (cycles : CycleIndex) (nodes : WorkIndex)

def checkAssignment (pass : AssignmentPass) (assignment : CycleAssignment) :
    Except PlanningModelError AssignmentPass := do
  refuse (assignment.id ∈ pass.ids) (.model (.duplicateIdentifier assignment.id))
  match cycles[assignment.cycleId]? with
  | none => .error (.missingCycle assignment.cycleId)
  | some cycle => match nodes[assignment.workId]? with
    | none => .error (.model (.missingWork assignment.workId))
    | some work =>
      refuse (assignment.projectId ≠ cycle.projectId ∨ assignment.projectId ≠ work.projectId)
        (.assignmentProjectMismatch assignment.id)
      refuse (work.isDirect = false) (.assignmentRequiresDirectTask assignment.workId)
      refuse (cycle.lifecycle.isTerminal = true ∧ assignment.state.isLive = true)
        (.terminalCycleHasLiveAssignment assignment.cycleId)
      refuse (assignment.activationPolicy = .explicitNotBefore ∧ assignment.activationAt = none)
        (.invalidActivation assignment.id)
      refuse (assignment.state.isLive = true ∧ assignment.workId ∈ pass.liveByWork)
        (.multipleLiveAssignments assignment.workId)
      refuse (assignment.predecessorId = some assignment.id ∨ assignment.successorId = some assignment.id)
        (.assignmentLineageCycle assignment.id)
      return pass.add assignment

def checkLineage (byId : AssignmentIndex) (assignment : CycleAssignment) :
    Except PlanningModelError Unit := do
  refuse (assignment.state = .carriedOver ∧ assignment.successorId = none)
    (.assignmentLineageInvalid assignment.id)
  refuse (assignment.state ≠ .carriedOver ∧ assignment.successorId ≠ none)
    (.assignmentLineageInvalid assignment.id)
  assignment.predecessorId.forM fun predecessorId => match byId[predecessorId]? with
    | none => .error (.assignmentLineageInvalid assignment.id)
    | some predecessor => refuse (predecessor.successorId ≠ some assignment.id ∨
        predecessor.state ≠ .carriedOver ∨ predecessor.workId ≠ assignment.workId ∨
        predecessor.projectId ≠ assignment.projectId ∨ predecessor.cycleId = assignment.cycleId)
      (.assignmentLineageInvalid assignment.id)
  assignment.successorId.forM fun successorId => match byId[successorId]? with
    | none => .error (.assignmentLineageInvalid assignment.id)
    | some successor => refuse (successor.predecessorId ≠ some assignment.id ∨
        successor.workId ≠ assignment.workId ∨ successor.projectId ≠ assignment.projectId ∨
        successor.cycleId = assignment.cycleId)
      (.assignmentLineageInvalid assignment.id)

structure LineageWalk where
  path : List String
  current : Option String

def lineageStep (byId : AssignmentIndex) (traversed : List String) (walk : LineageWalk) :
    Option LineageWalk :=
  match walk.current with
  | none => none
  | some id =>
    if id ∈ traversed ∨ id ∈ walk.path then none
    else some ⟨id :: walk.path, byId[id]?.bind (·.successorId)⟩

/-- A walk ends behind the last successor, on a chain walked before, or where it has been itself. -/
def checkChain (byId : AssignmentIndex) (fuel : ℕ) (traversed : List String)
    (assignment : CycleAssignment) : Except PlanningModelError (List String) := do
  let walk := drain (lineageStep byId traversed) fuel ⟨[], some assignment.id⟩
  walk.current.forM fun id => refuse (id ∉ traversed) (.assignmentLineageCycle assignment.id)
  return walk.path ++ traversed

def validateCycleAssignments (cycles : List Cycle) (nodes : List WorkNode)
    (assignments : List CycleAssignment) : Except PlanningModelError Unit := do
  (validateDecomposition nodes).mapError .model
  let _ ← assignments.foldlM
    (checkAssignment (cycles.foldl (Lookup.indexBy (·.id)) ∅)
      (nodes.foldl (Lookup.indexBy WorkNode.id) ∅)) ⟨∅, ∅⟩
  let byId := assignments.foldl (Lookup.indexBy (·.id)) (∅ : AssignmentIndex)
  assignments.forM (checkLineage byId)
  let _ ← assignments.foldlM (checkChain byId (assignments.length + 1)) []
  return ()

end Checks

section Chains

variable {byId : AssignmentIndex} {traversed : List String} {assignments : List CycleAssignment}

def nextOf (byId : AssignmentIndex) (id : String) : Option String := byId[id]?.bind (·.successorId)

def LineageWalk.at (climb : Orders.Climb String) : LineageWalk := ⟨climb.path, climb.current⟩

theorem lineageStep_eq_climbStep (climb : Orders.Climb String) :
    lineageStep byId traversed (.at climb) =
      (Orders.climbStep (nextOf byId) traversed climb).map LineageWalk.at := by
  obtain ⟨path, current⟩ := climb
  cases current with
  | none => rfl
  | some id =>
    by_cases seen : id ∈ traversed ∨ id ∈ path
    · have climbed : Orders.climbStep (nextOf byId) traversed ⟨path, some id⟩ = none := if_pos seen
      rw [climbed]
      exact if_pos seen
    · have climbed : Orders.climbStep (nextOf byId) traversed ⟨path, some id⟩ =
          some ⟨id :: path, nextOf byId id⟩ := if_neg seen
      rw [climbed]
      exact if_neg seen

theorem lineageWalk_eq_climb (fuel : ℕ) (id : String) :
    drain (lineageStep byId traversed) fuel ⟨[], some id⟩ =
      .at (Orders.climb (nextOf byId) traversed fuel id) :=
  Orders.drain_climb lineageStep_eq_climbStep fuel ⟨[], some id⟩

theorem nextOf_leads (id : String)
    (onward : nextOf (assignments.foldl (Lookup.indexBy (·.id)) ∅) id ≠ none) :
    id ∈ assignments.map (·.id) := by
  by_contra absent
  apply onward
  rw [nextOf, Lookup.getElem?_foldl_indexBy_last]
  have missing : assignments.reverse.find? (fun a => decide (a.id = id)) = none := by
    rw [List.find?_eq_none]
    intro a member same
    exact absent (List.mem_map.mpr ⟨a, List.mem_reverse.mp member, of_decide_eq_true same⟩)
  rw [missing, Option.none_or]
  rfl

theorem climb_assignments_stopped (id : String) :
    Orders.climbStep (nextOf (assignments.foldl (Lookup.indexBy (·.id)) ∅)) traversed
      (Orders.climb (nextOf (assignments.foldl (Lookup.indexBy (·.id)) ∅)) traversed
        (assignments.length + 1) id) = none := by
  apply Orders.climb_stopped nextOf_leads
  rw [List.length_map]

theorem lineageWalk_stopped (id : String) :
    lineageStep (assignments.foldl (Lookup.indexBy (·.id)) ∅) traversed
      (drain (lineageStep (assignments.foldl (Lookup.indexBy (·.id)) ∅) traversed)
        (assignments.length + 1) ⟨[], some id⟩) = none := by
  rw [lineageWalk_eq_climb, lineageStep_eq_climbStep, climb_assignments_stopped]
  rfl

end Chains

end Boreal.Planning
