/- What a close does to an open wait by itself, and what the planner asks for before it closes one. -/
import BorealWork.HierarchyPlanning
import BorealWork.WaitClosing

namespace Boreal.Planning
open Drain WorkModel
open Store (Matches close_eq_ok validate_close)

structure ExternalWaitResolutionRequest where
  scope : PlanningScope
  operationId : String
  waitId : ExternalWaitId
  expectedWaitRevision : ℕ
  nextState : ExternalWaitState
  resolution : ExternalWaitResolution
  deriving DecidableEq

/-- The part of the planner between the read of the wait and the digest of the request. -/
def ExternalWaitResolutionRequest.close (request : ExternalWaitResolutionRequest)
    (nodes : List WorkNode) (dependencies : List DirectDependency) (current : ExternalWait) :
    Except PlanningError ExternalWait := do
  refuse (current.revision ≠ request.expectedWaitRevision)
    (.revisionConflict request.expectedWaitRevision current.revision)
  refuse (current.state ≠ .opened)
    (.invalid "only an open external wait can be resolved or cancelled")
  refuse (request.resolution.recordedBy ≠ request.scope.actorId)
    (.invalid "resolution must be attributed to the current project actor")
  refuse (request.resolution.recordedAs ≠ .operator)
    (.invalid "external waits may be resolved or cancelled only by an Operator")
  refuse (request.nextState ≠ .resolved ∧ request.nextState ≠ .cancelled)
    (.invalid "wait transition must resolve or explicitly cancel the obligation")
  refuse (¬ (request.nextState = .cancelled ↔ request.resolution.outcome = .cancelled))
    (.invalid "wait state and resolution outcome disagree")
  request.resolution.validate.mapError fun error => .domain (.model error)
  let next ← (current.close request.nextState request.resolution).mapError
    fun error => .domain (.model error)
  (next.validate nodes dependencies).mapError fun error => .domain (.model error)
  return next

section Closing

variable {nodes : List WorkNode} {dependencies : List DirectDependency} {wait closed : ExternalWait}
  {state : ExternalWaitState} {resolution : ExternalWaitResolution}

structure ReadsClosed (nodes : List WorkNode) (dependencies : List DirectDependency)
    (wait : ExternalWait) : Prop where
  valid : wait.validate nodes dependencies = .ok ()
  notOpen : wait.state ≠ .opened
  outcome : ∃ resolution, wait.resolution = some resolution ∧ Matches wait.state resolution.outcome

theorem resolved_of_validateState (resolved : wait.resolution = some resolution)
    (valid : wait.validateState = .ok ()) :
    Matches wait.state resolution.outcome ∧ resolution.validate = .ok () := by
  simp only [ExternalWait.validateState, resolved] at valid
  split at valid
  · rename_i none
    cases none
  · cases valid
  · rename_i state same
    cases same
    split_ifs at valid with outcome
    exact ⟨.inl ⟨state, outcome⟩, valid⟩
  · rename_i state same
    cases same
    split_ifs at valid with outcome
    exact ⟨.inr ⟨state, outcome⟩, valid⟩
  · rename_i none
    cases none
  · rename_i none
    cases none

theorem readsClosed_close_iff (valid : wait.validate nodes dependencies = .ok ())
    (closes : wait.close state resolution = .ok closed) :
    ReadsClosed nodes dependencies closed ↔
      Matches state resolution.outcome ∧ resolution.validate = .ok () := by
  obtain ⟨-, -, same⟩ := close_eq_ok closes
  constructor
  · rintro ⟨valid', -, -⟩
    obtain ⟨-, -, -, stated⟩ := ExternalWait.validate_eq_ok.mp valid'
    have resolved : closed.resolution = some resolution := by rw [same]
    obtain ⟨suits, resolves⟩ := resolved_of_validateState resolved stated
    rw [same] at suits
    exact ⟨suits, resolves⟩
  · rintro ⟨suits, resolves⟩
    refine ⟨validate_close closes suits resolves valid, ?_, resolution, ?_, ?_⟩
    · rw [same]
      rintro rfl
      rcases suits with ⟨other, -⟩ | ⟨other, -⟩
      · cases other
      · cases other
    · rw [same]
    · rw [same]
      exact suits

theorem planned_readsClosed {request : ExternalWaitResolutionRequest}
    (valid : wait.validate nodes dependencies = .ok ())
    (planned : request.close nodes dependencies wait = .ok closed) :
    wait.close request.nextState request.resolution = .ok closed ∧
      ReadsClosed nodes dependencies closed := by
  rw [ExternalWaitResolutionRequest.close] at planned
  simp only [check_eq_ok, refuse_eq_ok, not_not] at planned
  obtain ⟨-, -, -, -, target, agree, resolves, planned⟩ := planned
  obtain ⟨next, closes, planned⟩ := bind_eq_ok.mp planned
  obtain ⟨-, answer⟩ := check_eq_ok.mp planned
  obtain rfl := Except.ok.inj answer
  have closes := mapError_eq_ok.mp closes
  refine ⟨closes, (readsClosed_close_iff valid closes).mpr ⟨?_, mapError_eq_ok.mp resolves⟩⟩
  rw [not_and_or, not_not, not_not] at target
  rcases target with resolved | cancelled
  · refine .inl ⟨resolved, fun outcome => ?_⟩
    cases resolved.symm.trans (agree.mpr outcome)
  · exact .inr ⟨cancelled, agree.mp cancelled⟩

/-- A close of an open valid wait: it fails only at the last revision, it changes the state, the
revision and the resolution alone, and it leaves a wait that reads back as closed exactly when the
request agrees with itself, as every request of the planner does. -/
theorem close_settles_iff (valid : wait.validate nodes dependencies = .ok ())
    (opened : wait.state = .opened) (state : ExternalWaitState) (resolution : ExternalWaitResolution) :
    (wait.close state resolution = .error (.invalidExternalWait "wait revision overflow") ∧
        2 ^ 64 ≤ wait.revision + 1 ∨
      ∃ closed, wait.close state resolution = .ok closed ∧
        closed = { wait with
          revision := wait.revision + 1
          state := state
          resolution := some resolution } ∧
        (ReadsClosed nodes dependencies closed ↔
          Matches state resolution.outcome ∧ resolution.validate = .ok ())) ∧
    ∀ request closed, ExternalWaitResolutionRequest.close request nodes dependencies wait = .ok closed →
      wait.close request.nextState request.resolution = .ok closed ∧
        ReadsClosed nodes dependencies closed := by
  refine ⟨?_, fun _ _ planned => planned_readsClosed valid planned⟩
  cases closes : wait.close state resolution with
  | error error =>
    left
    rw [ExternalWait.close, refuse_of_not (not_not.mpr opened), ok_bind] at closes
    by_cases last : 2 ^ 64 ≤ wait.revision + 1
    · rw [refuse, if_pos last] at closes
      exact ⟨closes.symm, last⟩
    · rw [refuse_of_not last] at closes
      cases closes
  | ok closed =>
    right
    exact ⟨closed, rfl, (close_eq_ok closes).2.2, readsClosed_close_iff valid closes⟩

theorem datedWait_valid :
    Store.datedWait.validate Store.twoNodes [⟨⟨"task-1"⟩, ⟨"task-2"⟩⟩] = .ok () := by decide +kernel

theorem close_settles_iff_dated : ∃ closed,
    Store.datedWait.close .resolved Store.chosenRegion = .ok closed ∧
      ReadsClosed Store.twoNodes [⟨⟨"task-1"⟩, ⟨"task-2"⟩⟩] closed := by
  obtain ⟨⟨-, last⟩ | ⟨closed, closes, -, settled⟩, -⟩ :=
    close_settles_iff datedWait_valid rfl .resolved Store.chosenRegion
  · exact absurd last (by decide)
  · exact ⟨closed, closes, settled.mpr ⟨.inl ⟨rfl, nofun⟩, rfl⟩⟩

theorem datedWait_reopened :
    Store.datedWait.validate Store.twoNodes [⟨⟨"task-1"⟩, ⟨"task-2"⟩⟩] = .ok () ∧
      Store.datedWait.state = .opened ∧
      ∃ closed, Store.datedWait.close .opened Store.chosenRegion = .ok closed ∧
        closed.state = .opened ∧
        closed.validate Store.twoNodes [⟨⟨"task-1"⟩, ⟨"task-2"⟩⟩] ≠ .ok () := by
  refine ⟨datedWait_valid, rfl, _, rfl, rfl, fun valid => ?_⟩
  obtain ⟨-, -, -, stated⟩ := ExternalWait.validate_eq_ok.mp valid
  cases stated

end Closing

end Boreal.Planning
