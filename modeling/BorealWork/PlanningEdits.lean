/- Hierarchy edits: one work row and its v3 node changed together, the whole forest of the project
checked against its canonical rows. -/
import BorealWork.WaitOperations

namespace Boreal

inductive HierarchyError
  | parentRequired (child : WorkId) (kind : WorkKind)
  | crossProjectReference (source target : WorkId)
  | invalidParentKind (child parent : WorkKind)
  deriving DecidableEq

def HierarchyError.display : HierarchyError → String
  | parentRequired _ _ => "parent_required"
  | crossProjectReference _ _ => "cross_project_reference"
  | invalidParentKind _ _ => "invalid_parent_kind"

def validateParent (child : WorkItem) : Option WorkItem → Except HierarchyError Unit
  | none =>
    match child.kind with
    | .milestone | .task => .ok ()
    | .sprint => .error (.parentRequired child.id child.kind)
  | some parent =>
    if child.projectId ≠ parent.projectId then
      .error (.crossProjectReference child.id parent.id)
    else match parent.kind, child.kind with
      | .milestone, .sprint => .ok ()
      | .sprint, .task => .ok ()
      | parentKind, childKind => .error (.invalidParentKind childKind parentKind)

end Boreal

namespace Boreal.Store
open Drain JsonValue WorkModel Sorting

structure WorkPlanningContract where
  requirementsJson : String
  inputsJson : String
  deriving DecidableEq

/-- The outer `some` of a parent asks for a change, the inner one names the new parent. -/
structure PlanningWorkEditV3Input where
  projectId : String
  workId : String
  parentId : Option (Option String)
  title : Option String
  description : Option String
  priority : Option ℕ
  dispatchPolicy : Option String
  executionMode : Option String
  planningContract : Option WorkPlanningContract
  updatedAt : String
  deriving DecidableEq

/-- How the planning-contract code ended, whose tables nothing here reads. -/
structure ContractOutcome where
  schema : Except StoreError Unit
  appended : Except StoreError Unit

def executionModeOf : String → Option ExecutionMode
  | "direct" => some .direct
  | "container" => some .container
  | _ => none

def workItemFromRecord (record : WorkRecord) (parentId : Option String) : WorkItem :=
  ⟨⟨record.workId⟩, ⟨record.projectId⟩, record.kind, parentId.map TypedId.mk⟩

def nodeKind : DecompositionKind → WorkKind
  | .milestone => .milestone
  | .task => .task

section Forest
variable (rows : PlanningRows)

def validateParentRow (child : WorkItem) (parent : Option WorkItem) : Except StoreError Unit :=
  (validateParent child parent).mapError fun error => .invalid error.display

def milestoneOf (projectId : String) (sprint : WorkRecord) : Except StoreError String := do
  refuse (sprint.kind ≠ .sprint) (.invalid "nested tasks require a Sprint work parent")
  match sprint.parentId with
  | none => .error (.invalid "nested task Sprint must belong to a Milestone")
  | some milestoneId =>
    match ← work rows projectId milestoneId with
    | none => .error (.invalid "Sprint Milestone is missing")
    | some milestone => do
      refuse (milestone.kind ≠ .milestone)
        (.invalid "nested task Sprint parent must be a Milestone")
      match ← workNodeV3 rows projectId milestoneId with
      | none => .error (.invalid
          "nested task requires its Milestone to be projected into work-model/3")
      | some node => do
        refuse (node.decompositionKind ≠ .milestone ∨ node.executionMode ≠ .container)
          (.invalid "nested task parent must be a v3 Milestone container")
        return milestoneId

def v3ParentForWork (item : WorkItem) : Except StoreError (Option String) :=
  match item.parentId with
  | none => do
    validateParentRow item none
    return none
  | some parentId => do
    match ← work rows item.projectId.value parentId.value with
    | none => .error (.invalid "work parent is not in this project")
    | some parent => do
      validateParentRow item (some (workItemFromRecord parent parent.parentId))
      refuse (item.kind ≠ .task) (.invalid "milestones cannot have a schema-2 work parent")
      some <$> milestoneOf rows item.projectId.value parent

def projectedNode (projectId : String) (row : WorkRecord) (parent : Option String)
    (mode : ExecutionMode) (record : WorkNodeV3Record) : Except StoreError WorkNode := do
  refuse (row.kind ≠ nodeKind record.decompositionKind) (.corrupt
    s!"v3 hierarchy node {row.workId} disagrees with its canonical work kind")
  let expected ← v3ParentForWork rows (workItemFromRecord row row.parentId)
  refuse (parent ≠ expected) (.corrupt
    s!"v3 hierarchy node {row.workId} disagrees with its canonical parent")
  return ⟨⟨record.workId⟩, ⟨projectId⟩, record.decompositionKind, mode, parent.map TypedId.mk, ""⟩

def canonicalWork (projectId : String) (record : WorkNodeV3Record) :
    Except StoreError WorkRecord := do
  match ← work rows projectId record.workId with
  | none => .error (.corrupt s!"v3 hierarchy node {record.workId} has no canonical work row")
  | some row => return row

def storedNode (projectId : String) (record : WorkNodeV3Record) : Except StoreError WorkNode := do
  let row ← canonicalWork rows projectId record
  projectedNode rows projectId row record.parentId record.executionMode record

def validateWorkModelV3Forest (projectId : String) : Except StoreError Unit := do
  let nodes ← (← workNodesV3 rows projectId).mapM (storedNode rows projectId)
  (validateDecomposition nodes).mapError fun error => .invalid error.display

end Forest

section Edit
variable (rows : PlanningRows) (context : V3MutationContext) (input : PlanningWorkEditV3Input)
  (contract : ContractOutcome)

def checkEdit : Except StoreError Unit := do
  refuse (input.parentId = none ∧ input.title = none ∧ input.description = none ∧
      input.priority = none ∧ input.dispatchPolicy = none ∧ input.executionMode = none ∧
      input.planningContract = none) (.invalid "work edit requires at least one changed field")
  refuse (input.title.any fun title => isBlank title || title.utf8ByteSize > 512)
    (.invalid "work title is required and limited to 512 bytes")
  refuse (input.description.any fun description =>
      '\x00' ∈ description.toList || description.utf8ByteSize > 65536)
    (.invalid "work description contains invalid content or exceeds 65536 bytes")
  refuse (input.dispatchPolicy.any fun policy =>
    policy ∉ ["automatic", "operator_only", "paused"]) (.invalid "invalid dispatch policy")
  refuse (input.executionMode.any fun mode => (executionModeOf mode).isNone)
    (.invalid "invalid work execution mode")

def workHasAttemptHistory : Bool :=
  rows.works.any fun row =>
    row.projectId = input.projectId ∧ row.workId = input.workId ∧ row.workId ∈ rows.attempts

def appendPlanningContractIfPresent : Except StoreError Unit :=
  onlyIf input.planningContract.isSome do
    refuse context.sessionId.isNone
      (.invalid "planning contract edits require an enrolled session")
    contract.appended

def isRow (projectId workId : String) (row : WorkRecord) : Bool :=
  row.projectId = projectId && row.workId = workId

def isNode (projectId workId : String) (record : WorkNodeV3Record) : Bool :=
  record.projectId = projectId && record.workId = workId

def changeWhere {α : Type} (chosen : α → Bool) (change : α → α) (row : α) : α :=
  if chosen row then change row else row

def editedWork (parent : Option String) (current : WorkRecord) : WorkRecord :=
  { current with
    parentId := parent
    title := input.title.getD current.title
    description := input.description.getD current.description
    priority := input.priority.getD current.priority
    dispatchPolicy := input.dispatchPolicy.getD current.dispatchPolicy
    updatedAt := input.updatedAt }

def updateWork (parent : Option String) (current : WorkRecord) :
    Except StoreError PlanningRows := do
  bindOptionalText parent
  [input.title.getD current.title, input.description.getD current.description,
    input.dispatchPolicy.getD current.dispatchPolicy, input.updatedAt, input.projectId,
    input.workId].forM bindText
  let change := changeWhere (isRow input.projectId input.workId)
    fun _ => editedWork input parent current
  return { rows with works := rows.works.map change }

def updateNode (workId : String) (change : WorkNodeV3Record → WorkNodeV3Record) : PlanningRows :=
  { rows with nodes := rows.nodes.map (changeWhere (isNode input.projectId workId) change) }

def editedMode (current : WorkNodeV3Record) : ExecutionMode :=
  (input.executionMode.bind executionModeOf).getD current.executionMode

/-- The forest as the edit would leave it, against the rows as they are. -/
def editedNode (current : WorkRecord) (parent parentNode : Option String) (mode : ExecutionMode)
    (record : WorkNodeV3Record) : Except StoreError WorkNode := do
  if record.workId = input.workId then
    projectedNode rows input.projectId { current with parentId := parent } parentNode mode record
  else storedNode rows input.projectId record

/-- A task or a milestone, with its v3 node. -/
def editNodeWork (current : WorkRecord) : Except StoreError PlanningRows := do
  match ← workNodeV3 rows input.projectId input.workId with
  | none => .error (.notFound "work_node_v3" input.workId)
  | some node => do
    let parent := input.parentId.getD current.parentId
    let parentNode ← v3ParentForWork rows (workItemFromRecord current parent)
    let mode := editedMode input node
    let nodes ← (← workNodesV3 rows input.projectId).mapM
      (editedNode rows input current parent parentNode mode)
    (validateDecomposition nodes).mapError fun error => StoreError.invalid error.display
    let rows ← (if input.parentId.isSome ∨ input.title.isSome ∨ input.description.isSome ∨
        input.priority.isSome ∨ input.dispatchPolicy.isSome then
        updateWork rows input parent current
      else .ok rows : Except StoreError PlanningRows)
    bindOptionalText parentNode
    [input.updatedAt, input.projectId, input.workId].forM bindText
    appendPlanningContractIfPresent context input contract
    return updateNode rows input input.workId fun record =>
      { record with
        parentId := parentNode
        executionMode := mode
        updatedAt := input.updatedAt }

def sprintTasks : List String :=
  sortOn id ((rows.works.filter fun row => row.projectId = input.projectId ∧
    row.parentId = some input.workId ∧ row.kind = .task).map WorkRecord.workId)

def checkMovedTask (milestone : Option String) (child : String) : Except StoreError Unit := do
  match ← workNodeV3 rows input.projectId child with
  | none => .error (.invalid
      s!"cannot move Sprint while nested Task {child} has no v3 projection")
  | some node => refuse (node.decompositionKind ≠ .task ∨ node.parentId ≠ milestone) (.corrupt
      s!"nested Task {child} does not project under the Sprint's current Milestone")

def moveTask (target : String) (rows : PlanningRows) (child : String) :
    Except StoreError PlanningRows := do
  [target, input.updatedAt, input.projectId, child].forM bindText
  return updateNode rows input child fun record =>
    { record with parentId := some target, updatedAt := input.updatedAt }

def checkSprintParent (target : String) : Except StoreError WorkRecord := do
  match ← work rows input.projectId target with
  | none => .error (.invalid "Sprint parent is not in this project")
  | some parent => do
    refuse (parent.kind ≠ .milestone) (.invalid "Sprint parent must be a Milestone")
    match ← workNodeV3 rows input.projectId target with
    | none => .error (.invalid "Sprint parent Milestone is missing its v3 projection")
    | some node => do
      refuse (node.decompositionKind ≠ .milestone ∨ node.executionMode ≠ .container)
        (.invalid "Sprint parent must be a v3 Milestone container")
      return parent

def editSprintWorkV3 (current : WorkRecord) : Except StoreError PlanningRows := do
  refuse input.executionMode.isSome
    (.invalid "execution mode cannot be edited on a Sprint container")
  match input.parentId.getD current.parentId with
  | none => .error (.invalid "Sprints require a Milestone parent")
  | some target => do
    let parent ← checkSprintParent rows input target
    validateParentRow (workItemFromRecord current (some target))
      (some (workItemFromRecord parent parent.parentId))
    bindText input.projectId
    bindText input.workId
    let children := sprintTasks rows input
    onlyIf (some target ≠ current.parentId) do
      refuse current.parentId.isNone (.corrupt "Sprint has no canonical Milestone parent")
      children.forM (checkMovedTask rows input current.parentId)
    let rows ← updateWork rows input (some target) current
    let rows ← (if some target ≠ current.parentId then children.foldlM (moveTask input target) rows
      else .ok rows : Except StoreError PlanningRows)
    validateWorkModelV3Forest rows input.projectId
    return rows

def writeEdit : Except StoreError PlanningRows := do
  checkEdit input
  match ← work rows input.projectId input.workId with
  | none => .error (.notFound "work" input.workId)
  | some current => do
    refuse (input.planningContract.isSome ∧
        (current.lifecycle ≠ .open ∨ workHasAttemptHistory rows input)) (.conflict
      "planning requirements and inputs cannot be changed after publication, claim, or prior attempt history; create a new revision through the explicit supersession path")
    if current.kind = .sprint then do
      refuse (← workNodeV3 rows input.projectId input.workId).isSome
        (.corrupt "Sprint unexpectedly has a work-model/3 node")
      let rows ← editSprintWorkV3 rows input current
      appendPlanningContractIfPresent context input contract
      return rows
    else editNodeWork rows context input contract current

end Edit

section Operation
variable (authority : Authority) (checksum : Value → String) (store : SqliteStore PlanningRows)
  (context : V3MutationContext) (input : PlanningWorkEditV3Input) (contract : ContractOutcome)

def parentChange : Option (Option String) → Value
  | none => .object [("mode", .string "unchanged")]
  | some none => .object [("mode", .string "clear")]
  | some (some parentId) => .object [("mode", .string "set"), ("work_id", .string parentId)]

def editRequest : Value :=
  .object [("project_id", .string input.projectId), ("work_id", .string input.workId),
    ("parent_change", parentChange input.parentId), ("title", optionalText input.title),
    ("description", optionalText input.description), ("priority", optionalNatural input.priority),
    ("dispatch_policy", optionalText input.dispatchPolicy),
    ("execution_mode", optionalText input.executionMode),
    ("planning_contract", orNull (fun contract : WorkPlanningContract =>
      .object [("requirements_json", .string contract.requirementsJson),
        ("inputs_json", .string contract.inputsJson)]) input.planningContract)]

def editMutation : Mutation PlanningRows where
  context := context.withPayload checksum (editRequest input)
  command := "work.edit.v3"
  subjectType := "work_node"
  subjectId := input.workId
  roles := if input.dispatchPolicy.isSome ∨ input.planningContract.isSome then [.operator]
    else [.agent, .operator]
  write := fun store => writeEdit store.rows (context.withPayload checksum (editRequest input))
    input contract

def checkEditRequest (bound : V3MutationContext) : Except StoreError Unit := do
  onlyIf input.planningContract.isSome contract.schema
  ensureProject bound.projectId input.projectId

def editPlanningWorkV3 : Except StoreError MutationResult × SqliteStore PlanningRows :=
  let call := editMutation checksum context input contract
  match checkEditRequest input contract call.context with
  | .error error => (.error error, store)
  | .ok () => factMutation authority store call

end Operation

section Machine
variable (authority : Authority) (checksum : Value → String)

inductive PlanningCall
  | appendWait (context : V3MutationContext) (input : ExternalWaitV1Input)
  | updateCivilTime (context : V3MutationContext) (input : ProjectCivilTimeV1Input)
  | editWork (context : V3MutationContext) (input : PlanningWorkEditV3Input)
      (contract : ContractOutcome)

def performPlanning (store : SqliteStore PlanningRows) :
    PlanningCall → Except StoreError MutationResult × SqliteStore PlanningRows
  | .appendWait context input => appendExternalWaitV1 authority checksum store context input
  | .updateCivilTime context input => updateProjectCivilTimeV1 authority checksum store context input
  | .editWork context input contract =>
    editPlanningWorkV3 authority checksum store context input contract

end Machine

end Boreal.Store
