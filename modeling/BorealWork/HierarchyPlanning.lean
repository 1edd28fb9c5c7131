/- Planned operations on the hierarchy: a command is checked against one snapshot of the work, its
dependencies and its cycles, and answered with the value to write and the digest of the request. -/
import BorealWork.CycleAssignments
import BorealWork.Library.JsonValue

namespace Boreal.Planning
open Drain JsonValue Sorting WorkModel

section Digests

mutual

/-- Members in the order of their keys, at every depth. -/
def canonicalize : Value → Value
  | .array items => .array (canonicalizeItems items)
  | .object members => .object (sortOn Prod.fst (canonicalizeMembers members))
  | value => value

def canonicalizeItems : List Value → List Value
  | [] => []
  | item :: rest => canonicalize item :: canonicalizeItems rest

def canonicalizeMembers : List (String × Value) → List (String × Value)
  | [] => []
  | (key, value) :: rest => (key, canonicalize value) :: canonicalizeMembers rest

end

/-- `hash` is the digest of the compact encoding, with its prefix. -/
def canonicalRequestDigest (hash : Value → String) (command : String) (payload : Value) : String :=
  hash (canonicalize (.object [("command", .string command), ("payload", payload),
    ("schema", .string "boreal.operation-request.v1")]))

def jsonText (text : Option String) : Value := text.elim .null .string

def jsonNatural (n : ℕ) : Value := .number (.natural n)

def jsonOptionalNatural (n : Option ℕ) : Value := n.elim .null jsonNatural

end Digests

inductive PlanningError
  | domain (error : PlanningModelError)
  | invalid (message : String)
  | revisionConflict (expected actual : ℕ)
  | scopeConflict (expected actual : String)
  | timeZoneUnavailable (timezone : String) (searched : List String)
  | timeZoneParse (message : String)
  deriving DecidableEq

structure PlanningScope where
  projectId : ProjectId
  actorId : String
  sessionId : Option String
  expectedRevision : Option ℕ
  deriving DecidableEq

def PlanningScope.validate (scope : PlanningScope) : Except PlanningError Unit := do
  refuse (isBlank scope.projectId.value = true) (.invalid "project_id is required")
  refuse (isBlank scope.actorId = true) (.invalid "actor_id is required")
  refuse (scope.sessionId.any isBlank = true) (.invalid "session_id cannot be empty")

def PlanningScope.requireRevision (scope : PlanningScope) (actual : ℕ) : Except PlanningError Unit :=
  match scope.expectedRevision with
  | some expected =>
    if expected = actual then .ok () else .error (.revisionConflict expected actual)
  | none => .error (.invalid "v3 mutations require expected_revision")

def PlanningScope.check (scope : PlanningScope) (projectId : ProjectId) (revision : ℕ) :
    Except PlanningError Unit := do
  scope.validate
  refuse (scope.projectId ≠ projectId) (.scopeConflict projectId.value scope.projectId.value)
  scope.requireRevision revision

structure PlannedOperation (α : Type) where
  operationId : String
  requestDigest : String
  projectId : ProjectId
  actorId : String
  sessionId : Option String
  expectedRevision : ℕ
  value : α
  deriving DecidableEq

def PlanningScope.planned {α : Type} (scope : PlanningScope) (operationId requestDigest : String)
    (revision : ℕ) (value : α) : PlannedOperation α where
  operationId
  requestDigest
  projectId := scope.projectId
  actorId := scope.actorId
  sessionId := scope.sessionId
  expectedRevision := revision
  value

def PlannedOperation.map {α β : Type} (f : α → β) (planned : PlannedOperation α) :
    PlannedOperation β := { planned with value := f planned.value }

section Snapshots

structure HierarchySnapshot where
  projectId : ProjectId
  revision : ℕ
  nodes : List WorkNode
  dependencies : List DirectDependency
  cycles : List Cycle
  assignments : List CycleAssignment
  deriving DecidableEq

namespace HierarchySnapshot

variable (snapshot : HierarchySnapshot)

def validate : Except PlanningError Unit := do
  (validateDecomposition snapshot.nodes).mapError (.domain ∘ .model)
  (validateDirectDependencies snapshot.nodes snapshot.dependencies).mapError (.domain ∘ .model)
  (validateCycleAssignments snapshot.cycles snapshot.nodes snapshot.assignments).mapError .domain

def node (workId : WorkId) : Except PlanningError WorkNode :=
  (snapshot.nodes.find? (·.id = workId)).elim
    (.error (.invalid s!"work node not found: {workId.value}")) .ok

def cycle (cycleId : Rollups.CycleId) : Except PlanningError Cycle :=
  (snapshot.cycles.find? (·.id = cycleId)).elim
    (.error (.invalid s!"cycle not found: {cycleId.value}")) .ok

def scope (scope : PlanningScope) : Except PlanningError Unit :=
  scope.check snapshot.projectId snapshot.revision

def replaced (updated : WorkNode) : List WorkNode :=
  snapshot.nodes.set (snapshot.nodes.findIdx (·.id = updated.id)) updated

end HierarchySnapshot

end Snapshots

section Planners

variable (hash : Value → String) (snapshot : HierarchySnapshot)

structure WorkEditRequest where
  scope : PlanningScope
  operationId : String
  workId : WorkId
  /-- Absent, the parent stays; present and empty, the work moves to the root. -/
  parentId : Option (Option WorkId)
  title : Option String
  executionMode : Option ExecutionMode
  deriving DecidableEq

def executionModeName : ExecutionMode → String
  | .direct => "direct"
  | .container => "container"

def WorkEditRequest.updated (request : WorkEditRequest) (node : WorkNode) : WorkNode :=
  { node with
    parentId := request.parentId.getD node.parentId
    title := request.title.getD node.title
    executionMode := request.executionMode.getD node.executionMode }

def WorkEditRequest.payload (request : WorkEditRequest) : Value := .object [
  ("project_id", .string request.scope.projectId.value),
  ("actor_id", .string request.scope.actorId),
  ("session_id", jsonText request.scope.sessionId),
  ("work_id", .string request.workId.value),
  ("parent_id", (request.parentId.map fun parent => jsonText (parent.map (·.value))).getD .null),
  ("title", jsonText request.title),
  ("execution_mode", jsonText (request.executionMode.map executionModeName)),
  ("expected_revision", jsonOptionalNatural request.scope.expectedRevision)]

def planWorkEdit (request : WorkEditRequest) : Except PlanningError (PlannedOperation WorkNode) := do
  snapshot.scope request.scope
  let node ← snapshot.node request.workId
  request.title.forM fun title => refuse (isBlank title = true) (.invalid "work title cannot be empty")
  let updated := request.updated node
  (validateDecomposition (snapshot.replaced updated)).mapError (.domain ∘ .model)
  return request.scope.planned request.operationId
    (canonicalRequestDigest hash "work.edit/v3" request.payload) snapshot.revision updated

inductive DependencyChange
  | add (edge : DirectDependency)
  | remove (edge : DirectDependency)
  deriving DecidableEq

def DependencyChange.name : DependencyChange → String
  | .add _ => "add"
  | .remove _ => "remove"

def DependencyChange.apply (dependencies : List DirectDependency) :
    DependencyChange → Except PlanningError (List DirectDependency)
  | .add edge => .ok (dependencies ++ [edge])
  | .remove edge => do
    refuse (edge ∉ dependencies) (.invalid "dependency edge not found")
    return dependencies.filter (· ≠ edge)

def dependencyPayload (scope : PlanningScope) (change : DependencyChange)
    (dependencies : List DirectDependency) : Value := .object [
  ("project_id", .string scope.projectId.value),
  ("actor_id", .string scope.actorId),
  ("session_id", jsonText scope.sessionId),
  ("operation", .string change.name),
  ("dependencies", .array (dependencies.map fun edge => .object [
    ("blocker_id", .string edge.blockerId.value), ("blocked_id", .string edge.blockedId.value)])),
  ("expected_revision", jsonOptionalNatural scope.expectedRevision)]

def planDependencyChange (scope : PlanningScope) (operationId : String) (change : DependencyChange) :
    Except PlanningError (PlannedOperation (List DirectDependency)) := do
  snapshot.scope scope
  let dependencies ← change.apply snapshot.dependencies
  (validateDirectDependencies snapshot.nodes dependencies).mapError (.domain ∘ .model)
  return scope.planned operationId (canonicalRequestDigest hash "dependency.change/v3"
    (dependencyPayload scope change dependencies)) snapshot.revision dependencies

structure CycleCreateRequest where
  scope : PlanningScope
  operationId : String
  cycle : Cycle
  deriving DecidableEq

def CycleCreateRequest.payload (request : CycleCreateRequest) (revision : ℕ) : Value := .object [
  ("project_id", .string request.scope.projectId.value),
  ("cycle_id", .string request.cycle.id.value),
  ("name", .string request.cycle.name),
  ("expected_revision", jsonNatural revision)]

def planCycleCreate (request : CycleCreateRequest) : Except PlanningError (PlannedOperation Cycle) := do
  snapshot.scope request.scope
  refuse (request.cycle.projectId ≠ snapshot.projectId)
    (.scopeConflict snapshot.projectId.value request.cycle.projectId.value)
  (request.cycle.validate).mapError (.domain ∘ .model)
  refuse (request.cycle.id ∈ snapshot.cycles.map (·.id)) (.invalid "cycle ID already exists")
  return request.scope.planned request.operationId
    (canonicalRequestDigest hash "cycle.create/v3" (request.payload snapshot.revision))
    snapshot.revision request.cycle

structure CycleActivationRequest where
  scope : PlanningScope
  operationId : String
  cycleId : Rollups.CycleId
  instant : TimestampMs
  deriving DecidableEq

def CycleActivationRequest.payload (request : CycleActivationRequest) (revision : ℕ) : Value := .object [
  ("project_id", .string request.scope.projectId.value),
  ("cycle_id", .string request.cycleId.value),
  ("at", jsonNatural request.instant.value),
  ("expected_revision", jsonNatural revision)]

def planCycleActivation (request : CycleActivationRequest) :
    Except PlanningError (PlannedOperation Cycle) := do
  snapshot.scope request.scope
  let cycle ← snapshot.cycle request.cycleId
  let started ← (cycle.start request.instant).mapError .domain
  return request.scope.planned request.operationId
    (canonicalRequestDigest hash "cycle.activate/v3" (request.payload snapshot.revision))
    snapshot.revision started

end Planners

end Boreal.Planning
