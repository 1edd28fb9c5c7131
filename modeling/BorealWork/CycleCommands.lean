/- The cycle commands of the store: a new one-off cycle, and the changes of a cycle and of the work
assigned to it, each with the rows it appends to the history. -/
import BorealWork.CycleAssignments
import BorealWork.WaitOperations

namespace Boreal.Store
open Drain JsonValue WorkModel Sorting
open Planning (ActivationPolicy)

/-- The columns' checks allow these lifecycles only. -/
structure CycleV3Record where
  projectId : String
  cycleId : String
  seriesId : String
  templateVersionId : String
  slotOrdinal : ℕ
  name : String
  goal : String
  lifecycle : CycleLifecycle
  scheduledStartUtcMs : ℤ
  scheduledEndUtcMs : Option ℤ
  scheduledStartLocal : String
  scheduledStartUtcOffsetMinutes : ℤ
  timezone : String
  tzdbIdentity : String
  gapPolicy : String
  foldPolicy : String
  createdAt : String
  updatedAt : String
  deriving DecidableEq

/-- The stored columns of an assignment are the fields of the domain's. -/
structure CycleAssignmentV3Record extends model : Planning.CycleAssignment where
  createdAt : String
  updatedAt : String
  deriving DecidableEq

structure CycleSeriesV3Row where
  seriesId : String
  projectId : String
  name : String
  timezone : String
  tzdbIdentity : String
  createdAt : String
  deriving DecidableEq

structure CycleTemplateV3Row where
  templateVersionId : String
  projectId : String
  seriesId : String
  anchorLocalDate : String
  anchorLocalTime : String
  anchorWeekday : ℕ
  namePattern : String
  goalTemplate : String
  timezone : String
  tzdbIdentity : String
  foldPolicy : String
  createdAt : String
  deriving DecidableEq

structure CycleEventRow where
  operationId : String
  projectId : String
  cycleId : String
  kind : String
  priorState : Option CycleLifecycle
  nextState : CycleLifecycle
  actorId : String
  reason : String
  payload : Value
  createdAt : String

structure AssignmentEventRow where
  eventId : String
  operationId : String
  projectId : String
  assignmentId : String
  cycleId : String
  workId : String
  priorState : Option CycleAssignmentState
  nextState : CycleAssignmentState
  predecessorId : Option String
  successorId : Option String
  actorId : String
  reason : String
  createdAt : String

structure LegacySprintCycleRow where
  projectId : String
  sprintWorkId : String
  cycleId : String
  operationId : String
  reason : String
  createdAt : String

structure CycleRows where
  planning : PlanningRows
  /-- The works of each project with a current accepted outcome. -/
  accepted : List (String × String)
  series : List CycleSeriesV3Row
  templates : List CycleTemplateV3Row
  cycles : List CycleV3Record
  assignments : List CycleAssignmentV3Record
  cycleEvents : List CycleEventRow
  assignmentEvents : List AssignmentEventRow
  legacySprints : List LegacySprintCycleRow

structure OneOffCycleInput where
  cycle : CycleV3Record
  anchorDate : String
  anchorTime : String
  anchorWeekday : ℕ

structure CycleChangeRequest where
  cycleId : String
  change : String
  assignmentId : Option String
  workId : Option String
  successorCycleId : Option String
  successorAssignmentId : Option String
  reason : String
  confirmed : Bool

inductive CycleChange
  | activate | close | cancel
  | assign
  | defer
  | commit | remove | carryOver
  | mapLegacy
  deriving DecidableEq

def CycleChange.ofText : String → Option CycleChange
  | "activate" => some .activate
  | "close" => some .close
  | "cancel" => some .cancel
  | "assign" => some .assign
  | "defer" => some .defer
  | "commit" => some .commit
  | "remove" => some .remove
  | "carry_over" => some .carryOver
  | "map_legacy" => some .mapLegacy
  | _ => none

def requiredId (value : Option String) (field : String) : Except StoreError String :=
  match value with
  | some text => if isBlank text then .error (.invalid s!"{field} is required") else .ok text
  | none => .error (.invalid s!"{field} is required")

/-- A clock in milliseconds; a sign is no digit here. -/
def canonicalStatusTimestamp (value : String) : Except StoreError TimestampMs :=
  let scheme := "unix-ms:".toList
  let digits := value.toList.drop scheme.length
  if scheme.isPrefixOf value.toList ∧ digits ≠ [] ∧ digits.all Char.isDigit ∧
      Nat.ofDigitChars 10 digits 0 < 2 ^ 64 then .ok ⟨Nat.ofDigitChars 10 digits 0⟩
  else .error (.corrupt s!"invalid canonical timestamp: {value}")

def assignmentTransitionAllowed : CycleAssignmentState → CycleAssignmentState → Bool
  | .planned, .committed | .planned, .removed | .planned, .carriedOver | .planned, .completed => true
  | .committed, .removed | .committed, .carriedOver | .committed, .completed => true
  | _, _ => false

def startCycle (lifecycle : CycleLifecycle) : Except StoreError CycleLifecycle := do
  refuse (lifecycle ≠ .planned) (.invalid "illegal cycle transition")
  return .active

def completeCycle (lifecycle : CycleLifecycle) (liveAssignments : ℕ) :
    Except StoreError CycleLifecycle := do
  refuse (lifecycle ≠ .active) (.invalid "illegal cycle transition")
  refuse (liveAssignments ≠ 0) (.invalid "cycle has live assignments")
  return .completed

def cancelCycle (lifecycle : CycleLifecycle) (liveAssignments : ℕ) :
    Except StoreError CycleLifecycle := do
  refuse (lifecycle.isTerminal = true) (.invalid "illegal cycle transition")
  refuse (liveAssignments ≠ 0) (.invalid "cycle has live assignments")
  return .cancelled

section Reading
variable (rows : CycleRows) (projectId cycleId assignmentId workId : String)

def cycleV3 : Except StoreError (Option CycleV3Record) := do
  bindText projectId
  bindText cycleId
  return rows.cycles.find? fun row => row.projectId = projectId ∧ row.cycleId = cycleId

def cycleAssignmentsV3 : Except StoreError (List CycleAssignmentV3Record) := do
  bindText projectId
  bindText cycleId
  return sortOn (·.id) (rows.assignments.filter fun row =>
    row.projectId = ⟨projectId⟩ ∧ row.cycleId = ⟨cycleId⟩)

def cycleAssignmentV3ById : Except StoreError (Option CycleAssignmentV3Record) := do
  bindText projectId
  bindText assignmentId
  return rows.assignments.find? fun row => row.projectId = ⟨projectId⟩ ∧ row.id = assignmentId

def hasAcceptedOutcome : Except StoreError Bool := do
  bindText projectId
  bindText workId
  return (projectId, workId) ∈ rows.accepted

end Reading

section Creating
variable (rows : CycleRows) (known : Prop) [Decidable known] (c : CycleV3Record) (now : String)

def checkTrimmed (column value : String) : Except StoreError Unit :=
  refuse (trimsEmpty value) (checkFailed s!"trim({column}) <> ''")

def insertSeries : Except StoreError CycleRows := do
  [c.seriesId, c.projectId, c.name, c.timezone, c.tzdbIdentity, now].forM bindText
  checkTrimmed "name" c.name
  checkTrimmed "timezone" c.timezone
  checkTrimmed "tzdb_identity" c.tzdbIdentity
  refuse (c.seriesId ∈ rows.series.map CycleSeriesV3Row.seriesId)
    (unique "cycle_series_v3.series_id")
  refuse (¬ known) foreignKey
  return { rows with series := rows.series ++
    [⟨c.seriesId, c.projectId, c.name, c.timezone, c.tzdbIdentity, now⟩] }

def insertTemplate (input : OneOffCycleInput) : Except StoreError CycleRows := do
  let c := input.cycle
  [c.templateVersionId, c.projectId, c.seriesId, input.anchorDate, input.anchorTime, c.name, c.goal,
    c.timezone, c.tzdbIdentity, c.foldPolicy, now].forM bindText
  checkTrimmed "anchor_local_date" input.anchorDate
  checkTrimmed "anchor_local_time" input.anchorTime
  refuse (¬ (1 ≤ input.anchorWeekday ∧ input.anchorWeekday ≤ 7))
    (checkFailed "anchor_weekday BETWEEN 1 AND 7")
  refuse (c.foldPolicy ∉ ["earlier_offset", "later_offset"])
    (checkFailed "fold_policy IN ('earlier_offset','later_offset')")
  refuse (c.templateVersionId ∈ rows.templates.map CycleTemplateV3Row.templateVersionId)
    (unique "cycle_template_v3.template_version_id")
  return { rows with templates := rows.templates ++
    [⟨c.templateVersionId, c.projectId, c.seriesId, input.anchorDate, input.anchorTime,
      input.anchorWeekday, c.name, c.goal, c.timezone, c.tzdbIdentity, c.foldPolicy, now⟩] }

theorem lawfulBEq_slot : LawfulBEq (String × String × ℕ) := inferInstance

attribute [local instance] lawfulBEq_slot

def insertCycle : Except StoreError CycleRows := do
  [c.cycleId, c.projectId, c.seriesId, c.templateVersionId, c.name, c.goal, c.scheduledStartLocal,
    c.timezone, c.tzdbIdentity, c.foldPolicy, now].forM bindText
  refuse (¬ (-1440 ≤ c.scheduledStartUtcOffsetMinutes ∧ c.scheduledStartUtcOffsetMinutes ≤ 1440))
    (checkFailed "scheduled_start_utc_offset_minutes BETWEEN -1440 AND 1440")
  refuse (∃ finish ∈ c.scheduledEndUtcMs, finish ≤ c.scheduledStartUtcMs)
    (checkFailed "scheduled_end_utc_ms IS NULL OR scheduled_end_utc_ms > scheduled_start_utc_ms")
  refuse (c.cycleId ∈ rows.cycles.map CycleV3Record.cycleId) (unique "cycle_v3.cycle_id")
  refuse ((c.projectId, c.seriesId, 0) ∈
      rows.cycles.map fun row => (row.projectId, row.seriesId, row.slotOrdinal))
    (unique "cycle_v3.project_id, cycle_v3.series_id, cycle_v3.slot_ordinal")
  return { rows with cycles := rows.cycles ++
    [{ c with
      slotOrdinal := 0
      lifecycle := .planned
      gapPolicy := "next_valid"
      createdAt := now
      updatedAt := now }] }

end Creating

section History
variable (authority : Authority) (context : V3MutationContext) (rows : CycleRows)

structure CycleEvent where
  cycleId : String
  kind : String
  priorState : Option CycleLifecycle
  nextState : CycleLifecycle
  reason : String
  payload : Value

structure AssignmentEvent where
  assignment : CycleAssignmentV3Record
  priorState : Option CycleAssignmentState
  nextState : CycleAssignmentState
  predecessorId : Option String
  successorId : Option String
  reason : String

def appendCycleEvent (event : CycleEvent) : Except StoreError CycleRows := do
  [context.operationId, context.projectId, event.cycleId, event.kind, context.actorId, event.reason,
    context.now].forM bindText
  checkTrimmed "reason" event.reason
  refuse (context.operationId ∈ rows.cycleEvents.map CycleEventRow.operationId)
    (unique "boreal_cycle_event.event_id")
  refuse ((authority.actors context.actorId).isNone ∨ ¬ rows.cycles.any fun row =>
    row.projectId = context.projectId ∧ row.cycleId = event.cycleId) foreignKey
  return { rows with cycleEvents := rows.cycleEvents ++
    [⟨context.operationId, context.projectId, event.cycleId, event.kind, event.priorState,
      event.nextState, context.actorId, event.reason, event.payload, context.now⟩] }

def appendAssignmentEvent (event : AssignmentEvent) : Except StoreError CycleRows := do
  let eventId := s!"{context.operationId}:assignment:{event.assignment.id}"
  [eventId, context.operationId, context.projectId, event.assignment.id,
    event.assignment.cycleId.value, event.assignment.workId.value].forM bindText
  bindOptionalText event.predecessorId
  bindOptionalText event.successorId
  [context.actorId, event.reason, context.now].forM bindText
  checkTrimmed "reason" event.reason
  refuse (eventId ∈ rows.assignmentEvents.map AssignmentEventRow.eventId)
    (unique "boreal_assignment_event.event_id")
  refuse ((authority.actors context.actorId).isNone ∨ ¬ rows.assignments.any fun row =>
    row.projectId = ⟨context.projectId⟩ ∧ row.id = event.assignment.id) foreignKey
  return { rows with assignmentEvents := rows.assignmentEvents ++
    [⟨eventId, context.operationId, context.projectId, event.assignment.id,
      event.assignment.cycleId.value, event.assignment.workId.value, event.priorState,
      event.nextState, event.predecessorId, event.successorId, context.actorId, event.reason,
      context.now⟩] }

def plannedAssignment (id : String) (cycleId : Rollups.CycleId) (workId : WorkId)
    (predecessorId : Option String) : CycleAssignmentV3Record where
  id := id
  cycleId := cycleId
  workId := workId
  projectId := ⟨context.projectId⟩
  state := .planned
  activationPolicy := .atCycleStart
  activationAt := none
  predecessorId := predecessorId
  successorId := none
  createdAt := context.now
  updatedAt := context.now

def checkDirectTask (a : CycleAssignmentV3Record) : Except StoreError Unit :=
  refuse (rows.planning.nodes.any fun node => node.projectId = context.projectId ∧
      node.workId = a.workId.value ∧
      ¬ (node.decompositionKind = .task ∧ node.executionMode = .direct))
    (.constraint .check "cycle_assignment_v3_requires_direct_task")

def terminalCycle (a : CycleAssignmentV3Record) : Bool :=
  rows.cycles.any fun row => row.projectId = context.projectId ∧ row.cycleId = a.cycleId.value ∧
    row.lifecycle.isTerminal

def insertAssignment (a : CycleAssignmentV3Record) (reason : String) : Except StoreError CycleRows := do
  [a.id, context.projectId, a.cycleId.value, a.workId.value].forM bindText
  bindOptionalText a.predecessorId
  bindText context.now
  checkDirectTask context rows a
  refuse (terminalCycle context rows a) (.constraint .check "cycle_assignment_v3_terminal_cycle")
  refuse (a.predecessorId = some a.id)
    (checkFailed "predecessor_id IS NULL OR predecessor_id <> assignment_id")
  refuse (a.id ∈ rows.assignments.map (·.id)) (unique "cycle_assignment_v3.assignment_id")
  refuse ((⟨context.projectId⟩, a.cycleId, a.workId) ∈
      rows.assignments.map fun row => (row.projectId, row.cycleId, row.workId))
    (unique "cycle_assignment_v3.project_id, cycle_assignment_v3.cycle_id, cycle_assignment_v3.work_id")
  refuse (¬ rows.cycles.any fun row =>
    row.projectId = context.projectId ∧ row.cycleId = a.cycleId.value) foreignKey
  refuse (¬ rows.planning.nodes.any fun node =>
    node.projectId = context.projectId ∧ node.workId = a.workId.value) foreignKey
  appendAssignmentEvent authority context { rows with assignments := rows.assignments ++ [a] }
    ⟨a, none, .planned, a.predecessorId, none, reason⟩

/-- A row as the update leaves it. -/
def CycleAssignmentV3Record.moved (a : CycleAssignmentV3Record) (next : CycleAssignmentState)
    (predecessor successor : Option String) (now : String) : CycleAssignmentV3Record :=
  { a with
    state := next
    predecessorId := predecessor
    successorId := successor
    updatedAt := now }

def isUnmoved (a row : CycleAssignmentV3Record) : Bool :=
  row.projectId = ⟨context.projectId⟩ ∧ row.id = a.id ∧ row.state = a.state

def setAssignmentState (a : CycleAssignmentV3Record) (next : CycleAssignmentState)
    (predecessor successor : Option String) (reason : String) : Except StoreError CycleRows := do
  [context.projectId, a.id].forM bindText
  bindOptionalText predecessor
  bindOptionalText successor
  bindText context.now
  match rows.assignments.find? (isUnmoved context a) with
  | none => .error (.conflict "assignment state changed")
  | some row => do
    refuse (next.isLive = true ∧ terminalCycle context rows row)
      (.constraint .check "cannot_commit_into_terminal_cycle")
    refuse (predecessor = some row.id)
      (checkFailed "predecessor_id IS NULL OR predecessor_id <> assignment_id")
    refuse (successor = some row.id)
      (checkFailed "successor_id IS NULL OR successor_id <> assignment_id")
    appendAssignmentEvent authority context
      { rows with assignments := rows.assignments.map fun row =>
          if isUnmoved context a row then row.moved next predecessor successor context.now else row }
      ⟨a, some a.state, next, predecessor, successor, reason⟩

end History

section Changes
variable (authority : Authority) (context : V3MutationContext) (request : CycleChangeRequest)

def closesAccepted (change : CycleChange) (rows : CycleRows) (assignment : CycleAssignmentV3Record) :
    Except StoreError Bool :=
  if change = .close then hasAcceptedOutcome rows context.projectId assignment.workId.value
  else .ok false

def resolveAssignment (change : CycleChange) (progress : CycleRows × ℕ)
    (assignment : CycleAssignmentV3Record) : Except StoreError (CycleRows × ℕ) :=
  if assignment.state.isLive then do
    if ← closesAccepted context change progress.1 assignment then
      return (← setAssignmentState authority context progress.1 assignment .completed none none
        request.reason, progress.2)
    else return (progress.1, progress.2 + 1)
  else .ok progress

def nextLifecycle (change : CycleChange) (lifecycle : CycleLifecycle) (unresolved : ℕ) :
    Except StoreError CycleLifecycle :=
  match change with
  | .activate => startCycle lifecycle
  | .close => completeCycle lifecycle unresolved
  | _ => cancelCycle lifecycle unresolved

def updateCycle (rows : CycleRows) (next : CycleLifecycle) : CycleRows :=
  { rows with cycles := rows.cycles.map fun row =>
      if row.projectId = context.projectId ∧ row.cycleId = request.cycleId then
        { row with lifecycle := next, updatedAt := context.now }
      else row }

variable (rows : CycleRows) (stored : CycleV3Record) (assignments : List CycleAssignmentV3Record)

def moveCycle (change : CycleChange) : Except StoreError CycleRows := do
  let (rows, unresolved) ← assignments.foldlM (resolveAssignment authority context request change)
    (rows, 0)
  let next ← nextLifecycle change stored.lifecycle unresolved
  appendCycleEvent authority context (updateCycle context request rows next)
    ⟨request.cycleId, request.change, some stored.lifecycle, next, request.reason,
      .object [("at", .string context.now), ("live_assignments", natural unresolved)]⟩

def assignWork : Except StoreError CycleRows := do
  refuse (stored.lifecycle.isTerminal = true) (.invalid "terminal cycle cannot receive work")
  let id ← requiredId request.assignmentId "assignment_id"
  let workId ← requiredId request.workId "work_id"
  match ← work rows.planning context.projectId workId with
  | none => .error (.notFound "work" workId)
  | some item => do
    refuse (item.lifecycle.isTerminal = true) (.invalid "only draft or open work can be assigned")
    insertAssignment authority context rows
      (plannedAssignment context id ⟨request.cycleId⟩ ⟨workId⟩ none) request.reason

def findAssignment (id : String) : Except StoreError CycleAssignmentV3Record :=
  match assignments.find? (·.id = id) with
  | none => .error (.notFound "cycle_assignment" id)
  | some assignment => .ok assignment

def deferAssignment : Except StoreError CycleRows := do
  refuse (stored.lifecycle.isTerminal = true) (.invalid "terminal cycle scope is immutable")
  let id ← requiredId request.assignmentId "assignment_id"
  let assignment ← findAssignment assignments id
  refuse (assignment.state.isLive = false ∨
      assignmentTransitionAllowed assignment.state .removed = false)
    (.invalid "only a live assignment can be deferred")
  let rows ← setAssignmentState authority context rows assignment .removed assignment.predecessorId
    assignment.successorId request.reason
  appendCycleEvent authority context rows
    ⟨request.cycleId, "assignment_deferred", some stored.lifecycle, stored.lifecycle, request.reason,
      .object [("disposition", .string "deferred"), ("assignment_id", .string assignment.id),
        ("work_id", .string assignment.workId.value), ("task_outcome_changed", .bool false)]⟩

def stateText : CycleAssignmentState → String
  | .planned => "planned"
  | .committed => "committed"
  | .removed => "removed"
  | .completed => "completed"
  | .carriedOver => "carried_over"

def carryOver (assignment : CycleAssignmentV3Record) : Except StoreError CycleRows := do
  let target ← requiredId request.successorCycleId "successor_cycle_id"
  let successor ← requiredId request.successorAssignmentId "successor_assignment_id"
  refuse (target = request.cycleId) (.invalid "carry-over requires another cycle")
  match ← cycleV3 rows context.projectId target with
  | none => .error (.notFound "cycle" target)
  | some targetCycle => do
    refuse (targetCycle.lifecycle.isTerminal = true) (.invalid "carry-over target is terminal")
    let rows ← insertAssignment authority context rows
      (plannedAssignment context successor ⟨target⟩ assignment.workId (some assignment.id))
      request.reason
    setAssignmentState authority context rows assignment .carriedOver assignment.predecessorId
      (some successor) request.reason

def applyMove (assignment : CycleAssignmentV3Record) (next : CycleAssignmentState) :
    Except StoreError CycleRows :=
  if next = .carriedOver then carryOver authority context request rows assignment
  else setAssignmentState authority context rows assignment next assignment.predecessorId
    assignment.successorId request.reason

def moveAssignment (next : CycleAssignmentState) : Except StoreError CycleRows := do
  let id ← requiredId request.assignmentId "assignment_id"
  let assignment ← findAssignment assignments id
  refuse (assignmentTransitionAllowed assignment.state next = false)
    (.invalid "illegal commitment transition; history cannot be reset")
  refuse (stored.lifecycle.isTerminal = true) (.invalid "terminal cycle scope is immutable")
  refuse (next = .committed ∧ stored.lifecycle ≠ .active)
    (.invalid "activate the cycle before committing work")
  let rows ← applyMove authority context request rows assignment next
  appendCycleEvent authority context rows
    ⟨request.cycleId, request.change, some stored.lifecycle, stored.lifecycle, request.reason,
      .object [("assignment_id", .string id), ("next_state", .string (stateText next)),
        ("successor_cycle_id", optionalText request.successorCycleId)]⟩

def insertLegacySprint (legacy : String) : Except StoreError CycleRows := do
  [context.projectId, legacy, request.cycleId, context.operationId, request.reason,
    context.now].forM bindText
  checkTrimmed "reason" request.reason
  refuse ((context.projectId, legacy) ∈
      rows.legacySprints.map fun row => (row.projectId, row.sprintWorkId))
    (unique "boreal_legacy_sprint_cycle.project_id, boreal_legacy_sprint_cycle.sprint_work_id")
  refuse (context.operationId ∈ rows.legacySprints.map LegacySprintCycleRow.operationId)
    (unique "boreal_legacy_sprint_cycle.operation_id")
  return { rows with legacySprints := rows.legacySprints ++
    [⟨context.projectId, legacy, request.cycleId, context.operationId, request.reason, context.now⟩] }

def mapLegacy : Except StoreError CycleRows := do
  let legacy ← requiredId request.workId "work_id"
  match ← work rows.planning context.projectId legacy with
  | none => .error (.notFound "work" legacy)
  | some item => do
    refuse (item.kind ≠ .sprint) (.invalid "legacy mapping requires a sprint work row")
    let rows ← insertLegacySprint context request rows legacy
    appendCycleEvent authority context rows
      ⟨request.cycleId, "map_legacy", some stored.lifecycle, stored.lifecycle, request.reason,
        .object [("legacy_sprint_id", .string legacy), ("historical_work_preserved", .bool true),
          ("acceptance_created", .bool false)]⟩

def writeChange : Except StoreError CycleRows := do
  match ← cycleV3 rows context.projectId request.cycleId with
  | none => .error (.notFound "cycle" request.cycleId)
  | some stored => do
    let _ ← canonicalStatusTimestamp context.now
    let assignments ← cycleAssignmentsV3 rows context.projectId request.cycleId
    match CycleChange.ofText request.change with
    | some .activate => moveCycle authority context request rows stored assignments .activate
    | some .close => moveCycle authority context request rows stored assignments .close
    | some .cancel => moveCycle authority context request rows stored assignments .cancel
    | some .assign => assignWork authority context request rows stored
    | some .defer => deferAssignment authority context request rows stored assignments
    | some .commit => moveAssignment authority context request rows stored assignments .committed
    | some .remove => moveAssignment authority context request rows stored assignments .removed
    | some .carryOver =>
      moveAssignment authority context request rows stored assignments .carriedOver
    | some .mapLegacy => mapLegacy authority context request rows stored
    | none => .error (.invalid "unknown cycle change")

end Changes

inductive CycleCall
  | create (context : V3MutationContext) (input : OneOffCycleInput) (reason : String)
  | change (context : V3MutationContext) (request : CycleChangeRequest)

/-- The work rows and the accepted outcomes that a call meets; other commands write them. -/
structure WorkFacts where
  works : List WorkRecord
  accepted : List (String × String)

def SqliteStore.meet (store : SqliteStore CycleRows) (facts : WorkFacts) : SqliteStore CycleRows :=
  { store with rows := { store.rows with
      planning := { store.rows.planning with works := facts.works }
      accepted := facts.accepted } }

def CycleCall.context : CycleCall → V3MutationContext
  | create context _ _ => context
  | change context _ => context

section Operations
variable (authority : Authority) (checksum : Value → String) (store : SqliteStore CycleRows)
  (context : V3MutationContext)

def createRequest (input : OneOffCycleInput) (reason : String) : Value :=
  let c := input.cycle
  .object [("cycle", .object [("id", .string c.cycleId), ("name", .string c.name),
    ("goal", .string c.goal), ("start", integer c.scheduledStartUtcMs),
    ("end", orNull integer c.scheduledEndUtcMs), ("local", .string c.scheduledStartLocal),
    ("offset", integer c.scheduledStartUtcOffsetMinutes), ("timezone", .string c.timezone),
    ("tzdb", .string c.tzdbIdentity), ("fold", .string c.foldPolicy),
    ("series_id", .string c.seriesId), ("template_id", .string c.templateVersionId),
    ("anchor_date", .string input.anchorDate), ("anchor_time", .string input.anchorTime),
    ("weekday", natural input.anchorWeekday)]), ("reason", .string reason)]

def writeCycle (rows : CycleRows) (known : Prop) [Decidable known] (input : OneOffCycleInput)
    (reason : String) : Except StoreError CycleRows := do
  let c := input.cycle
  let rows ← insertSeries rows known c context.now
  let rows ← insertTemplate rows context.now input
  let rows ← insertCycle rows c context.now
  appendCycleEvent authority context rows
    ⟨c.cycleId, "created", none, .planned, reason,
      .object [("timezone", .string c.timezone), ("tzdb_identity", .string c.tzdbIdentity)]⟩

def createMutation (input : OneOffCycleInput) (reason : String) : Mutation CycleRows where
  context := context.withPayload checksum (createRequest input reason)
  command := "cycle.create"
  subjectType := "cycle"
  subjectId := input.cycle.cycleId
  roles := [.operator]
  write := fun store => writeCycle authority context store.rows
    (store.revisions input.cycle.projectId).isSome input reason

def createOneoffCycle (input : OneOffCycleInput) (reason : String) :
    Except StoreError MutationResult × SqliteStore CycleRows :=
  let c := input.cycle
  if c.projectId ≠ context.projectId ∨ c.lifecycle ≠ .planned ∨ c.slotOrdinal ≠ 0 ∨
      isBlank c.name ∨ isBlank reason then
    (.error (.invalid "a new cycle requires its project, name, reason and planned slot zero"), store)
  else factMutation authority store (createMutation authority checksum context input reason)

def changeRequest (request : CycleChangeRequest) : Value :=
  .object [("cycle_id", .string request.cycleId), ("change", .string request.change),
    ("assignment_id", optionalText request.assignmentId), ("work_id", optionalText request.workId),
    ("successor_cycle_id", optionalText request.successorCycleId),
    ("successor_assignment_id", optionalText request.successorAssignmentId),
    ("reason", .string request.reason), ("confirmed", .bool request.confirmed)]

def changeMutation (request : CycleChangeRequest) : Mutation CycleRows where
  context := context.withPayload checksum (changeRequest request)
  command := "cycle." ++ request.change
  subjectType := "cycle"
  subjectId := request.cycleId
  roles := [.operator]
  write := fun store => writeChange authority context request store.rows

def changeCycle (request : CycleChangeRequest) :
    Except StoreError MutationResult × SqliteStore CycleRows :=
  if isBlank request.reason ∨ ¬ request.confirmed then
    (.error (.invalid "cycle changes require a reason and explicit confirmation"), store)
  else factMutation authority store (changeMutation authority checksum context request)

def performCycle (call : WorkFacts × CycleCall) :
    Except StoreError MutationResult × SqliteStore CycleRows :=
  match call.2 with
  | .create context input reason =>
    createOneoffCycle authority checksum (store.meet call.1) context input reason
  | .change context request =>
    changeCycle authority checksum (store.meet call.1) context request

end Operations

end Boreal.Store
