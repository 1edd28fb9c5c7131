/- What of the manager's work asks for attention: the counts of a scope, the next action with what
blocks the others, and the next milestone, all rebuilt from the management records. -/
import BorealWork.ManagerDays
import BorealWork.StoreJournal

namespace JsonValue.Value

def getBool? (value : Value) (key : String) : Option Bool :=
  (value.get? key).bind fun | bool b => some b | _ => none

def getU64? (value : Value) (key : String) : Option ℕ :=
  (value.get? key).bind fun
    | number (.natural n) => if n < 2 ^ 64 then some n else none
    | _ => none

def getI64? (value : Value) (key : String) : Option ℤ :=
  (value.get? key).bind fun
    | number (.natural n) => if n < 2 ^ 63 then some n else none
    | number (.negative n) => if n < 2 ^ 63 then some (-(n + 1)) else none
    | _ => none

def getArray? (value : Value) (key : String) : Option (List Value) :=
  (value.get? key).bind fun | array items => some items | _ => none

/-- Values are told apart by their codes. -/
instance : DecidableEq Value := fun value other =>
  decidable_of_iff (value.code = other.code)
    ⟨fun same => (code_prefixFree value other [] [] (congrArg (· ++ []) same)).1, congrArg code⟩

end JsonValue.Value

namespace Boreal.GlobalManager
open JsonValue Sorting
open Source (utf8)
open Store (cutAt)
open TimeZones.GlobalTime (TzifZone civilDayFor)

inductive StatusCategory
  | «open» | active | waiting | blocked | completed | cancelled | inbox
  deriving DecidableEq

def StatusCategory.asStr : StatusCategory → String
  | .open => "open"
  | .active => "active"
  | .waiting => "waiting"
  | .blocked => "blocked"
  | .completed => "completed"
  | .cancelled => "cancelled"
  | .inbox => "inbox"

def StatusCategory.tryFrom (value : String) : Option StatusCategory :=
  [.open, .active, .waiting, .blocked, .completed, .cancelled, .inbox].find? (·.asStr = value)

inductive ManagementRelationshipKind
  | dependsOn | blocks | related
  deriving DecidableEq

/-- The error is the text of the domain's. -/
def ManagementRelationshipKind.tryFrom : String → Except String ManagementRelationshipKind
  | "depends_on" => .ok .dependsOn
  | "blocks" => .ok .blocks
  | "related" => .ok .related
  | value => .error ("unknown management relationship kind: " ++ value)

def prerequisiteToDependent (source target : String) : ManagementRelationshipKind → Option (String × String)
  | .blocks => some (source, target)
  | .dependsOn => some (target, source)
  | .related => none

inductive ManagementPrerequisiteState
  | satisfied | incomplete | archivedIncomplete | cancelled | missing
  deriving DecidableEq

def managementPrerequisiteState : Option StatusCategory → Bool → ManagementPrerequisiteState
  | some .completed, _ => .satisfied
  | some .cancelled, _ => .cancelled
  | some _, true => .archivedIncomplete
  | some _, false => .incomplete
  | none, _ => .missing

inductive DailyDeadline
  | overdue | dueToday | unscheduled | later | unknown
  deriving DecidableEq

structure DailyClassification where
  deadline : DailyDeadline
  waiting : Bool
  group : String
  deriving DecidableEq

structure GlobalCivilTimeContext where
  systemCivilDate : List UInt8
  zone : TzifZone
  /-- The sorting routine of the language, which the zone's rule is read with. -/
  sort : List (ℤ × ℤ) → List (ℤ × ℤ)

def dailyDeadline (time : GlobalCivilTimeContext) : Option String → DailyDeadline
  | none => .unscheduled
  | some value => match civilDayFor time.sort time.zone (utf8 value) with
      | none => .unknown
      | some day =>
        if day < time.systemCivilDate then .overdue
        else if day = time.systemCivilDate then .dueToday
        else .later

def dailyGroup (deadline : DailyDeadline) (waiting : Bool) : String :=
  match deadline with
  | .overdue => "overdue"
  | .dueToday => "due_today"
  | .unscheduled => if waiting then "waiting" else "unscheduled"
  | .later => if waiting then "waiting" else "later"
  | .unknown => if waiting then "waiting" else "unknown"

def classify (dueAt : Option String) (statusCategory : String) (time : GlobalCivilTimeContext) :
    DailyClassification :=
  let deadline := dailyDeadline time dueAt
  let waiting := statusCategory = "waiting"
  ⟨deadline, waiting, dailyGroup deadline waiting⟩

section Counting

/-- The counts of a scope, in the order of the answer's members. -/
@[ext]
structure Counts where
  «open» : ℕ
  waiting : ℕ
  overdue : ℕ
  dueToday : ℕ
  unscheduled : ℕ
  later : ℕ
  deriving DecidableEq

def Counts.none : Counts := ⟨0, 0, 0, 0, 0, 0⟩

def Counts.record (counts : Counts) (classification : DailyClassification) : Counts :=
  let counted := { counts with
    «open» := counts.open + 1
    waiting := if classification.waiting then counts.waiting + 1 else counts.waiting }
  match classification.deadline with
  | .overdue => { counted with overdue := counted.overdue + 1 }
  | .dueToday => { counted with dueToday := counted.dueToday + 1 }
  | .unscheduled => { counted with unscheduled := counted.unscheduled + 1 }
  | .later => { counted with later := counted.later + 1 }
  | .unknown => counted

def rows (state : Value) (key : String) : List Value := (state.getArray? key).getD []

variable (state : Value)

def itemCategory (item : Value) : Option StatusCategory := do
  let statusId ← item.getString? "status_id"
  let status ← (rows state "statuses").find? fun status =>
    status.getString? "project_id" = item.getString? "project_id" ∧
      status.getString? "status_id" = some statusId
  StatusCategory.tryFrom (← status.getString? "category")

def isArchived (row : Value) : Bool := row.getBool? "archived" = some true

def archivedProjects : List String :=
  ((rows state "projects").filter isArchived).filterMap (·.getString? "id")

def projectIds : List String := (rows state "projects").filterMap (·.getString? "id")

/-- The selected projects that there are, in the order of a set of them. -/
def included (selected : List String) : List String :=
  sortDedup id (selected.filter (· ∈ projectIds state))

/-- The counters of the loop over the items. -/
structure Tally where
  portfolio : Counts
  personal : Counts
  projects : List (String × Counts)

def Tally.record (tally : Tally) (owner : Option String) (classification : DailyClassification) : Tally where
  portfolio := tally.portfolio.record classification
  personal := if owner = none then tally.personal.record classification else tally.personal
  projects := tally.projects.map fun entry =>
    (entry.1, if owner = some entry.1 then entry.2.record classification else entry.2)

variable (time : GlobalCivilTimeContext)

def itemClassification (item : Value) : DailyClassification :=
  classify (item.getString? "due_at") ((itemCategory state item).elim "open" StatusCategory.asStr) time

def isClosed (item : Value) : Bool :=
  itemCategory state item = some .completed ∨ itemCategory state item = some .cancelled

def tallyItem (tally : Tally) (item : Value) : Tally :=
  if isArchived item ∨ isClosed state item then tally
  else if (item.getString? "project_id").any (· ∈ archivedProjects state) then tally
  else tally.record (item.getString? "project_id") (itemClassification state time item)

def tallyItems (selected : List String) : Tally :=
  (rows state "items").foldl (tallyItem state time)
    ⟨.none, .none, (included state selected).map fun id => (id, .none)⟩

end Counting

structure NextAction where
  itemId : Value
  title : String
  dueAt : Value
  priority : Value
  statusId : String
  statusLabel : String
  kind : Value

structure NextMilestone where
  itemId : Value
  title : String
  dueAt : Value
  completedChildren : ℕ
  totalChildren : ℕ

structure Blocker where
  itemId : String
  title : String
  statusId : String
  reasonCode : String
  reason : String

structure BlockedCandidate where
  itemId : String
  title : String
  prerequisites : List Blocker

structure Attention where
  counts : Counts
  nextAction : Option NextAction
  nextMilestone : Option NextMilestone
  blockedBy : List BlockedCandidate
  nextActionUnavailableReason : Option String

def emptyAttention (counts : Counts) : Attention := ⟨counts, none, none, [], none⟩

structure AttentionSummary where
  portfolio : Attention
  projects : List (String × Attention)
  projectsTotal : ℕ
  projectsLimit : ℕ
  projectsHasMore : Bool
  projectsTruncated : Bool
  personal : Attention

section Details

def maxBlockedCandidates : ℕ := 5

def maxBlockersPerCandidate : ℕ := 5

/-- The cut is made between characters, with room for a mark of three bytes. -/
def boundText (value : String) (maximumBytes : ℕ) : String :=
  if value.utf8ByteSize ≤ maximumBytes then value
  else String.ofList (cutAt (maximumBytes - 3) value.toList) ++ "…"

inductive AttentionScope
  | portfolio | project (id : String) | personal
  deriving DecidableEq

def AttentionScope.owns (scope : AttentionScope) (archivedProjects : List String) (item : Value) : Bool :=
  let owner := item.getString? "project_id"
  match scope with
  | .portfolio => owner.all (· ∉ archivedProjects)
  | .project id => owner = some id
  | .personal => owner = none

variable (state : Value) (time : GlobalCivilTimeContext)

def dueRank (item : Value) : ℕ :=
  match (itemClassification state time item).deadline with
  | .overdue => 0
  | .dueToday => 1
  | .later => 2
  | .unscheduled => 3
  | .unknown => 4

def idKey (item : Value) : WithBot String := item.getString? "id"

def actionOrder (item : Value) : ℕ ×ₗ ℕᵒᵈ ×ₗ ℤ ×ₗ WithBot String :=
  toLex (dueRank state time item, toLex (OrderDual.toDual ((item.getU64? "priority").getD 0),
    toLex ((item.getI64? "position").getD 0, idKey item)))

variable (scope : AttentionScope)

def isCandidate (item : Value) : Bool :=
  scope.owns (archivedProjects state) item ∧ ¬ isArchived item ∧
    (itemCategory state item = some .open ∨ itemCategory state item = some .active) ∧
    (item.getString? "kind" = some "task" ∨ item.getString? "kind" = some "subtask")

def candidates : List Value :=
  sortOn (actionOrder state time) ((rows state "items").filter (isCandidate state scope))

def textField (row : Value) (key missing : String) : Except String String :=
  (row.getString? key).elim (.error missing) .ok

def relationshipArc (relationship : Value) : Except String (Option (String × String)) := do
  let source ← textField relationship "source_id" "management relationship source is missing"
  let target ← textField relationship "target_id" "management relationship target is missing"
  let rawKind ← textField relationship "kind" "management relationship kind is missing"
  return prerequisiteToDependent source target (← ManagementRelationshipKind.tryFrom rawKind)

/-- The entries of the map from dependents to sets of prerequisites, in the order they are made. -/
def prerequisiteArcs : Except String (List (String × String)) := do
  return (← (rows state "relationships").mapM relationshipArc).reduceOption

def prerequisitesOf (arcs : List (String × String)) (dependent : String) : List String :=
  sortDedup id ((arcs.filter (·.2 = dependent)).map (·.1))

def itemById (id : String) : Option Value :=
  (rows state "items").reverse.find? fun item => item.getString? "id" = some id

def prerequisiteReasonCode : ManagementPrerequisiteState → String
  | .satisfied => "completed"
  | .incomplete => "not_completed"
  | .archivedIncomplete => "archived_incomplete"
  | .cancelled => "cancelled"
  | .missing => "missing"

def prerequisiteReason (readiness : ManagementPrerequisiteState) (status : String) : String :=
  let reason := match readiness with
    | .satisfied => "completed"
    | .incomplete => "not completed"
    | .archivedIncomplete => "archived before completion"
    | .cancelled => "cancelled; completion is still required"
    | .missing => "missing or unresolved"
  boundText (reason ++ " (status " ++ status ++ ")") 160

def prerequisiteReadiness (prerequisiteId : String) : ManagementPrerequisiteState :=
  let prerequisite := itemById state prerequisiteId
  managementPrerequisiteState (prerequisite.bind (itemCategory state)) (prerequisite.any isArchived)

def blocker (prerequisiteId : String) : Option Blocker :=
  let prerequisite := itemById state prerequisiteId
  let readiness := prerequisiteReadiness state prerequisiteId
  let status := (prerequisite.bind (·.getString? "status_id")).getD "unresolved"
  if readiness = .satisfied then none
  else some {
    itemId := prerequisiteId
    title := ((prerequisite.bind (·.getString? "title")).map (boundText · 160)).getD "Missing prerequisite"
    statusId := boundText status 80
    reasonCode := prerequisiteReasonCode readiness
    reason := prerequisiteReason readiness status }

def textOf (item : Value) (key : String) : String := (item.getString? key).getD ""

def blockersOf (arcs : List (String × String)) (candidate : Value) : List Blocker :=
  ((prerequisitesOf arcs (textOf candidate "id")).filterMap (blocker state)).take maxBlockersPerCandidate

def statusLabel (item : Value) : String :=
  let statusId := textOf item "status_id"
  let status := (rows state "statuses").find? fun status =>
    status.getString? "project_id" = item.getString? "project_id" ∧
      status.getString? "status_id" = some statusId
  (status.bind (·.getString? "label")).getD statusId

def nextAction (candidate : Value) : NextAction where
  itemId := (candidate.get? "id").getD .null
  title := boundText (textOf candidate "title") 160
  dueAt := (candidate.get? "due_at").getD .null
  priority := (candidate.get? "priority").getD .null
  statusId := textOf candidate "status_id"
  statusLabel := boundText (statusLabel state candidate) 160
  kind := (candidate.get? "kind").getD .null

def blockedCandidate (candidate : Value) (blocking : List Blocker) : BlockedCandidate :=
  ⟨textOf candidate "id", boundText (textOf candidate "title") 160, blocking⟩

/-- Up to the first candidate that nothing blocks, the candidates that are blocked are kept while there
is room for them. -/
def scanCandidates (arcs : List (String × String)) :
    List Value → List BlockedCandidate → Option NextAction × List BlockedCandidate
  | [], blocked => (none, blocked)
  | candidate :: rest, blocked =>
    match blockersOf state arcs candidate with
    | [] => (some (nextAction state candidate), blocked)
    | first :: more =>
      scanCandidates arcs rest
        (if blocked.length < maxBlockedCandidates then
          blocked ++ [blockedCandidate candidate (first :: more)] else blocked)

def milestones : List Value :=
  sortOn (actionOrder state time) ((rows state "items").filter fun item =>
    scope.owns (archivedProjects state) item ∧ item.getString? "kind" = some "milestone" ∧
      ¬ isArchived item ∧ ¬ isClosed state item)

def nextMilestone : Option NextMilestone :=
  (milestones state time scope).head?.map fun milestone =>
    let children := (rows state "items").filter fun child =>
      child.get? "parent_id" = milestone.get? "id" ∧ scope.owns (archivedProjects state) child
    { itemId := (milestone.get? "id").getD .null
      title := boundText (textOf milestone "title") 160
      dueAt := (milestone.get? "due_at").getD .null
      completedChildren := (children.filter fun child => itemCategory state child = some .completed).length
      totalChildren := children.length }

def populateAttentionDetails (summary : Attention) : Except String Attention := do
  let arcs ← prerequisiteArcs state
  let (action, blocked) := scanCandidates state arcs (candidates state time scope) []
  return { summary with
    nextAction := action
    nextMilestone := nextMilestone state time scope
    blockedBy := if action.isNone then blocked else summary.blockedBy
    nextActionUnavailableReason :=
      if action.isNone then
        some (if blocked.isEmpty then "no_open_action" else "unresolved_prerequisites")
      else summary.nextActionUnavailableReason }

end Details

section Summary

variable (state : Value) (selectedProjectIds : List String) (time : GlobalCivilTimeContext)

def projectAttention (entry : String × Counts) : Except String (String × Attention) := do
  if entry.1 ∈ archivedProjects state then return (entry.1, emptyAttention entry.2)
  return (entry.1, ← populateAttentionDetails state time (.project entry.1) (emptyAttention entry.2))

/-- A legacy entry for the personal work, which is no project, stands among the projects. -/
def withPersonalAlias (personal : Attention) (projects : List (String × Attention)) :
    List (String × Attention) :=
  if 0 < personal.counts.open ∧ "personal" ∉ projectIds state then
    projects.orderedInsert (·.1 ≤ ·.1) ("personal", personal)
  else projects

def attentionSummary : Except String AttentionSummary := do
  let tally := tallyItems state time selectedProjectIds
  let projects ← tally.projects.mapM (projectAttention state time)
  let personal ← populateAttentionDetails state time .personal (emptyAttention tally.personal)
  let portfolio ← populateAttentionDetails state time .portfolio (emptyAttention tally.portfolio)
  let projectsTotal := (projectIds state).length
  let projectsSampled := (included state selectedProjectIds).length
  return {
    portfolio
    projects := withPersonalAlias state personal projects
    projectsTotal
    projectsLimit := projectsSampled
    projectsHasMore := projectsSampled < projectsTotal
    projectsTruncated := projectsSampled < projectsTotal
    personal }

end Summary

end Boreal.GlobalManager
