/- The lineage diagnostics of a cycle's board: the links of each assignment read one by one, and the
successors from it on. -/
import BorealWork.CycleCommands
import BorealWork.LineageEdits
import BorealWork.MutationOutcomes

namespace Boreal.Store
open Drain WorkModel Sorting Orders
open Planning (Lineage CarriesOn nextOf)

structure StatusRecordDiagnostic where
  workId : String
  title : Option String
  code : String
  detail : String
  deriving DecidableEq

inductive LinkKind
  | predecessor
  | successor
  deriving DecidableEq

def LinkKind.text : LinkKind → String
  | predecessor => "predecessor"
  | successor => "successor"

section Board
variable (rows : CycleRows) (projectId cycleId : String) (assignment : CycleAssignmentV3Record)

def coherent (kind : LinkKind) (linked : CycleAssignmentV3Record) : Bool :=
  linked.projectId = assignment.projectId && linked.workId = assignment.workId &&
    linked.cycleId ≠ assignment.cycleId &&
    match kind with
    | .predecessor => linked.state = .carriedOver && linked.successorId = some assignment.id
    | .successor => linked.predecessorId = some assignment.id

/-- Rows read before are kept aside by the board; within one transaction they read the same again. -/
def linkDetails (kind : LinkKind) : Option String → List String
  | none => []
  | some linkedId => match cycleAssignmentV3ById rows projectId linkedId with
    | .error error => [s!"{kind.text} assignment {linkedId} is unreadable: {error.display}"]
    | .ok none => [s!"{kind.text} assignment {linkedId} is missing"]
    | .ok (some linked) =>
      if coherent assignment kind linked then []
      else [s!"{kind.text} assignment {linkedId} has inconsistent reciprocal or subject links"]

def lineageDetails : List String :=
  (if assignment.state = .carriedOver ∧ assignment.successorId = none then
      ["carried-over assignment has no successor link"] else []) ++
  (if assignment.state ≠ .carriedOver ∧ assignment.successorId ≠ none then
      ["only a carried-over assignment may name a successor"] else []) ++
  linkDetails rows projectId assignment .predecessor assignment.predecessorId ++
  linkDetails rows projectId assignment .successor assignment.successorId

def diagnosed (code detail : String) : StatusRecordDiagnostic :=
  ⟨assignment.workId.value, none, code, detail⟩

def lineageDiagnostics : List StatusRecordDiagnostic :=
  match lineageDetails rows projectId assignment with
  | [] => []
  | details => [diagnosed assignment "cycle_assignment_lineage_corrupt" ("; ".intercalate details)]

/-- The successor read at a place of the walk; the walk starts with the assignment as it is at hand. -/
def successorAt (cursor : String) : Except StoreError (Option String) :=
  if cursor = assignment.id then .ok assignment.successorId
  else do
    return (← cycleAssignmentV3ById rows projectId cursor).bind (·.successorId)

/-- Where no successor can be read the walk ends. -/
def nextAt (cursor : String) : Option String :=
  match successorAt rows projectId assignment cursor with
  | .ok next => next
  | .error _ => none

def chainWalk : Climb String :=
  climb (nextAt rows projectId assignment) [] (rows.assignments.length + 2) assignment.id

/-- A walk ends where it has been, where nothing can be read, or behind the last successor. -/
def chainDiagnostics : List StatusRecordDiagnostic :=
  match (chainWalk rows projectId assignment).current, (chainWalk rows projectId assignment).path with
  | some _, _ => [diagnosed assignment "cycle_assignment_lineage_cycle"
      "assignment successor links form a cycle"]
  | none, cursor :: _ => match successorAt rows projectId assignment cursor with
    | .error error => [diagnosed assignment "cycle_assignment_lineage_corrupt"
        s!"successor assignment {cursor} is unreadable: {error.display}"]
    | .ok _ => []
  | none, [] => []

def assignmentDiagnostics : Except StoreError (List StatusRecordDiagnostic) := do
  match ← cycleV3 rows projectId cycleId with
  | none => .error (.notFound "cycle" cycleId)
  | some _ => do
    let assignments ← cycleAssignmentsV3 rows projectId cycleId
    return assignments.flatMap fun assignment =>
      lineageDiagnostics rows projectId assignment ++ chainDiagnostics rows projectId assignment

end Board

section Reading
variable {rows : CycleRows} {projectId cycleId : String}

/-- What the primary keys and the bound texts of the tables promise. -/
structure Keyed (rows : CycleRows) : Prop where
  cycles : (rows.cycles.map CycleV3Record.cycleId).Nodup
  assignments : (rows.assignments.map (·.id)).Nodup
  boundCycles : ∀ c ∈ rows.cycles, bindText c.projectId = .ok () ∧ bindText c.cycleId = .ok ()
  boundAssignments : ∀ a ∈ rows.assignments, bindText a.id = .ok ()

def assignmentsOf (rows : CycleRows) (projectId : String) : List Planning.CycleAssignment :=
  (rows.assignments.filter fun row => row.projectId = ⟨projectId⟩).map (·.model)

theorem mem_assignmentsOf {m : Planning.CycleAssignment} :
    m ∈ assignmentsOf rows projectId ↔
      ∃ a ∈ rows.assignments, a.projectId = ⟨projectId⟩ ∧ a.model = m := by
  simp only [assignmentsOf, List.mem_map, List.mem_filter, decide_eq_true_eq, and_assoc]

theorem model_mem {a : CycleAssignmentV3Record} (member : a ∈ rows.assignments)
    (own : a.projectId = ⟨projectId⟩) : a.model ∈ assignmentsOf rows projectId :=
  mem_assignmentsOf.mpr ⟨a, member, own, rfl⟩

theorem cycleV3_eq_ok {found : Option CycleV3Record} :
    cycleV3 rows projectId cycleId = .ok found ↔ bindText projectId = .ok () ∧ bindText cycleId = .ok () ∧
      rows.cycles.find? (fun row => row.projectId = projectId ∧ row.cycleId = cycleId) = found := by
  rw [cycleV3, check_eq_ok, check_eq_ok]
  exact and_congr_right fun _ => and_congr_right fun _ => (Except.ok.injEq _ _).to_iff

theorem cycleAssignmentsV3_eq_ok {found : List CycleAssignmentV3Record} :
    cycleAssignmentsV3 rows projectId cycleId = .ok found ↔
      bindText projectId = .ok () ∧ bindText cycleId = .ok () ∧
      sortOn (·.id) (rows.assignments.filter fun row =>
        row.projectId = ⟨projectId⟩ ∧ row.cycleId = ⟨cycleId⟩) = found := by
  rw [cycleAssignmentsV3, check_eq_ok, check_eq_ok]
  exact and_congr_right fun _ => and_congr_right fun _ => (Except.ok.injEq _ _).to_iff

theorem mem_cycleAssignmentsV3 {found : List CycleAssignmentV3Record}
    (read : cycleAssignmentsV3 rows projectId cycleId = .ok found) {a : CycleAssignmentV3Record} :
    a ∈ found ↔ a ∈ rows.assignments ∧ a.projectId = ⟨projectId⟩ ∧ a.cycleId = ⟨cycleId⟩ := by
  obtain ⟨-, -, rfl⟩ := cycleAssignmentsV3_eq_ok.mp read
  rw [mem_sortOn, List.mem_filter, decide_eq_true_eq]

theorem cycleAssignmentV3ById_own (keyed : Keyed rows) (bound : bindText projectId = .ok ())
    {a : CycleAssignmentV3Record} (member : a ∈ rows.assignments) (own : a.projectId = ⟨projectId⟩) :
    cycleAssignmentV3ById rows projectId a.id = .ok (some a) := by
  rw [cycleAssignmentV3ById, check_eq_ok, check_eq_ok]
  refine ⟨bound, keyed.boundAssignments a member, congrArg Except.ok ?_⟩
  have found : rows.assignments.find? (fun row => row.projectId = ⟨projectId⟩ ∧ row.id = a.id) ≠ none := by
    intro missing
    exact List.find?_eq_none.mp missing a member (decide_eq_true ⟨own, rfl⟩)
  obtain ⟨row, found⟩ := Option.ne_none_iff_exists'.mp found
  have fits := List.find?_some found
  rw [decide_eq_true_eq] at fits
  rw [found, List.inj_on_of_nodup_map keyed.assignments (List.mem_of_find?_eq_some found) member fits.2]

end Reading

section Silence
variable {rows : CycleRows} {projectId cycleId : String} {assignment : CycleAssignmentV3Record}

theorem distinct_assignmentsOf (keyed : Keyed rows) :
    ((assignmentsOf rows projectId).map (·.id)).Nodup := by
  rw [assignmentsOf, List.map_map]
  exact (List.filter_sublist.map _).nodup keyed.assignments

theorem nextAt_leads {cursor : String} (onward : nextAt rows projectId assignment cursor ≠ none) :
    cursor = assignment.id ∨
      ∃ row ∈ rows.assignments, row.projectId = ⟨projectId⟩ ∧ row.id = cursor := by
  by_cases first : cursor = assignment.id
  · exact .inl first
  · right
    rw [nextAt, successorAt, if_neg first] at onward
    cases read : cycleAssignmentV3ById rows projectId cursor with
    | error error => exact absurd (by rw [read]; rfl) onward
    | ok found =>
      cases found with
      | none => exact absurd (by rw [read]; rfl) onward
      | some row =>
        rw [cycleAssignmentV3ById, check_eq_ok, check_eq_ok] at read
        have found := Except.ok.inj read.2.2
        have fits := List.find?_some found
        rw [decide_eq_true_eq] at fits
        exact ⟨row, List.mem_of_find?_eq_some found, fits⟩

theorem chainWalk_stopped (assignment : CycleAssignmentV3Record) :
    climbStep (nextAt rows projectId assignment) [] (chainWalk rows projectId assignment) = none := by
  apply @climb_stopped _ _ _ _ (assignment.id :: rows.assignments.map (·.id))
  · intro cursor onward
    rcases nextAt_leads onward with first | ⟨row, member, -, named⟩
    · exact first ▸ List.mem_cons_self
    · exact List.mem_cons_of_mem _ (List.mem_map.mpr ⟨row, member, named⟩)
  · rw [List.length_cons, List.length_map]

variable (keyed : Keyed rows) (bound : bindText projectId = .ok ())
  (lineage : Lineage (assignmentsOf rows projectId))
include keyed bound

theorem successorAt_own (member : assignment ∈ rows.assignments) {row : CycleAssignmentV3Record}
    (listed : row ∈ rows.assignments) (own : row.projectId = ⟨projectId⟩) :
    successorAt rows projectId assignment row.id = .ok row.successorId := by
  by_cases first : row.id = assignment.id
  · rw [successorAt, if_pos first, List.inj_on_of_nodup_map keyed.assignments listed member first]
  · rw [successorAt, if_neg first, cycleAssignmentV3ById_own keyed bound listed own]
    rfl

theorem nextAt_eq (member : assignment ∈ rows.assignments) (own : assignment.projectId = ⟨projectId⟩) :
    nextAt rows projectId assignment =
      nextOf ((assignmentsOf rows projectId).foldl (Lookup.indexBy (·.id)) ∅) := by
  funext cursor
  have distinct := @distinct_assignmentsOf _ projectId keyed
  by_cases listed : ∃ row ∈ rows.assignments, row.projectId = ⟨projectId⟩ ∧ row.id = cursor
  · obtain ⟨row, held, mine, rfl⟩ := listed
    rw [nextAt, successorAt_own keyed bound member held mine]
    exact (Planning.nextOf_eq distinct (model_mem held mine)).symm
  · have unread : nextAt rows projectId assignment cursor = none := by
      by_contra onward
      rcases nextAt_leads onward with rfl | found
      · exact listed ⟨assignment, member, own, rfl⟩
      · exact listed found
    have unknown : nextOf ((assignmentsOf rows projectId).foldl (Lookup.indexBy (·.id)) ∅) cursor = none := by
      by_contra onward
      obtain ⟨m, inside, named⟩ := List.mem_map.mp (Planning.nextOf_leads cursor onward)
      obtain ⟨row, held, mine, rfl⟩ := mem_assignmentsOf.mp inside
      exact listed ⟨row, held, mine, named⟩
    rw [unread, unknown]

include lineage

theorem lineageDetails_eq_nil (member : assignment ∈ rows.assignments)
    (own : assignment.projectId = ⟨projectId⟩) : lineageDetails rows projectId assignment = [] := by
  obtain ⟨carried, former, later⟩ := lineage.linked _ (model_mem member own)
  have behind : linkDetails rows projectId assignment .predecessor assignment.predecessorId = [] := by
    cases named : assignment.predecessorId with
    | none => rfl
    | some id =>
      obtain ⟨m, listed, rfl, onward⟩ := former id named
      obtain ⟨row, held, mine, rfl⟩ := mem_assignmentsOf.mp listed
      rw [linkDetails, cycleAssignmentV3ById_own keyed bound held mine]
      refine if_pos ?_
      simp [coherent, onward.sameProject, onward.sameWork, Ne.symm onward.otherCycle, onward.carried,
        onward.successor]
  have ahead : linkDetails rows projectId assignment .successor assignment.successorId = [] := by
    cases named : assignment.successorId with
    | none => rfl
    | some id =>
      obtain ⟨m, listed, rfl, onward⟩ := later id named
      obtain ⟨row, held, mine, rfl⟩ := mem_assignmentsOf.mp listed
      rw [linkDetails, cycleAssignmentV3ById_own keyed bound held mine]
      refine if_pos ?_
      simp [coherent, onward.sameProject, onward.sameWork, onward.otherCycle, onward.predecessor]
  rw [lineageDetails, behind, ahead, if_neg fun both => carried.mp both.1 both.2,
    if_neg fun both => both.1 (carried.mpr both.2)]
  rfl

theorem chainDiagnostics_eq_nil (member : assignment ∈ rows.assignments)
    (own : assignment.projectId = ⟨projectId⟩) : chainDiagnostics rows projectId assignment = [] := by
  have stopped := @chainWalk_stopped rows projectId assignment
  have founded : Founded (nextAt rows projectId assignment) assignment.id := by
    rw [nextAt_eq keyed bound member own]
    exact lineage.founded assignment.id
  have fresh := @climb_fresh _ _ _ [] _ founded (rows.assignments.length + 2)
  have ended : (chainWalk rows projectId assignment).current = none := by
    by_contra going
    obtain ⟨cursor, here⟩ := Option.ne_none_iff_exists'.mp going
    simp only [Orders.climbStep, here, List.not_mem_nil, false_or, ite_eq_left_iff, reduceCtorEq, imp_false,
      not_not] at stopped
    exact fresh cursor here stopped
  have read : (chainWalk rows projectId assignment).All
      fun cursor => ∃ row ∈ rows.assignments, row.projectId = ⟨projectId⟩ ∧ row.id = cursor := by
    refine climb_all ?_ _ ⟨assignment, member, own, rfl⟩
    rintro cursor next ⟨row, held, mine, rfl⟩ onward
    rw [nextAt, successorAt_own keyed bound member held mine] at onward
    obtain ⟨m, inside, named, -⟩ := (lineage.linked _ (model_mem held mine)).successor next onward
    obtain ⟨later, held', mine', rfl⟩ := mem_assignmentsOf.mp inside
    exact ⟨later, held', mine', named⟩
  rw [chainDiagnostics, ended]
  cases walked : (chainWalk rows projectId assignment).path with
  | nil => rfl
  | cons cursor rest =>
    obtain ⟨row, held, mine, rfl⟩ := read.1 cursor (walked ▸ List.mem_cons_self)
    simp only [successorAt_own keyed bound member held mine]

theorem assignmentDiagnostics_eq_nil {c : CycleV3Record} (listed : c ∈ rows.cycles)
    (own : c.projectId = projectId) : assignmentDiagnostics rows projectId c.cycleId = .ok [] := by
  obtain ⟨-, named⟩ := keyed.boundCycles c listed
  have found : rows.cycles.find? (fun row => row.projectId = projectId ∧ row.cycleId = c.cycleId) ≠ none := by
    intro missing
    exact List.find?_eq_none.mp missing c listed (decide_eq_true ⟨own, rfl⟩)
  obtain ⟨row, found⟩ := Option.ne_none_iff_exists'.mp found
  have read := cycleV3_eq_ok.mpr ⟨bound, named, found⟩
  have listed := (@cycleAssignmentsV3_eq_ok rows _ _ _).mpr ⟨bound, named, rfl⟩
  rw [assignmentDiagnostics, read, ok_bind]
  refine bind_eq_ok.mpr ⟨_, listed, congrArg Except.ok (List.flatMap_eq_nil_iff.mpr ?_)⟩
  intro a inside
  obtain ⟨member, mine, -⟩ := (mem_cycleAssignmentsV3 listed).mp inside
  rw [lineageDiagnostics, lineageDetails_eq_nil keyed bound lineage member mine,
    chainDiagnostics_eq_nil keyed bound lineage member mine]
  rfl

end Silence

end Boreal.Store
