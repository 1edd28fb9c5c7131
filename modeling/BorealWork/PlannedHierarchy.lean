/- What a planned operation leaves of a valid hierarchy. The checks of a planner cover the collection
it writes; dependencies and assignments also rest on direct work, which an edit may take from them. -/
import BorealWork.HierarchyPlanning

namespace Boreal.Planning
open Drain JsonValue WorkModel

section Dependencies

def Fits (byId : WorkIndex) (edge : DirectDependency) : Prop :=
  ∃ projectId, DirectWork byId projectId edge.blockerId ∧ DirectWork byId projectId edge.blockedId

variable {byId byId' : WorkIndex} {dependencies : List DirectDependency} {edges : Std.TreeSet Arc}

theorem checkDependencies_fits (passed : checkDependencies byId dependencies edges = .ok ()) :
    ∀ edge ∈ dependencies, Fits byId edge := by
  induction dependencies generalizing edges with
  | nil => exact List.forall_mem_nil _
  | cons edge rest ih =>
    rw [checkDependencies] at passed
    cases found₁ : byId[edge.blockerId]? with
    | none => simp [found₁] at passed
    | some blocker => cases found₂ : byId[edge.blockedId]? with
      | none => simp [found₁, found₂] at passed
      | some blocked =>
        simp only [found₁, found₂] at passed
        split_ifs at passed with scope direct
        rw [not_not] at scope
        rw [Bool.not_eq_true, Bool.or_eq_false_iff, Bool.not_eq_false', Bool.not_eq_false'] at direct
        exact List.forall_mem_cons.mpr ⟨⟨blocked.projectId, ⟨blocker, found₁, scope, direct.1⟩,
          ⟨blocked, found₂, rfl, direct.2⟩⟩, ih passed⟩

theorem checkDependencies_moved (passed : checkDependencies byId dependencies edges = .ok ())
    (fits : ∀ edge ∈ dependencies, Fits byId' edge) :
    checkDependencies byId' dependencies edges = .ok () := by
  induction dependencies generalizing edges with
  | nil => rfl
  | cons edge rest ih =>
    rw [List.forall_mem_cons] at fits
    obtain ⟨projectId, ⟨blocker', found₁', scope₁, direct₁⟩, blocked', found₂', scope₂, direct₂⟩ := fits.1
    rw [checkDependencies] at passed
    cases found₁ : byId[edge.blockerId]? with
    | none => simp [found₁] at passed
    | some blocker => cases found₂ : byId[edge.blockedId]? with
      | none => simp [found₁, found₂] at passed
      | some blocked =>
        simp only [found₁, found₂] at passed
        split_ifs at passed with scope direct duplicate cycle
        simp only [checkDependencies, found₁', found₂', scope₁, scope₂, direct₁, direct₂, ne_eq,
          not_true_eq_false, if_false, Bool.not_true, Bool.or_false, Bool.false_eq_true]
        rw [if_neg duplicate, if_neg cycle]
        exact ih passed fits.2

theorem validateDirectDependencies_eq_ok {nodes : List WorkNode} :
    validateDirectDependencies nodes dependencies = .ok () ↔ validateDecomposition nodes = .ok () ∧
      checkDependencies (nodes.foldl (Lookup.indexBy WorkNode.id) ∅) dependencies ∅ = .ok () := by
  rw [validateDirectDependencies]
  cases decomposed : validateDecomposition nodes with
  | error error => simp
  | ok done => simp

end Dependencies

section Assignments

def Seated (cycles : CycleIndex) (nodes : WorkIndex) (assignment : CycleAssignment) : Prop :=
  DirectWork nodes assignment.projectId assignment.workId ∧
    ∃ cycle, cycles[assignment.cycleId]? = some cycle ∧ cycle.projectId = assignment.projectId ∧
      ¬ (cycle.lifecycle.isTerminal = true ∧ assignment.state.isLive = true)

variable {cycles cycles' : CycleIndex} {nodes nodes' : WorkIndex}

variable {pass pass' : AssignmentPass}

theorem checkAssignment_seated {assignment : CycleAssignment}
    (passed : checkAssignment cycles nodes pass assignment = .ok pass') :
    Seated cycles nodes assignment := by
  obtain ⟨-, passed⟩ := check_eq_ok.mp passed
  split at passed
  · cases passed
  next cycle foundCycle =>
    split at passed
    · cases passed
    next work foundWork =>
      obtain ⟨scope, passed⟩ := check_eq_ok.mp passed
      obtain ⟨direct, passed⟩ := check_eq_ok.mp passed
      obtain ⟨open_, -⟩ := check_eq_ok.mp passed
      have scope := refuse_eq_ok.mp scope
      rw [not_or, not_not, not_not] at scope
      exact ⟨⟨work, foundWork, scope.2.symm, Bool.not_eq_false _ |>.mp (refuse_eq_ok.mp direct)⟩,
        cycle, foundCycle, scope.1.symm, refuse_eq_ok.mp open_⟩

theorem checkAssignment_moved {assignment : CycleAssignment}
    (passed : checkAssignment cycles nodes pass assignment = .ok pass')
    (seated : Seated cycles' nodes' assignment) :
    checkAssignment cycles' nodes' pass assignment = .ok pass' := by
  obtain ⟨⟨work', foundWork', scope', direct'⟩, cycle', foundCycle', project', open'⟩ := seated
  obtain ⟨unique, passed⟩ := check_eq_ok.mp passed
  refine check_eq_ok.mpr ⟨unique, ?_⟩
  split at passed
  · cases passed
  next cycle foundCycle =>
    split at passed
    · cases passed
    next work foundWork =>
      obtain ⟨-, passed⟩ := check_eq_ok.mp passed
      obtain ⟨-, passed⟩ := check_eq_ok.mp passed
      obtain ⟨-, passed⟩ := check_eq_ok.mp passed
      rw [foundCycle', foundWork']
      refine check_eq_ok.mpr ⟨refuse_of_not ?_, ?_⟩
      · rw [project', scope']
        simp
      · exact check_eq_ok.mpr ⟨refuse_of_not (by simp [direct']),
          check_eq_ok.mpr ⟨refuse_of_not open', passed⟩⟩

variable {assignments : List CycleAssignment}

theorem assignments_seated (passed : assignments.foldlM (checkAssignment cycles nodes) pass = .ok pass') :
    ∀ assignment ∈ assignments, Seated cycles nodes assignment := by
  induction assignments generalizing pass with
  | nil => exact List.forall_mem_nil _
  | cons assignment rest ih =>
    rw [List.foldlM_cons, bind_eq_ok] at passed
    obtain ⟨next, first, later⟩ := passed
    exact List.forall_mem_cons.mpr ⟨checkAssignment_seated first, ih later⟩

theorem assignments_moved (passed : assignments.foldlM (checkAssignment cycles nodes) pass = .ok pass')
    (seated : ∀ assignment ∈ assignments, Seated cycles' nodes' assignment) :
    assignments.foldlM (checkAssignment cycles' nodes') pass = .ok pass' := by
  induction assignments generalizing pass with
  | nil => exact passed
  | cons assignment rest ih =>
    rw [List.forall_mem_cons] at seated
    rw [List.foldlM_cons, bind_eq_ok] at passed ⊢
    obtain ⟨next, first, later⟩ := passed
    exact ⟨next, checkAssignment_moved first seated.1, ih later seated.2⟩

def Linked (assignments : List CycleAssignment) : Prop :=
  assignments.forM (checkLineage (assignments.foldl (Lookup.indexBy (·.id)) ∅)) = .ok () ∧
    ∃ traversed, assignments.foldlM (checkChain (assignments.foldl (Lookup.indexBy (·.id)) ∅)
      (assignments.length + 1)) [] = .ok traversed

theorem validateCycleAssignments_eq_ok {cycles : List Cycle} {nodes : List WorkNode} :
    validateCycleAssignments cycles nodes assignments = .ok () ↔ validateDecomposition nodes = .ok () ∧
      (∃ pass, assignments.foldlM (checkAssignment (cycles.foldl (Lookup.indexBy (·.id)) ∅)
        (nodes.foldl (Lookup.indexBy WorkNode.id) ∅)) ⟨∅, ∅⟩ = .ok pass) ∧ Linked assignments := by
  rw [validateCycleAssignments, check_eq_ok, mapError_eq_ok, bind_eq_ok, Linked]
  refine and_congr_right fun _ => ?_
  constructor
  · rintro ⟨pass, passed, rest⟩
    obtain ⟨linked, rest⟩ := check_eq_ok.mp rest
    obtain ⟨traversed, walked, -⟩ := bind_eq_ok.mp rest
    exact ⟨⟨pass, passed⟩, linked, traversed, walked⟩
  · rintro ⟨⟨pass, passed⟩, linked, traversed, walked⟩
    exact ⟨pass, passed, check_eq_ok.mpr ⟨linked, bind_eq_ok.mpr ⟨traversed, walked, rfl⟩⟩⟩

end Assignments

section Snapshots

def workIndex (nodes : List WorkNode) : WorkIndex := nodes.foldl (Lookup.indexBy WorkNode.id) ∅

def cycleIndex (cycles : List Cycle) : CycleIndex := cycles.foldl (Lookup.indexBy (·.id)) ∅

structure Valid (snapshot : HierarchySnapshot) : Prop where
  decomposed : validateDecomposition snapshot.nodes = .ok ()
  dependencies : checkDependencies (workIndex snapshot.nodes) snapshot.dependencies ∅ = .ok ()
  assigned : ∃ pass, snapshot.assignments.foldlM
    (checkAssignment (cycleIndex snapshot.cycles) (workIndex snapshot.nodes)) ⟨∅, ∅⟩ = .ok pass
  linked : Linked snapshot.assignments

theorem validate_eq_ok {snapshot : HierarchySnapshot} : snapshot.validate = .ok () ↔ Valid snapshot := by
  rw [HierarchySnapshot.validate, check_eq_ok, check_eq_ok, mapError_eq_ok, mapError_eq_ok, mapError_eq_ok,
    validateDirectDependencies_eq_ok, validateCycleAssignments_eq_ok]
  constructor
  · rintro ⟨decomposed, ⟨-, dependencies⟩, -, assigned, linked⟩
    exact ⟨decomposed, dependencies, assigned, linked⟩
  · rintro ⟨decomposed, dependencies, assigned, linked⟩
    exact ⟨decomposed, ⟨decomposed, dependencies⟩, decomposed, assigned, linked⟩

variable {snapshot after : HierarchySnapshot}

theorem Valid.fits (valid : Valid snapshot) :
    ∀ edge ∈ snapshot.dependencies, Fits (workIndex snapshot.nodes) edge :=
  checkDependencies_fits valid.dependencies

theorem Valid.seated (valid : Valid snapshot) : ∀ assignment ∈ snapshot.assignments,
    Seated (cycleIndex snapshot.cycles) (workIndex snapshot.nodes) assignment :=
  assignments_seated valid.assigned.choose_spec

theorem Valid.moved_iff (valid : Valid snapshot) (decomposed : validateDecomposition after.nodes = .ok ())
    (dependencies : after.dependencies = snapshot.dependencies)
    (assignments : after.assignments = snapshot.assignments) :
    Valid after ↔ (∀ edge ∈ snapshot.dependencies, Fits (workIndex after.nodes) edge) ∧
      ∀ assignment ∈ snapshot.assignments,
        Seated (cycleIndex after.cycles) (workIndex after.nodes) assignment := by
  constructor
  · intro held
    exact ⟨dependencies ▸ held.fits, assignments ▸ held.seated⟩
  · rintro ⟨fits, seated⟩
    obtain ⟨pass, assigned⟩ := valid.assigned
    refine ⟨decomposed, ?_, ⟨pass, ?_⟩, ?_⟩
    · rw [dependencies]
      exact checkDependencies_moved valid.dependencies fits
    · rw [assignments]
      exact assignments_moved assigned seated
    · rw [assignments]
      exact valid.linked

end Snapshots

section Edits

variable {snapshot : HierarchySnapshot} {node updated : WorkNode}

theorem workIndex_replaced (found : snapshot.nodes.find? (·.id = updated.id) = some node)
    (distinct : (snapshot.nodes.map WorkNode.id).Nodup) (id : WorkId) :
    (workIndex (snapshot.replaced updated))[id]? =
      if id = updated.id then some updated else (workIndex snapshot.nodes)[id]? := by
  have listed := (Lookup.find?_eq_some_iff distinct).mp found
  have indexed : (workIndex snapshot.nodes)[updated.id]? = some node :=
    (Lookup.getElem?_foldl_indexBy distinct (by simp)).mpr (.inr listed)
  have kept : ((snapshot.replaced updated).map WorkNode.id).Nodup := by
    obtain ⟨before, rest, split, replaced⟩ := Lookup.set_findIdx updated found
    rw [HierarchySnapshot.replaced, replaced]
    rw [split] at distinct
    simpa only [List.map_append, List.map_cons, listed.2] using distinct
  have present : updated ∈ snapshot.replaced updated := by
    obtain ⟨before, rest, -, replaced⟩ := Lookup.set_findIdx updated found
    rw [HierarchySnapshot.replaced, replaced]
    exact List.mem_append_right _ List.mem_cons_self
  split_ifs with here
  · rw [here]
    exact (Lookup.getElem?_foldl_indexBy kept (by simp)).mpr (.inr ⟨present, rfl⟩)
  · rcases Lookup.getElem?_index_set found id with same | ⟨own, -⟩
    · exact same
    · exact absurd own here

theorem updated_direct (found : snapshot.nodes.find? (·.id = updated.id) = some node)
    (distinct : (snapshot.nodes.map WorkNode.id).Nodup) {projectId : ProjectId} {id : WorkId}
    (direct : DirectWork (workIndex (snapshot.replaced updated)) projectId id) (here : id = updated.id) :
    updated.isDirect = true := by
  obtain ⟨other, lookup, -, kept⟩ := direct
  rw [workIndex_replaced found distinct, if_pos here] at lookup
  exact Option.some.inj lookup ▸ kept

theorem directWork_replaced (found : snapshot.nodes.find? (·.id = updated.id) = some node)
    (distinct : (snapshot.nodes.map WorkNode.id).Nodup) (scope : updated.projectId = node.projectId)
    {projectId : ProjectId} {id : WorkId} (direct : DirectWork (workIndex snapshot.nodes) projectId id)
    (kept : id = updated.id → updated.isDirect = true) :
    DirectWork (workIndex (snapshot.replaced updated)) projectId id := by
  obtain ⟨old, lookup, project, straight⟩ := direct
  by_cases here : id = updated.id
  · have listed := (Lookup.find?_eq_some_iff distinct).mp found
    have indexed : (workIndex snapshot.nodes)[id]? = some node :=
      (Lookup.getElem?_foldl_indexBy distinct (by simp)).mpr (.inr (here ▸ listed))
    obtain rfl := Option.some.inj (indexed.symm.trans lookup)
    exact ⟨updated, by rw [workIndex_replaced found distinct, if_pos here], scope.trans project, kept here⟩
  · exact ⟨old, by rw [workIndex_replaced found distinct, if_neg here, lookup], project, straight⟩

/-- No dependency ends at the work, and no assignment is of it. -/
def Unreferenced (snapshot : HierarchySnapshot) (workId : WorkId) : Prop :=
  (∀ edge ∈ snapshot.dependencies, edge.blockerId ≠ workId ∧ edge.blockedId ≠ workId) ∧
    ∀ assignment ∈ snapshot.assignments, assignment.workId ≠ workId

theorem replaced_valid_iff (valid : Valid snapshot)
    (found : snapshot.nodes.find? (·.id = updated.id) = some node)
    (scope : updated.projectId = node.projectId)
    (decomposed : validateDecomposition (snapshot.replaced updated) = .ok ()) :
    Valid { snapshot with nodes := snapshot.replaced updated } ↔
      updated.isDirect = true ∨ Unreferenced snapshot updated.id := by
  have distinct := (validateDecomposition_indexed valid.decomposed).1
  have moved := @Valid.moved_iff _ { snapshot with nodes := snapshot.replaced updated } valid
    decomposed rfl rfl
  rw [moved]
  cases kept : updated.isDirect with
  | true =>
    refine iff_of_true ⟨fun edge member => ?_, fun assignment member => ?_⟩ (.inl rfl)
    · obtain ⟨projectId, blocker, blocked⟩ := valid.fits edge member
      exact ⟨projectId, directWork_replaced found distinct scope blocker fun _ => kept,
        directWork_replaced found distinct scope blocked fun _ => kept⟩
    · obtain ⟨direct, cycle⟩ := valid.seated assignment member
      exact ⟨directWork_replaced found distinct scope direct fun _ => kept, cycle⟩
  | false =>
    have bent {projectId : ProjectId} {id : WorkId}
        (direct : DirectWork (workIndex (snapshot.replaced updated)) projectId id) : id ≠ updated.id :=
      fun here => Bool.false_ne_true (kept.symm.trans (updated_direct found distinct direct here))
    rw [or_iff_right Bool.false_ne_true, Unreferenced]
    refine and_congr (forall₂_congr fun edge member => ?_) (forall₂_congr fun assignment member => ?_)
    · obtain ⟨projectId, blocker, blocked⟩ := valid.fits edge member
      constructor
      · rintro ⟨_, blocker', blocked'⟩
        exact ⟨bent blocker', bent blocked'⟩
      · rintro ⟨source, target⟩
        exact ⟨projectId, directWork_replaced found distinct scope blocker fun here => absurd here source,
          directWork_replaced found distinct scope blocked fun here => absurd here target⟩
    · obtain ⟨direct, cycle⟩ := valid.seated assignment member
      constructor
      · rintro ⟨direct', -⟩
        exact bent direct'
      · intro other
        exact ⟨directWork_replaced found distinct scope direct fun here => absurd here other, cycle⟩

end Edits

section Cycles

variable {snapshot : HierarchySnapshot}

/-- The cycle that an id leads to may change, but not its project, and it must not come to its end. -/
def Continues (before after : CycleIndex) : Prop :=
  ∀ (id : Rollups.CycleId) (cycle : Cycle), before[id]? = some cycle →
    ∃ cycle' : Cycle, after[id]? = some cycle' ∧ cycle'.projectId = cycle.projectId ∧
    (cycle'.lifecycle.isTerminal = true → cycle.lifecycle.isTerminal = true)

variable {cycles : List Cycle}

theorem Valid.continued (valid : Valid snapshot)
    (continues : Continues (cycleIndex snapshot.cycles) (cycleIndex cycles)) :
    Valid { snapshot with cycles } := by
  have moved := @Valid.moved_iff _ { snapshot with cycles } valid valid.decomposed rfl rfl
  refine moved.mpr ⟨valid.fits, fun assignment member => ?_⟩
  obtain ⟨direct, cycle, found, scope, going⟩ := valid.seated assignment member
  obtain ⟨cycle', found', project, ended⟩ := continues _ cycle found
  exact ⟨direct, cycle', found', project.trans scope, fun closed => going ⟨ended closed.1, closed.2⟩⟩

theorem continues_added {cycle : Cycle} (fresh : cycle.id ∉ cycles.map (·.id)) :
    Continues (cycleIndex cycles) (cycleIndex (cycles ++ [cycle])) := by
  intro id old found
  refine ⟨old, ?_, rfl, fun ended => ended⟩
  have other : cycle.id ≠ id := by
    rintro rfl
    rw [cycleIndex, Lookup.getElem?_foldl_indexBy_last, Option.or_eq_some_iff] at found
    rcases found with listed | ⟨-, empty⟩
    · have here := List.find?_some listed
      have member := List.mem_reverse.mp (List.mem_of_find?_eq_some listed)
      exact fresh (List.mem_map.mpr ⟨old, member, of_decide_eq_true here⟩)
    · simp at empty
  rw [cycleIndex, List.foldl_append, List.foldl_cons, List.foldl_nil, Lookup.indexBy,
    Lookup.getElem?_insert_ne _ _ other]
  exact found

theorem continues_started {cycle started : Cycle} {instant : TimestampMs}
    (start : cycle.start instant = .ok started) (found : cycles.find? (·.id = cycle.id) = some cycle) :
    Continues (cycleIndex cycles) (cycleIndex (cycles.set (cycles.findIdx (·.id = started.id)) started)) := by
  obtain ⟨-, made⟩ := check_eq_ok.mp start
  obtain rfl := Except.ok.inj made
  intro id old lookup
  have place := @Lookup.getElem?_index_set _ _ _ (fun cycle : Cycle => cycle.id) cycles cycle
    { cycle with lifecycle := .active, actualStartedAt := some instant } found id
  rcases place with same | ⟨-, before, after⟩
  · exact ⟨old, same.trans lookup, rfl, fun ended => ended⟩
  · obtain rfl := Option.some.inj (before.symm.trans lookup)
    exact ⟨_, after, rfl, nofun⟩

end Cycles

section Calls

variable (hash : Value → String)

inductive PlanningCall
  | workEdit (request : WorkEditRequest)
  | dependencyChange (scope : PlanningScope) (operationId : String) (change : DependencyChange)
  | cycleCreate (request : CycleCreateRequest)
  | cycleActivation (request : CycleActivationRequest)
  deriving DecidableEq

def HierarchySnapshot.applied (snapshot : HierarchySnapshot) :
    PlanningCall → Except PlanningError HierarchySnapshot
  | .workEdit request => (planWorkEdit hash snapshot request).map fun planned =>
    { snapshot with nodes := snapshot.replaced planned.value }
  | .dependencyChange scope operationId change =>
    (planDependencyChange hash snapshot scope operationId change).map fun planned =>
      { snapshot with dependencies := planned.value }
  | .cycleCreate request => (planCycleCreate hash snapshot request).map fun planned =>
    { snapshot with cycles := snapshot.cycles ++ [planned.value] }
  | .cycleActivation request => (planCycleActivation hash snapshot request).map fun planned =>
    { snapshot with
      cycles := snapshot.cycles.set (snapshot.cycles.findIdx (·.id = planned.value.id)) planned.value }

/-- The call makes no container of work that a dependency or an assignment rests on. -/
def PlanningCall.KeepsDirectWork (snapshot : HierarchySnapshot) : PlanningCall → Prop
  | .workEdit request =>
    request.executionMode = some .container → Unreferenced snapshot request.workId
  | _ => True

variable {hash} {snapshot after : HierarchySnapshot}

theorem workEdit_valid_iff {request : WorkEditRequest} (valid : Valid snapshot)
    (applied : snapshot.applied hash (.workEdit request) = .ok after) :
    Valid after ↔ (PlanningCall.workEdit request).KeepsDirectWork snapshot := by
  obtain ⟨planned, plan, rfl⟩ := map_eq_ok.mp applied
  obtain ⟨-, plan⟩ := check_eq_ok.mp plan
  obtain ⟨node, found, plan⟩ := bind_eq_ok.mp plan
  obtain ⟨-, plan⟩ := check_eq_ok.mp plan
  obtain ⟨decomposed, made⟩ := check_eq_ok.mp plan
  obtain rfl := Except.ok.inj made
  rw [mapError_eq_ok] at decomposed
  have listed := found_eq_ok.mp found
  have here : node.id = request.workId := by
    have here := List.find?_some listed
    exact of_decide_eq_true here
  have distinct := (validateDecomposition_indexed valid.decomposed).1
  have indexed : (workIndex snapshot.nodes)[request.workId]? = some node :=
    (Lookup.getElem?_foldl_indexBy distinct (by simp)).mpr
      (.inr ((Lookup.find?_eq_some_iff distinct).mp listed))
  rw [← here] at listed
  refine (@replaced_valid_iff _ _ (request.updated node) valid listed rfl decomposed).trans ?_
  change _ ∨ Unreferenced snapshot node.id ↔ (_ → Unreferenced snapshot request.workId)
  rw [here]
  cases mode : request.executionMode with
  | some mode' =>
    cases mode' with
    | direct =>
      refine iff_of_true (.inl (by simp [WorkNode.isDirect, WorkEditRequest.updated, mode])) fun other => ?_
      cases other
    | container => simp [WorkNode.isDirect, WorkEditRequest.updated, mode]
  | none =>
    refine iff_of_true ?_ fun other => by cases other
    rw [WorkNode.isDirect, WorkEditRequest.updated, mode, Option.getD_none]
    -- a container before the edit carries neither dependencies nor assignments
    by_cases direct : node.executionMode = .direct
    · exact .inl (decide_eq_true direct)
    · have bent {projectId : ProjectId} {id : WorkId}
          (straight : DirectWork (workIndex snapshot.nodes) projectId id) : id ≠ request.workId := by
        rintro rfl
        obtain ⟨other, lookup, -, kept⟩ := straight
        obtain rfl := Option.some.inj (indexed.symm.trans lookup)
        exact direct (of_decide_eq_true kept)
      refine .inr ⟨fun edge member => ?_, fun assignment member => ?_⟩
      · obtain ⟨projectId, blocker, blocked⟩ := valid.fits edge member
        exact ⟨bent blocker, bent blocked⟩
      · exact bent (valid.seated assignment member).1

theorem dependencyChange_valid {scope : PlanningScope} {operationId : String} {change : DependencyChange}
    (valid : Valid snapshot)
    (applied : snapshot.applied hash (.dependencyChange scope operationId change) = .ok after) :
    Valid after := by
  obtain ⟨planned, plan, rfl⟩ := map_eq_ok.mp applied
  obtain ⟨-, plan⟩ := check_eq_ok.mp plan
  obtain ⟨dependencies, -, plan⟩ := bind_eq_ok.mp plan
  obtain ⟨checked, made⟩ := check_eq_ok.mp plan
  obtain rfl := Except.ok.inj made
  rw [mapError_eq_ok, validateDirectDependencies_eq_ok] at checked
  exact ⟨valid.decomposed, checked.2, valid.assigned, valid.linked⟩

theorem cycleCreate_valid {request : CycleCreateRequest} (valid : Valid snapshot)
    (applied : snapshot.applied hash (.cycleCreate request) = .ok after) : Valid after := by
  obtain ⟨planned, plan, rfl⟩ := map_eq_ok.mp applied
  obtain ⟨-, plan⟩ := check_eq_ok.mp plan
  obtain ⟨-, plan⟩ := check_eq_ok.mp plan
  obtain ⟨-, plan⟩ := check_eq_ok.mp plan
  obtain ⟨fresh, made⟩ := check_eq_ok.mp plan
  obtain rfl := Except.ok.inj made
  exact valid.continued (continues_added (refuse_eq_ok.mp fresh))

theorem cycleActivation_valid {request : CycleActivationRequest} (valid : Valid snapshot)
    (applied : snapshot.applied hash (.cycleActivation request) = .ok after) : Valid after := by
  obtain ⟨planned, plan, rfl⟩ := map_eq_ok.mp applied
  obtain ⟨-, plan⟩ := check_eq_ok.mp plan
  obtain ⟨cycle, found, plan⟩ := bind_eq_ok.mp plan
  obtain ⟨started, start, made⟩ := bind_eq_ok.mp plan
  obtain rfl := Except.ok.inj made
  have listed := found_eq_ok.mp found
  have here : cycle.id = request.cycleId := by
    have here := List.find?_some listed
    exact of_decide_eq_true here
  rw [← here] at listed
  exact valid.continued (continues_started (mapError_eq_ok.mp start) listed)

/-- Applied to a valid snapshot, a planned operation leaves a valid one, unless it is an edit that
makes a container of work on which dependencies or assignments rest. -/
theorem planned_hierarchy_valid_iff {call : PlanningCall} (valid : snapshot.validate = .ok ())
    (applied : snapshot.applied hash call = .ok after) :
    after.validate = .ok () ↔ call.KeepsDirectWork snapshot := by
  rw [validate_eq_ok] at valid ⊢
  cases call with
  | workEdit request => exact workEdit_valid_iff valid applied
  | dependencyChange scope operationId change =>
    exact iff_of_true (dependencyChange_valid valid applied) trivial
  | cycleCreate request => exact iff_of_true (cycleCreate_valid valid applied) trivial
  | cycleActivation request => exact iff_of_true (cycleActivation_valid valid applied) trivial

def operatorScope : PlanningScope := ⟨⟨"p-1"⟩, "operator", none, some 3⟩

def directTask (id : String) : WorkNode := ⟨⟨id⟩, ⟨"p-1"⟩, .task, .direct, none, id⟩

def linkedTasks : HierarchySnapshot where
  projectId := ⟨"p-1"⟩
  revision := 3
  nodes := [directTask "w-1", directTask "w-2"]
  dependencies := [⟨⟨"w-1"⟩, ⟨"w-2"⟩⟩]
  cycles := []
  assignments := []

def renameRequest : WorkEditRequest := ⟨operatorScope, "op-1", ⟨"w-2"⟩, none, some "next", none⟩

theorem renamed_valid : HierarchySnapshot.validate { linkedTasks with
    nodes := [directTask "w-1", { directTask "w-2" with title := "next" }] } = .ok () :=
  (@planned_hierarchy_valid_iff (fun _ => "sha256:") linkedTasks _ (.workEdit renameRequest)
    (by decide) (by decide)).mpr nofun

theorem containerEdit_invalid : linkedTasks.validate = .ok () ∧
    (linkedTasks.applied (fun _ => "sha256:")
      (.workEdit ⟨operatorScope, "op-2", ⟨"w-2"⟩, none, none, some .container⟩)).toOption.map
        HierarchySnapshot.validate =
      some (.error (.domain (.model (.dependencyEndpointNotDirect ⟨"w-1"⟩ ⟨"w-2"⟩)))) := by
  decide

end Calls

end Boreal.Planning
