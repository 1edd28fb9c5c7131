/- The assignments of a project over whole runs of cycle commands: which runs keep them a valid lineage,
that no ended cycle has a live one, and that the board has nothing to report. -/
import BorealWork.CycleWrites
import BorealWork.PlanningFrames

namespace Boreal.Store
open Drain WorkModel
open Planning (Lineage SameSubject Moved Carried validateCycleAssignments)

/-- A stored cycle as the domain reads it; its schedule begins at the epoch or later. -/
def cycleModel (record : CycleV3Record) : Except String Planning.Cycle := do
  refuse (record.scheduledStartUtcMs < 0 ∨ ∃ finish ∈ record.scheduledEndUtcMs, finish < 0)
    "cycle schedule timestamp is negative"
  return {
    id := ⟨record.cycleId⟩
    projectId := ⟨record.projectId⟩
    lifecycle := record.lifecycle
    scheduledStartAt := some ⟨record.scheduledStartUtcMs.toNat⟩
    scheduledEndAt := record.scheduledEndUtcMs.map fun finish => ⟨finish.toNat⟩
    name := record.name
    goal := record.goal
    actualStartedAt := none
    actualEndedAt := none }

structure Hosted (rows : CycleRows) (a : CycleAssignmentV3Record) : Prop where
  cycle : ∃ c ∈ rows.cycles, c.projectId = a.projectId.value ∧ c.cycleId = a.cycleId.value ∧
    ¬ (c.lifecycle.isTerminal = true ∧ a.state.isLive = true)
  task : ∃ n ∈ rows.planning.nodes, n.projectId = a.projectId.value ∧ n.workId = a.workId.value ∧
    n.decompositionKind = .task ∧ n.executionMode = .direct
  activation : a.activationPolicy = .explicitNotBefore → a.activationAt ≠ none

/-- What every command keeps of the tables. -/
structure Stored (projectId : String) (rows : CycleRows) : Prop where
  keyed : Keyed rows
  hosted : ∀ a ∈ rows.assignments, a.projectId = ⟨projectId⟩ → Hosted rows a

structure Committed (projectId : String) (rows : CycleRows) : Prop extends Stored projectId rows where
  lineage : Lineage (assignmentsOf rows projectId)

structure CommitmentsKept (rows : CycleRows) (projectId : String) : Prop where
  lineage : Lineage (assignmentsOf rows projectId)
  valid : ∀ cycles nodes, (rows.cycles.filter (·.projectId = projectId)).mapM cycleModel = .ok cycles →
    workNodesDomainV3 rows.planning projectId = .ok nodes → validateDecomposition nodes = .ok () →
    validateCycleAssignments cycles nodes (assignmentsOf rows projectId) = .ok ()
  ended : ∀ c ∈ rows.cycles, c.projectId = projectId → c.lifecycle.isTerminal = true →
    ∀ a ∈ assignmentsOf rows projectId, a.cycleId = ⟨c.cycleId⟩ → a.state.isLive = false
  silent : ∀ c ∈ rows.cycles, c.projectId = projectId →
    assignmentDiagnostics rows projectId c.cycleId = .ok []

/-- Assigned works have no live assignment, and no assignment that a close may complete has been
carried over from another cycle. -/
def Safe (rows : CycleRows) (projectId : String) (request : CycleChangeRequest) : Prop :=
  (request.change = "assign" → ∀ a ∈ assignmentsOf rows projectId, a.state.isLive = true →
    request.workId ≠ some a.workId.value) ∧
  (request.change = "close" → ∀ a ∈ assignmentsOf rows projectId, a.cycleId = ⟨request.cycleId⟩ →
    a.state.isLive = true → a.predecessorId = none)

def SafeCall (store : SqliteStore CycleRows) (call : WorkFacts × CycleCall) : Prop :=
  (∃ row ∈ store.operations, row.operationId = call.2.context.operationId) ∨
  match call.2 with
  | .create .. => True
  | .change context request => Safe store.rows context.projectId request

section Readers

variable {projectId : String} {rows : CycleRows}

theorem cycleModel_eq_ok {record : CycleV3Record} {cycle : Planning.Cycle}
    (read : cycleModel record = .ok cycle) : cycle.id = ⟨record.cycleId⟩ ∧
      cycle.projectId = ⟨record.projectId⟩ ∧ cycle.lifecycle = record.lifecycle := by
  obtain ⟨-, read⟩ := check_eq_ok.mp read
  obtain rfl := Except.ok.inj read
  exact ⟨rfl, rfl, rfl⟩

theorem keys_of_mapM {α β κ ε : Type} {f : α → Except ε β} {key : α → κ} {key' : β → κ} {l : List α}
    {r : List β} (converted : l.mapM f = .ok r) (same : ∀ a b, f a = .ok b → key' b = key a) :
    r.map key' = l.map key := by
  have paired := mapM_eq_ok.mp converted
  induction paired with
  | nil => rfl
  | cons here _ ih =>
    rw [List.map_cons, List.map_cons, same _ _ here, ih (mapM_eq_ok.mpr ‹_›)]

theorem mem_of_mapM {α β ε : Type} {f : α → Except ε β} {l : List α} {r : List β}
    (converted : l.mapM f = .ok r) {a : α} (member : a ∈ l) : ∃ b ∈ r, f a = .ok b :=
  exists_partner (mapM_eq_ok.mp converted).flip a member

theorem Committed.placed (committed : Committed projectId rows) {cycles : List Planning.Cycle}
    {nodes : List WorkNode}
    (readCycles : (rows.cycles.filter (·.projectId = projectId)).mapM cycleModel = .ok cycles)
    (readNodes : workNodesDomainV3 rows.planning projectId = .ok nodes)
    (decomposed : validateDecomposition nodes = .ok ()) :
    ∀ m ∈ assignmentsOf rows projectId, Planning.Placed (cycles.foldl (Lookup.indexBy (·.id)) ∅)
      (nodes.foldl (Lookup.indexBy WorkNode.id) ∅) m := by
  intro m listed
  obtain ⟨a, member, own, rfl⟩ := mem_assignmentsOf.mp listed
  obtain ⟨⟨c, stored, mine, named, runs⟩, ⟨n, held, here, called, kind, mode⟩, activation⟩ :=
    committed.hosted a member own
  rw [own] at mine here
  have distinct : (cycles.map (·.id)).Nodup := by
    apply List.Nodup.of_map TypedId.value
    rw [List.map_map]
    have keys : cycles.map (TypedId.value ∘ (·.id)) = _ :=
      keys_of_mapM readCycles fun _ _ read => congrArg TypedId.value (cycleModel_eq_ok read).1
    rw [keys]
    exact (List.filter_sublist.map _).nodup committed.keyed.cycles
  obtain ⟨cycle, inside, readCycle⟩ :=
    mem_of_mapM readCycles (List.mem_filter.mpr ⟨stored, decide_eq_true mine⟩)
  obtain ⟨cycleId, cycleProject, lifecycle⟩ := cycleModel_eq_ok readCycle
  obtain ⟨records, readRecords, converted⟩ := bind_eq_ok.mp readNodes
  obtain ⟨work, inside', readWork⟩ :=
    mem_of_mapM converted ((mem_workNodesV3 readRecords).mpr ⟨held, here⟩)
  obtain ⟨workId, workProject, workMode⟩ := workNodeOf_eq_ok readWork
  have absent {κ ν : Type} [LinearOrder κ] {k : κ} : (∅ : Std.TreeMap κ ν)[k]? = none :=
    Std.TreeMap.getElem?_emptyc
  refine ⟨⟨cycle, work, ?_, ?_, ?_, ?_, ?_, ?_⟩, activation⟩
  · refine (Lookup.getElem?_foldl_indexBy distinct fun _ _ => absent).mpr (.inr ⟨inside, ?_⟩)
    rw [cycleId, named]
  · refine (Lookup.getElem?_foldl_indexBy (validateDecomposition_indexed decomposed).1
      fun _ _ => absent).mpr (.inr ⟨inside', ?_⟩)
    rw [workId, called]
  · rw [cycleProject, mine, own]
  · rw [workProject, here, own]
  · rw [WorkNode.isDirect, workMode, mode]
    rfl
  · rw [lifecycle]
    exact runs

theorem Committed.kept (committed : Committed projectId rows) : CommitmentsKept rows projectId where
  lineage := committed.lineage
  valid := fun _ _ readCycles readNodes decomposed =>
    Planning.validateCycleAssignments_iff_lineage.mpr
      ⟨decomposed, committed.placed readCycles readNodes decomposed, committed.lineage⟩
  ended := by
    intro c stored mine terminal m listed named
    obtain ⟨a, member, own, rfl⟩ := mem_assignmentsOf.mp listed
    obtain ⟨c', stored', -, named', runs⟩ := (committed.hosted a member own).cycle
    have same : c'.cycleId = c.cycleId := by rw [named', named]
    rw [List.inj_on_of_nodup_map committed.keyed.cycles stored' stored same] at runs
    exact Bool.not_eq_true _ ▸ fun live => runs ⟨terminal, live⟩
  silent := by
    intro c stored mine
    have bound := (committed.keyed.boundCycles c stored).1
    rw [mine] at bound
    exact assignmentDiagnostics_eq_nil committed.keyed bound committed.lineage stored mine

end Readers

section Tables

variable {context : V3MutationContext} {request : CycleChangeRequest} {rows rows' : CycleRows}

/-- A row that keeps what it is about and when it starts. -/
structure Relabelled (row row' : CycleAssignmentV3Record) : Prop extends
    SameSubject row.model row'.model where
  activationPolicy : row'.activationPolicy = row.activationPolicy
  activationAt : row'.activationAt = row.activationAt

theorem relabelled_ite {p : Prop} [Decidable p] {row : CycleAssignmentV3Record}
    {next : CycleAssignmentState} {predecessor successor : Option String} {now : String} :
    Relabelled row (if p then row.moved next predecessor successor now else row) := by
  split
  · exact ⟨⟨rfl, rfl, rfl, rfl⟩, rfl, rfl⟩
  · exact ⟨⟨rfl, rfl, rfl, rfl⟩, rfl, rfl⟩

theorem relabelled_refl (row : CycleAssignmentV3Record) : Relabelled row row :=
  ⟨⟨rfl, rfl, rfl, rfl⟩, rfl, rfl⟩

def CycleV3Record.key (c : CycleV3Record) : String × String := (c.projectId, c.cycleId)

theorem updateCycle_keys (next : CycleLifecycle) :
    (updateCycle context request rows next).cycles.map CycleV3Record.key =
      rows.cycles.map CycleV3Record.key := by
  rw [updateCycle, List.map_map]
  apply List.map_congr_left
  intro c _
  rw [Function.comp]
  split <;> rfl

theorem Keyed.kept {cycles : List CycleV3Record} {assignments : List CycleAssignmentV3Record}
    (keyed : Keyed rows) (leaves : Leaves rows rows' cycles assignments)
    (keys : cycles.map CycleV3Record.key = rows.cycles.map CycleV3Record.key)
    (ids : assignments.map (·.id) = rows.assignments.map (·.id)) : Keyed rows' where
  cycles := by
    have same := congrArg (List.map Prod.snd) keys
    rw [List.map_map, List.map_map] at same
    rw [leaves.cycles]
    exact same ▸ keyed.cycles
  assignments := by
    rw [leaves.assignments, ids]
    exact keyed.assignments
  boundCycles := by
    intro c member
    rw [leaves.cycles] at member
    have listed := List.mem_map_of_mem (f := CycleV3Record.key) member
    rw [keys, List.mem_map] at listed
    obtain ⟨c', member', same⟩ := listed
    have bound : bindText c'.key.1 = .ok () ∧ bindText c'.key.2 = .ok () := keyed.boundCycles c' member'
    rw [same] at bound
    exact bound
  boundAssignments := by
    intro a member
    rw [leaves.assignments] at member
    have listed := List.mem_map_of_mem (f := fun row : CycleAssignmentV3Record => row.id) member
    rw [ids, List.mem_map] at listed
    obtain ⟨a', member', same⟩ := listed
    rw [← same]
    exact keyed.boundAssignments a' member'

theorem Stored.relabelled {projectId : String} {cycles : List CycleV3Record}
    {g : CycleAssignmentV3Record → CycleAssignmentV3Record} (stored : Stored projectId rows)
    (each : ∀ row, Relabelled row (g row)) (leaves : Leaves rows rows' cycles (rows.assignments.map g))
    (keys : cycles.map CycleV3Record.key = rows.cycles.map CycleV3Record.key)
    (hosts : ∀ row ∈ rows.assignments, row.projectId = ⟨projectId⟩ → ∀ c ∈ rows.cycles,
      c.key = (projectId, row.cycleId.value) → ∃ c' ∈ cycles, c'.key = c.key ∧
        (c'.lifecycle.isTerminal = true → (g row).state.isLive = true →
          c.lifecycle.isTerminal = true ∧ row.state.isLive = true)) : Stored projectId rows' where
  keyed := by
    apply stored.keyed.kept leaves keys
    rw [List.map_map]
    exact List.map_congr_left fun row _ => (each row).id
  hosted := by
    intro a listed own
    rw [leaves.assignments] at listed
    obtain ⟨row, member, rfl⟩ := List.mem_map.mp listed
    have mine : row.projectId = ⟨projectId⟩ := (each row).projectId.symm.trans own
    obtain ⟨⟨c, held, project, named, runs⟩, task, activation⟩ := stored.hosted row member mine
    rw [mine] at project
    obtain ⟨c', held', same, ends⟩ := hosts row member mine c held (Prod.ext project named)
    refine ⟨⟨c', leaves.cycles ▸ held', ?_, ?_, ?_⟩, ?_, ?_⟩
    · rw [own]
      exact (congrArg Prod.fst same).trans project
    · rw [(each row).cycleId]
      exact (congrArg Prod.snd same).trans named
    · exact fun both => runs (ends both.1 both.2)
    · rw [leaves.planning, (each row).projectId, (each row).workId]
      exact task
    · rw [(each row).activationPolicy, (each row).activationAt]
      exact activation

theorem Stored.joined {b : CycleAssignmentV3Record} (stored : Stored context.projectId rows)
    (insertable : Insertable context rows b) (policy : b.activationPolicy = .atCycleStart)
    (leaves : Leaves rows rows' rows.cycles (rows.assignments ++ [b])) :
    Stored context.projectId rows' where
  keyed := {
    cycles := leaves.cycles ▸ stored.keyed.cycles
    assignments := by
      rw [leaves.assignments, List.map_append, List.map_singleton, List.nodup_append_comm,
        List.singleton_append]
      exact List.nodup_cons.mpr ⟨insertable.fresh, stored.keyed.assignments⟩
    boundCycles := leaves.cycles ▸ stored.keyed.boundCycles
    boundAssignments := by
      rw [leaves.assignments]
      exact List.forall_mem_append.mpr
        ⟨stored.keyed.boundAssignments, List.forall_mem_singleton.mpr insertable.bound⟩ }
  hosted := by
    intro a listed own
    rw [leaves.assignments] at listed
    rcases List.mem_append.mp listed with member | new
    · obtain ⟨⟨c, held, here⟩, task, activation⟩ := stored.hosted a member own
      exact ⟨⟨c, leaves.cycles ▸ held, here⟩, leaves.planning ▸ task, activation⟩
    · obtain rfl := List.mem_singleton.mp new
      obtain ⟨c, held, project, named, runs⟩ := insertable.cycle
      obtain ⟨n, known, project', task⟩ := insertable.task
      refine ⟨⟨c, leaves.cycles ▸ held, ?_, named, ?_⟩, ⟨n, leaves.planning ▸ known, ?_, task⟩, ?_⟩
      · rw [own]
        exact project
      · rw [runs]
        exact fun both => Bool.false_ne_true both.1
      · rw [own]
        exact project'
      · rw [policy]
        exact nofun

theorem assignmentsOf_map {projectId : String} {g : CycleAssignmentV3Record → CycleAssignmentV3Record}
    (each : ∀ row, Relabelled row (g row)) (same : rows'.assignments = rows.assignments.map g) :
    assignmentsOf rows' projectId =
      (rows.assignments.filter fun row => row.projectId = ⟨projectId⟩).map fun row => (g row).model := by
  have own : (fun row : CycleAssignmentV3Record => decide (row.projectId = ⟨projectId⟩)) ∘ g =
      fun row => decide (row.projectId = ⟨projectId⟩) := by
    funext row
    rw [Function.comp, (each row).projectId]
  rw [assignmentsOf, same, List.filter_map, own, List.map_map]
  rfl

theorem assignmentsOf_append {projectId : String} {b : CycleAssignmentV3Record}
    (own : b.projectId = ⟨projectId⟩) (same : rows'.assignments = rows.assignments ++ [b]) :
    assignmentsOf rows' projectId = assignmentsOf rows projectId ++ [b.model] := by
  have kept : [b].filter (fun row => decide (row.projectId = ⟨projectId⟩)) = [b] :=
    List.filter_cons_of_pos (decide_eq_true own)
  rw [assignmentsOf, same, List.filter_append, kept, List.map_append]
  rfl

end Tables

section Writes

variable {context : V3MutationContext} {request : CycleChangeRequest} {rows rows' : CycleRows}
  {looked : List CycleAssignmentV3Record} {a row : CycleAssignmentV3Record}

theorem completed_cases (context : V3MutationContext) (looked : List CycleAssignmentV3Record)
    (row : CycleAssignmentV3Record) :
    (completed context looked row = row ∧
      ∀ b ∈ looked, b.state.isLive = true → isUnmoved context b row = false) ∨
    (completed context looked row = row.moved .completed none none context.now ∧
      ∃ b ∈ looked, b.state.isLive = true ∧ isUnmoved context b row = true) := by
  rw [completed]
  split
  · rename_i settled
    obtain ⟨b, listed, both⟩ := List.any_eq_true.mp settled
    rw [Bool.and_eq_true] at both
    exact .inr ⟨rfl, b, listed, both⟩
  · rename_i idle
    refine .inl ⟨rfl, fun b listed live => ?_⟩
    rw [Bool.not_eq_true, List.any_eq_false] at idle
    have other := idle b listed
    rw [live, Bool.true_and] at other
    exact Bool.not_eq_true _ ▸ other

theorem completed_relabels (row : CycleAssignmentV3Record) :
    Relabelled row (completed context looked row) :=
  relabelled_ite

theorem isUnmoved_iff : isUnmoved context a row = true ↔
    row.projectId = ⟨context.projectId⟩ ∧ row.id = a.id ∧ row.state = a.state := by
  rw [isUnmoved, decide_eq_true_eq]

theorem Keyed.unmoved (keyed : Keyed rows) (member : a ∈ rows.assignments) (listed : row ∈ rows.assignments)
    (unmoved : isUnmoved context a row = true) : row = a :=
  List.inj_on_of_nodup_map keyed.assignments listed member (isUnmoved_iff.mp unmoved).2.1

theorem moves_to (stays : a.state.isLive = true) {next : CycleAssignmentState} (ends : next ≠ .carriedOver)
    {now : String} : Moved a.model (a.moved next a.predecessorId a.successorId now).model where
  id := rfl
  workId := rfl
  projectId := rfl
  cycleId := rfl
  predecessorId := rfl
  successorId := rfl
  carried := iff_of_false ends (Planning.not_carried_of_live stays)
  live := fun _ => stays

variable (committed : Committed context.projectId rows)
include committed

theorem ended_stored {next : CycleLifecycle}
    (read : cycleAssignmentsV3 rows context.projectId request.cycleId = .ok looked)
    (leaves : Leaves rows rows' (updateCycle context request rows next).cycles
      (rows.assignments.map (completed context looked))) : Stored context.projectId rows' := by
  refine committed.toStored.relabelled completed_relabels leaves (updateCycle_keys next) ?_
  intro row member own c held named
  have mapped := List.mem_map_of_mem (f := fun c : CycleV3Record =>
    if c.projectId = context.projectId ∧ c.cycleId = request.cycleId then
      { c with lifecycle := next, updatedAt := context.now } else c) held
  refine ⟨_, mapped, ?_, ?_⟩
  · split <;> rfl
  · intro terminal live
    rcases completed_cases context looked row with ⟨same, idle⟩ | ⟨same, -⟩
    · rw [same] at live
      refine ⟨?_, live⟩
      rw [if_neg] at terminal
      · exact terminal
      · rintro ⟨-, here⟩
        have cycle : row.cycleId = ⟨request.cycleId⟩ := by
          rw [← here]
          exact congrArg TypedId.mk (congrArg Prod.snd named).symm
        have other := idle row ((mem_cycleAssignmentsV3 read).mpr ⟨member, own, cycle⟩) live
        rw [isUnmoved_iff.mpr ⟨own, rfl, rfl⟩] at other
        cases other
    · rw [same] at live
      cases live

theorem ended_lineage_iff {next : CycleLifecycle}
    (read : cycleAssignmentsV3 rows context.projectId request.cycleId = .ok looked)
    (leaves : Leaves rows rows' (updateCycle context request rows next).cycles
      (rows.assignments.map (completed context looked))) :
    Lineage (assignmentsOf rows' context.projectId) ↔
      ∀ a ∈ looked, a.state.isLive = true → a.predecessorId = none := by
  have same := @assignmentsOf_map rows rows' context.projectId _ completed_relabels leaves.assignments
  rw [same]
  constructor
  · intro after a inside live
    by_contra named
    obtain ⟨id, named⟩ := Option.ne_none_iff_exists'.mp named
    obtain ⟨member, own, -⟩ := (mem_cycleAssignmentsV3 read).mp inside
    obtain ⟨m, listed, -, onward⟩ := (committed.lineage.linked _ (model_mem member own)).predecessor id named
    obtain ⟨former, held, mine, rfl⟩ := mem_assignmentsOf.mp listed
    have kept : completed context looked former = former := by
      rcases completed_cases context looked former with ⟨kept, -⟩ | ⟨-, b, -, alive, unmoved⟩
      · exact kept
      · rw [← (isUnmoved_iff.mp unmoved).2.2] at alive
        exact absurd onward.carried (Planning.not_carried_of_live alive)
    have still : former.model ∈
        (rows.assignments.filter fun row => row.projectId = ⟨context.projectId⟩).map
          fun row => (completed context looked row).model :=
      List.mem_map.mpr ⟨former, List.mem_filter.mpr ⟨held, decide_eq_true mine⟩, by rw [kept]⟩
    -- the former assignment still names its successor, which no longer names it
    obtain ⟨later, listed', same', back⟩ := (after.linked _ still).successor _ onward.successor
    obtain ⟨row, held', rfl⟩ := List.mem_map.mp listed'
    have ids : row.id = a.id := (completed_relabels row).id.symm.trans same'
    rw [List.inj_on_of_nodup_map committed.keyed.assignments (List.mem_of_mem_filter held') member ids] at back
    rcases completed_cases context looked a with ⟨-, idle⟩ | ⟨settled, -⟩
    · cases (idle a inside live).symm.trans (isUnmoved_iff.mpr ⟨own, rfl, rfl⟩)
    · have linked := back.predecessor
      rw [settled] at linked
      cases linked
  · intro first
    refine Lineage.moved (fun row listed => ?_) committed.lineage
    obtain ⟨member, own⟩ := List.mem_filter.mp listed
    rcases completed_cases context looked row with ⟨kept, -⟩ | ⟨settled, b, inside, live, unmoved⟩
    · rw [kept]
      exact Moved.refl _
    · obtain rfl := committed.keyed.unmoved ((mem_cycleAssignmentsV3 read).mp inside).1 member unmoved
      rw [settled]
      refine ⟨⟨rfl, rfl, rfl, rfl⟩, (first row inside live).symm, ?_, ?_, nofun⟩
      · exact (committed.lineage.unfollowed (model_mem member (of_decide_eq_true own)) live).symm
      · exact iff_of_false nofun (Planning.not_carried_of_live live)

theorem moved_committed {next : CycleAssignmentState} (member : a ∈ rows.assignments)
    (live : a.state.isLive = true) (stays : next ≠ .carriedOver)
    (leaves : Leaves rows rows' rows.cycles (movedRows context rows a next a.predecessorId a.successorId)) :
    Committed context.projectId rows' where
  toStored := by
    refine committed.toStored.relabelled (fun row => relabelled_ite) leaves rfl ?_
    intro row listed _ c held named
    refine ⟨c, held, rfl, fun terminal alive => ⟨terminal, ?_⟩⟩
    split at alive
    · rename_i unmoved
      rw [committed.keyed.unmoved member listed unmoved]
      exact live
    · exact alive
  lineage := by
    rw [assignmentsOf_map (fun row => relabelled_ite) leaves.assignments]
    refine Lineage.moved (fun row listed => ?_) committed.lineage
    split
    · rename_i unmoved
      rw [committed.keyed.unmoved member (List.mem_of_mem_filter listed) unmoved]
      exact moves_to live stays
    · exact Moved.refl _

theorem carried_committed {successor target : String} (member : a ∈ rows.assignments)
    (own : a.projectId = ⟨context.projectId⟩) (live : a.state.isLive = true)
    (other : target ≠ a.cycleId.value)
    (insertable : Insertable context rows
      (plannedAssignment context successor ⟨target⟩ a.workId (some a.id)))
    (leaves : Leaves rows rows' rows.cycles (movedRows context { rows with assignments := rows.assignments ++
      [plannedAssignment context successor ⟨target⟩ a.workId (some a.id)] }
      a .carriedOver a.predecessorId (some successor))) : Committed context.projectId rows' where
  toStored := by
    have joined : Stored context.projectId { rows with assignments := rows.assignments ++
        [plannedAssignment context successor ⟨target⟩ a.workId (some a.id)] } :=
      committed.toStored.joined insertable rfl ⟨rfl, rfl, rfl, rfl⟩
    refine joined.relabelled (fun row => relabelled_ite) ⟨leaves.planning, leaves.accepted, leaves.cycles,
      leaves.assignments⟩ rfl ?_
    intro row listed _ c held named
    refine ⟨c, held, rfl, fun terminal alive => ⟨terminal, ?_⟩⟩
    split at alive
    · cases alive
    · exact alive
  lineage := by
    have apart : isUnmoved context a
        (plannedAssignment context successor ⟨target⟩ a.workId (some a.id)) = false := by
      rw [← Bool.not_eq_true, isUnmoved_iff]
      rintro ⟨-, same, -⟩
      apply insertable.fresh
      rw [same]
      exact List.mem_map_of_mem member
    have split : rows'.assignments = ({ rows with assignments := (movedRows context rows a .carriedOver
        a.predecessorId (some successor)) } : CycleRows).assignments ++
        [plannedAssignment context successor ⟨target⟩ a.workId (some a.id)] := by
      rw [leaves.assignments, movedRows, List.map_append, List.map_singleton, apart]
      rfl
    rw [@assignmentsOf_append _ _ context.projectId _ rfl split,
      assignmentsOf_map (fun row => relabelled_ite) rfl]
    refine Lineage.carried (List.mem_filter.mpr ⟨member, decide_eq_true own⟩) committed.lineage live ?_
      ?_ ?_ rfl rfl rfl rfl own.symm ?_
    · rw [if_pos (isUnmoved_iff.mpr ⟨own, rfl, rfl⟩)]
      exact ⟨⟨rfl, rfl, rfl, rfl⟩, rfl, rfl, rfl⟩
    · intro row _ differs
      rw [if_neg fun unmoved => differs (isUnmoved_iff.mp unmoved).2.1]
      exact Moved.refl _
    · rw [List.map_map]
      exact fun listed => insertable.fresh ((List.filter_sublist.map _).subset listed)
    · exact fun same => other (congrArg TypedId.value same)

theorem assigned_lineage_iff {id workId : String}
    (insertable : Insertable context rows
      (plannedAssignment context id ⟨request.cycleId⟩ ⟨workId⟩ none))
    (leaves : Leaves rows rows' rows.cycles
      (rows.assignments ++ [plannedAssignment context id ⟨request.cycleId⟩ ⟨workId⟩ none])) :
    Lineage (assignmentsOf rows' context.projectId) ↔
      ∀ m ∈ assignmentsOf rows context.projectId, m.state.isLive = true → m.workId ≠ ⟨workId⟩ := by
  rw [@assignmentsOf_append _ _ context.projectId _ rfl leaves.assignments]
  refine committed.lineage.append_iff ?_ rfl rfl rfl
  rw [assignmentsOf, List.map_map]
  exact fun listed => insertable.fresh ((List.filter_sublist.map _).subset listed)

theorem ChangeWritten.stored (written : ChangeWritten context request rows rows') :
    Stored context.projectId rows' := by
  cases written with
  | mapped _ leaves =>
    rw [← List.map_id' rows.assignments] at leaves
    refine committed.toStored.relabelled relabelled_refl leaves rfl ?_
    exact fun _ _ _ c held _ => ⟨c, held, rfl, fun terminal live => ⟨terminal, live⟩⟩
  | activated _ leaves =>
    rw [← List.map_id' rows.assignments] at leaves
    refine committed.toStored.relabelled relabelled_refl leaves (updateCycle_keys _) ?_
    intro row _ _ c held _
    refine ⟨_, List.mem_map_of_mem held, ?_, ?_⟩
    · split <;> rfl
    · split
      · exact fun terminal => absurd terminal Bool.false_ne_true
      · exact fun terminal live => ⟨terminal, live⟩
  | ended next looked _ _ read _ leaves => exact ended_stored committed read leaves
  | assigned id workId _ _ insertable leaves => exact committed.toStored.joined insertable rfl leaves
  | moved _ a next member own live stays leaves =>
    exact (moved_committed committed member live stays leaves).toStored
  | carried _ a successor target member own live other insertable leaves =>
    exact (carried_committed committed member own live other insertable leaves).toStored

omit committed in
theorem safe_of_plain {projectId : String} (plain : Plain request) : Safe rows projectId request :=
  ⟨fun assign => absurd assign plain.1, fun close => absurd close plain.2⟩

theorem ChangeWritten.lineage_iff (written : ChangeWritten context request rows rows') :
    Lineage (assignmentsOf rows' context.projectId) ↔ Safe rows context.projectId request := by
  cases written with
  | mapped plain leaves =>
    rw [assignmentsOf, leaves.assignments]
    exact iff_of_true committed.lineage (safe_of_plain plain)
  | activated plain leaves =>
    rw [assignmentsOf, leaves.assignments]
    exact iff_of_true committed.lineage (safe_of_plain plain)
  | ended next looked _ differs read only leaves =>
    rw [ended_lineage_iff committed read leaves]
    constructor
    · refine fun first => ⟨fun assign => absurd assign differs, fun _ m listed named live => ?_⟩
      obtain ⟨a, member, own, rfl⟩ := mem_assignmentsOf.mp listed
      exact first a ((mem_cycleAssignmentsV3 read).mpr ⟨member, own, named⟩) live
    · intro safe a inside live
      obtain ⟨member, own, named⟩ := (mem_cycleAssignmentsV3 read).mp inside
      exact safe.2 (only a inside live) a.model (model_mem member own) named live
  | assigned id workId change named insertable leaves =>
    rw [assigned_lineage_iff committed insertable leaves]
    constructor
    · refine fun free => ⟨fun _ m listed live same => ?_, fun close => ?_⟩
      · rw [named] at same
        exact free m listed live (congrArg TypedId.mk (Option.some.inj same)).symm
      · exact absurd (change.symm.trans close) (by decide)
    · intro safe m listed live same
      apply safe.1 change m listed live
      rw [same, named]
  | moved plain a next member _ live stays leaves =>
    exact iff_of_true (moved_committed committed member live stays leaves).lineage (safe_of_plain plain)
  | carried plain a successor target member own live other insertable leaves =>
    exact iff_of_true (carried_committed committed member own live other insertable leaves).lineage
      (safe_of_plain plain)

theorem created_committed {c : CycleV3Record} (fresh : c.cycleId ∉ rows.cycles.map CycleV3Record.cycleId)
    (bound : bindText c.projectId = .ok () ∧ bindText c.cycleId = .ok ())
    (leaves : Leaves rows rows' (rows.cycles ++ [c]) rows.assignments) :
    Committed context.projectId rows' where
  keyed := {
    cycles := by
      rw [leaves.cycles, List.map_append, List.map_singleton, List.nodup_append_comm, List.singleton_append]
      exact List.nodup_cons.mpr ⟨fresh, committed.keyed.cycles⟩
    assignments := leaves.assignments ▸ committed.keyed.assignments
    boundCycles := by
      rw [leaves.cycles]
      exact List.forall_mem_append.mpr
        ⟨committed.keyed.boundCycles, List.forall_mem_singleton.mpr bound⟩
    boundAssignments := leaves.assignments ▸ committed.keyed.boundAssignments }
  hosted := by
    intro a listed own
    rw [leaves.assignments] at listed
    obtain ⟨⟨c', held, here⟩, task, activation⟩ := committed.hosted a listed own
    exact ⟨⟨c', leaves.cycles ▸ List.mem_append_left _ held, here⟩, leaves.planning ▸ task, activation⟩
  lineage := by
    rw [assignmentsOf, leaves.assignments]
    exact committed.lineage

end Writes

section Runs

variable {authority : Authority} {checksum : JsonValue.Value → String} {projectId : String}
  {store : SqliteStore CycleRows}

/-- What a call writes when it is new and goes through. -/
def CallWritten (rows rows' : CycleRows) : CycleCall → Prop
  | .create .. => ∃ c : CycleV3Record, c.cycleId ∉ rows.cycles.map CycleV3Record.cycleId ∧
      (bindText c.projectId = .ok () ∧ bindText c.cycleId = .ok ()) ∧
      Leaves rows rows' (rows.cycles ++ [c]) rows.assignments
  | .change context request => ChangeWritten context request rows rows'

theorem factMutation_cases {ρ : Type} (authority : Authority) (store : SqliteStore ρ) (mutation : Mutation ρ) :
    ((factMutation authority store mutation).2 = store ∧
      ((∃ error, (factMutation authority store mutation).1 = .error error) ∨
        ∃ row ∈ store.operations, row.operationId = mutation.context.operationId)) ∨
    ((∀ row ∈ store.operations, row.operationId ≠ mutation.context.operationId) ∧
      mutation.write store = .ok (factMutation authority store mutation).2.rows) := by
  have ended := factMutation_outcome authority store mutation
  rcases outcome : factMutation authority store mutation with ⟨answer, after⟩
  rw [outcome] at ended
  cases ended with
  | failed error => exact .inl ⟨rfl, .inl ⟨error, rfl⟩⟩
  | replayed existing known _ =>
    have named := List.find?_some known
    exact .inl ⟨rfl, .inr ⟨existing, List.mem_of_find?_eq_some known, of_decide_eq_true named⟩⟩
  | committed result _ _ _ commits => exact .inr ⟨commits.journaled.fresh, commits.written⟩

theorem performCycle_cases (authority : Authority) (checksum : JsonValue.Value → String)
    (store : SqliteStore CycleRows) (call : WorkFacts × CycleCall) :
    ((performCycle authority checksum store call).2 = store.meet call.1 ∧
      ((∃ error, (performCycle authority checksum store call).1 = .error error) ∨
        ∃ row ∈ store.operations, row.operationId = call.2.context.operationId)) ∨
    ((∀ row ∈ store.operations, row.operationId ≠ call.2.context.operationId) ∧
      CallWritten (store.meet call.1).rows (performCycle authority checksum store call).2.rows call.2) := by
  obtain ⟨facts, call⟩ := call
  cases call with
  | create context input reason =>
    simp only [performCycle, createOneoffCycle]
    split
    · exact .inl ⟨rfl, .inl ⟨_, rfl⟩⟩
    · rcases factMutation_cases authority (store.meet facts)
        (createMutation authority checksum context input reason) with same | ⟨fresh, written⟩
      · exact .inl same
      · obtain ⟨c, new, project, id, -, leaves⟩ := writeCycle_eq_ok written
        exact .inr ⟨fresh, c, new, ⟨project, id⟩, leaves⟩
  | change context request =>
    simp only [performCycle, changeCycle]
    split
    · exact .inl ⟨rfl, .inl ⟨_, rfl⟩⟩
    · rcases factMutation_cases authority (store.meet facts)
        (changeMutation authority checksum context request) with same | ⟨fresh, written⟩
      · exact .inl same
      · exact .inr ⟨fresh, writeChange_eq_ok written⟩

theorem Committed.meet (committed : Committed projectId store.rows) (facts : WorkFacts) :
    Committed projectId (store.meet facts).rows where
  keyed := ⟨committed.keyed.cycles, committed.keyed.assignments, committed.keyed.boundCycles,
    committed.keyed.boundAssignments⟩
  hosted := fun a member own =>
    ⟨(committed.hosted a member own).cycle, (committed.hosted a member own).task,
      (committed.hosted a member own).activation⟩
  lineage := committed.lineage

theorem performCycle_committed (committed : Committed projectId store.rows) {call : WorkFacts × CycleCall}
    (own : call.2.context.projectId = projectId)
    (answered : ∃ result, (performCycle authority checksum store call).1 = .ok result) :
    Stored projectId (performCycle authority checksum store call).2.rows ∧
      (Lineage (assignmentsOf (performCycle authority checksum store call).2.rows projectId) ↔
        SafeCall store call) := by
  have met := committed.meet call.1
  rcases performCycle_cases authority checksum store call with ⟨same, ended⟩ | ⟨fresh, written⟩
  · rw [same]
    refine ⟨met.toStored, iff_of_true met.lineage (.inl ?_)⟩
    rcases ended with ⟨error, failed⟩ | recorded
    · obtain ⟨result, succeeded⟩ := answered
      cases failed.symm.trans succeeded
    · exact recorded
  · have new : ¬ ∃ row ∈ store.operations, row.operationId = call.2.context.operationId :=
      fun ⟨row, member, same⟩ => fresh row member same
    obtain ⟨facts, call⟩ := call
    subst own
    cases call with
    | create context input reason =>
      obtain ⟨c, absent, bound, leaves⟩ := written
      have kept := created_committed met absent bound leaves
      exact ⟨kept.toStored, iff_of_true kept.lineage (.inr trivial)⟩
    | change context request =>
      have kept := ChangeWritten.lineage_iff met written
      refine ⟨ChangeWritten.stored met written, ?_⟩
      rw [SafeCall, or_iff_right new]
      exact kept

theorem run_committed_iff {calls : List (WorkFacts × CycleCall)} (committed : Committed projectId store.rows)
    (own : ∀ call ∈ calls, call.2.context.projectId = projectId)
    (answered : ∀ entry ∈ Machines.history (performCycle authority checksum) store calls,
      ∃ result, entry.answer = .ok result) :
    (∀ earlier later, calls = earlier ++ later →
      CommitmentsKept (Machines.final (performCycle authority checksum) store earlier).rows projectId) ↔
    ∀ entry ∈ Machines.history (performCycle authority checksum) store calls,
      SafeCall entry.before entry.call := by
  induction calls generalizing store with
  | nil =>
    refine iff_of_true ?_ (List.forall_mem_nil _)
    intro earlier later split
    rw [(List.append_eq_nil_iff.mp split.symm).1]
    exact committed.kept
  | cons call rest ih =>
    rw [List.forall_mem_cons] at own
    rw [Machines.history_cons, List.forall_mem_cons] at answered
    obtain ⟨stored, kept⟩ := performCycle_committed committed own.1 answered.1
    rw [Machines.history_cons, List.forall_mem_cons]
    constructor
    · intro every
      have first : SafeCall store call := kept.mp (every [call] rest rfl).lineage
      refine ⟨first, (ih ⟨stored, kept.mpr first⟩ own.2 answered.2).mp fun earlier later split => ?_⟩
      exact every (call :: earlier) later (congrArg (call :: ·) split)
    · rintro ⟨first, others⟩
      have every := (ih ⟨stored, kept.mpr first⟩ own.2 answered.2).mpr others
      intro earlier later split
      cases earlier with
      | nil => exact committed.kept
      | cons call' earlier =>
        obtain ⟨rfl, apart⟩ := List.cons.inj split
        exact every earlier later apart

theorem committed_of_unassigned (keyed : Keyed store.rows)
    (unassigned : assignmentsOf store.rows projectId = []) : Committed projectId store.rows where
  keyed := keyed
  hosted := by
    intro a member own
    have listed := model_mem member own
    rw [unassigned] at listed
    cases listed
  lineage := by
    rw [unassigned]
    exact ⟨List.nodup_nil, List.nodup_nil, List.forall_mem_nil _, List.forall_mem_nil _⟩

/-- Over a run of answered calls of one project, its commitments are kept in every state exactly when
no call assigns a work that is live already, and none closes a cycle while an assignment that was
carried over into it is live. -/
theorem commitments_kept_iff (authority : Authority) (checksum : JsonValue.Value → String)
    (projectId : String) (start : SqliteStore CycleRows) (calls : List (WorkFacts × CycleCall))
    (keyed : Keyed start.rows) (unassigned : assignmentsOf start.rows projectId = [])
    (own : ∀ call ∈ calls, call.2.context.projectId = projectId)
    (answered : ∀ entry ∈ Machines.history (performCycle authority checksum) start calls,
      ∃ result, entry.answer = .ok result) :
    (∀ earlier later, calls = earlier ++ later →
      CommitmentsKept (Machines.final (performCycle authority checksum) start earlier).rows projectId) ↔
    ∀ entry ∈ Machines.history (performCycle authority checksum) start calls,
      SafeCall entry.before entry.call :=
  run_committed_iff (committed_of_unassigned keyed unassigned) own answered

end Runs

def unplannedStore : SqliteStore CycleRows where
  revisions := emptyStore.revisions
  operations := []
  operationIdentities := []
  audits := []
  rows := {
    planning := ⟨[], [⟨"project-1", "task-1", .task, .direct, none, "unix-ms:0"⟩], [], [], [], [], []⟩
    accepted := []
    series := []
    templates := []
    cycles := []
    assignments := []
    cycleEvents := []
    assignmentEvents := []
    legacySprints := [] }

def openTask : WorkFacts where
  works := [⟨"project-1", "task-1", .task, none, .open, "automatic", 1, "Task", "", "unix-ms:0"⟩]
  accepted := []

def acceptedTask : WorkFacts where
  works := [⟨"project-1", "task-1", .task, none, .closed, "automatic", 1, "Task", "", "unix-ms:0"⟩]
  accepted := [("project-1", "task-1")]

def plannerContext (operationId : String) (revision : ℕ) : V3MutationContext :=
  ⟨"project-1", "operator-1", some "session-1", operationId, "sha256:request", some revision, "unix-ms:1"⟩

def planDigest (_ : JsonValue.Value) : String := "sha256:request"

def plannedWeek (cycleId seriesId templateId : String) : OneOffCycleInput where
  cycle := ⟨"project-1", cycleId, seriesId, templateId, 0, "Week", "", .planned, 0, none,
    "2026-01-05T09:00", 0, "UTC", "2025b", "next_valid", "earlier_offset", "unix-ms:1", "unix-ms:1"⟩
  anchorDate := "2026-01-05"
  anchorTime := "09:00"
  anchorWeekday := 1

def weekChange (cycleId change : String) (assignmentId workId successorCycleId successorId : Option String) :
    CycleChangeRequest :=
  ⟨cycleId, change, assignmentId, workId, successorCycleId, successorId, "planning", true⟩

def assignedWeek : List (WorkFacts × CycleCall) :=
  [(openTask, .create (plannerContext "operation-1" 0) (plannedWeek "week-1" "series-1" "template-1")
      "planning"),
    (openTask, .create (plannerContext "operation-2" 1) (plannedWeek "week-2" "series-2" "template-2")
      "planning"),
    (openTask, .change (plannerContext "operation-3" 2)
      (weekChange "week-1" "assign" (some "first") (some "task-1") none none))]

theorem unplannedStore_keyed : Keyed unplannedStore.rows where
  cycles := List.nodup_nil
  assignments := List.nodup_nil
  boundCycles := List.forall_mem_nil _
  boundAssignments := List.forall_mem_nil _

/-- The answers to a run that commits every call. -/
def committedAnswers (operationIds : List String) : List (Except StoreError MutationResult) :=
  operationIds.zipIdx.map fun entry => .ok ⟨entry.1, entry.2 + 1, false⟩

theorem answered_of_committed {store : SqliteStore CycleRows} {calls : List (WorkFacts × CycleCall)}
    {operationIds : List String}
    (answers : (Machines.history (performCycle operatorAuthority planDigest) store calls).map (·.answer) =
      committedAnswers operationIds) :
    ∀ entry ∈ Machines.history (performCycle operatorAuthority planDigest) store calls,
      ∃ result, entry.answer = .ok result := by
  intro entry member
  have listed := List.mem_map_of_mem (f := fun e : Machines.Entry _ _ _ => e.answer) member
  rw [answers, committedAnswers, List.mem_map] at listed
  obtain ⟨_, -, same⟩ := listed
  exact ⟨_, same.symm⟩

theorem commitments_kept_iff_assigned :
    CommitmentsKept (Machines.final (performCycle operatorAuthority planDigest) unplannedStore
      assignedWeek).rows "project-1" := by
  have answers : (Machines.history (performCycle operatorAuthority planDigest) unplannedStore
      assignedWeek).map (·.answer) = committedAnswers ["operation-1", "operation-2", "operation-3"] := by
    decide +kernel
  have unassigned : assignmentsOf (Machines.final (performCycle operatorAuthority planDigest) unplannedStore
      (assignedWeek.take 2)).rows "project-1" = [] := by
    decide +kernel
  refine (commitments_kept_iff operatorAuthority planDigest "project-1" unplannedStore assignedWeek
    unplannedStore_keyed rfl (by decide) (answered_of_committed answers)).mpr ?_ assignedWeek [] rfl
  rw [assignedWeek, Machines.history_cons, Machines.history_cons, Machines.history_cons,
    Machines.history_nil]
  refine List.forall_mem_cons.mpr ⟨.inr trivial, List.forall_mem_cons.mpr ⟨.inr trivial,
    List.forall_mem_singleton.mpr (.inr ⟨fun _ m listed => ?_, fun close => ?_⟩)⟩⟩
  · have none : m ∈ assignmentsOf (Machines.final (performCycle operatorAuthority planDigest)
        unplannedStore (assignedWeek.take 2)).rows "project-1" := listed
    rw [unassigned] at none
    cases none
  · exact absurd close (by decide)

def closedCarried : List (WorkFacts × CycleCall) := assignedWeek ++
  [(openTask, .change (plannerContext "operation-4" 3)
      (weekChange "week-1" "carry_over" (some "first") none (some "week-2") (some "second"))),
    (openTask, .change (plannerContext "operation-5" 4) (weekChange "week-2" "activate" none none none none)),
    (acceptedTask, .change (plannerContext "operation-6" 5)
      (weekChange "week-2" "close" none none none none))]

theorem closedCarried_lost :
    (Machines.history (performCycle operatorAuthority planDigest) unplannedStore closedCarried).map
      (·.answer) = committedAnswers ["operation-1", "operation-2", "operation-3", "operation-4",
        "operation-5", "operation-6"] ∧
    ¬ CommitmentsKept (Machines.final (performCycle operatorAuthority planDigest) unplannedStore
      closedCarried).rows "project-1" := by
  refine ⟨by decide +kernel, fun kept => ?_⟩
  have broken : ∃ m ∈ assignmentsOf (Machines.final (performCycle operatorAuthority planDigest) unplannedStore
      closedCarried).rows "project-1", m.successorId = some "second" ∧
      ∀ n ∈ assignmentsOf (Machines.final (performCycle operatorAuthority planDigest) unplannedStore
        closedCarried).rows "project-1", n.predecessorId = none := by
    decide +kernel
  obtain ⟨m, listed, onward, orphans⟩ := broken
  obtain ⟨n, listed', -, back⟩ := (kept.lineage.linked m listed).successor _ onward
  have orphan := orphans n listed'
  rw [back.predecessor] at orphan
  cases orphan

end Boreal.Store
