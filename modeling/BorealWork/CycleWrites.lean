/- What the write of a cycle command can do to the cycles and their assignments, one case for each of
its ways through. -/
import BorealWork.CycleBoard

namespace Boreal.Store
open Drain JsonValue WorkModel Sorting

section Effects

structure Leaves (rows rows' : CycleRows) (cycles : List CycleV3Record)
    (assignments : List CycleAssignmentV3Record) : Prop where
  planning : rows'.planning = rows.planning
  accepted : rows'.accepted = rows.accepted
  cycles : rows'.cycles = cycles
  assignments : rows'.assignments = assignments

structure Insertable (context : V3MutationContext) (rows : CycleRows) (a : CycleAssignmentV3Record) :
    Prop where
  bound : bindText a.id = .ok ()
  fresh : a.id ∉ rows.assignments.map (·.id)
  cycle : ∃ c ∈ rows.cycles, c.projectId = context.projectId ∧ c.cycleId = a.cycleId.value ∧
    c.lifecycle.isTerminal = false
  task : ∃ n ∈ rows.planning.nodes, n.projectId = context.projectId ∧ n.workId = a.workId.value ∧
    n.decompositionKind = .task ∧ n.executionMode = .direct

variable {authority : Authority} {context : V3MutationContext} {rows rows' : CycleRows}
  {a : CycleAssignmentV3Record} {reason : String}

theorem appendCycleEvent_eq_ok {event : CycleEvent}
    (done : appendCycleEvent authority context rows event = .ok rows') :
    Leaves rows rows' rows.cycles rows.assignments := by
  simp only [appendCycleEvent, check_eq_ok] at done
  obtain ⟨-, -, -, -, done⟩ := done
  cases done
  exact ⟨rfl, rfl, rfl, rfl⟩

theorem appendAssignmentEvent_eq_ok {event : AssignmentEvent}
    (done : appendAssignmentEvent authority context rows event = .ok rows') :
    Leaves rows rows' rows.cycles rows.assignments := by
  simp only [appendAssignmentEvent, check_eq_ok] at done
  obtain ⟨-, -, -, -, -, -, -, done⟩ := done
  cases done
  exact ⟨rfl, rfl, rfl, rfl⟩

theorem insertAssignment_eq_ok (done : insertAssignment authority context rows a reason = .ok rows') :
    Insertable context rows a ∧ Leaves rows rows' rows.cycles (rows.assignments ++ [a]) := by
  simp only [insertAssignment, checkDirectTask, check_eq_ok, refuse_eq_ok, not_not] at done
  obtain ⟨bound, -, -, direct, open', -, fresh, -, known, task, done⟩ := done
  obtain ⟨planning, accepted, cycles, assignments⟩ := appendAssignmentEvent_eq_ok done
  refine ⟨⟨forM_eq_ok.mp bound _ List.mem_cons_self, fresh, ?_, ?_⟩,
    planning, accepted, cycles, assignments⟩
  · rw [List.any_eq_true] at known
    obtain ⟨c, member, named⟩ := known
    rw [decide_eq_true_eq] at named
    refine ⟨c, member, named.1, named.2, ?_⟩
    rw [terminalCycle, Bool.not_eq_true, List.any_eq_false] at open'
    have other := open' c member
    rw [decide_eq_true_eq] at other
    exact Bool.not_eq_true _ ▸ fun ended => other ⟨named.1, named.2, ended⟩
  · rw [List.any_eq_true] at task
    obtain ⟨n, member, named⟩ := task
    rw [decide_eq_true_eq] at named
    refine ⟨n, member, named.1, named.2, ?_⟩
    rw [Bool.not_eq_true, List.any_eq_false] at direct
    have other := direct n member
    rw [decide_eq_true_eq] at other
    exact not_not.mp fun differs => other ⟨named.1, named.2, differs⟩

def movedRows (context : V3MutationContext) (rows : CycleRows) (a : CycleAssignmentV3Record)
    (next : CycleAssignmentState) (predecessor successor : Option String) : List CycleAssignmentV3Record :=
  rows.assignments.map fun row =>
    if isUnmoved context a row then row.moved next predecessor successor context.now else row

theorem setAssignmentState_eq_ok {next : CycleAssignmentState} {predecessor successor : Option String}
    (done : setAssignmentState authority context rows a next predecessor successor reason = .ok rows') :
    (∃ row ∈ rows.assignments, isUnmoved context a row = true) ∧
      Leaves rows rows' rows.cycles (movedRows context rows a next predecessor successor) := by
  simp only [setAssignmentState, check_eq_ok] at done
  obtain ⟨-, -, -, -, done⟩ := done
  cases found : rows.assignments.find? (isUnmoved context a) with
  | none =>
    rw [found] at done
    cases done
  | some row =>
    simp only [found, check_eq_ok] at done
    obtain ⟨-, -, -, done⟩ := done
    obtain ⟨planning, accepted, cycles, assignments⟩ := appendAssignmentEvent_eq_ok done
    exact ⟨⟨row, List.mem_of_find?_eq_some found, List.find?_some found⟩,
      planning, accepted, cycles, assignments⟩

end Effects

section Resolving

variable {authority : Authority} {context : V3MutationContext} {request : CycleChangeRequest}
  {rows rows' : CycleRows} {change : CycleChange} {n n' : ℕ}

/-- A row as the close leaves it, once these assignments have been looked at. -/
def completed (context : V3MutationContext) (looked : List CycleAssignmentV3Record)
    (row : CycleAssignmentV3Record) : CycleAssignmentV3Record :=
  if looked.any fun a => a.state.isLive && isUnmoved context a row then
    row.moved .completed none none context.now
  else row

theorem resolveAssignment_eq_ok {a : CycleAssignmentV3Record}
    (done : resolveAssignment authority context request change (rows, n) a = .ok (rows', n')) :
    (a.state.isLive = false ∧ rows' = rows ∧ n' = n) ∨
    (a.state.isLive = true ∧ change = .close ∧ n' = n ∧
      Leaves rows rows' rows.cycles (movedRows context rows a .completed none none)) ∨
    (a.state.isLive = true ∧ rows' = rows ∧ n' = n + 1) := by
  rw [resolveAssignment] at done
  by_cases live : a.state.isLive = true
  · rw [if_pos live, bind_eq_ok] at done
    obtain ⟨accepted, asked, done⟩ := done
    cases accepted with
    | true =>
      have close : change = .close := by
        by_contra other
        rw [closesAccepted, if_neg other] at asked
        cases asked
      obtain ⟨after, set, done⟩ := bind_eq_ok.mp done
      cases done
      exact .inr (.inl ⟨live, close, rfl, (setAssignmentState_eq_ok set).2⟩)
    | false =>
      cases done
      exact .inr (.inr ⟨live, rfl, rfl⟩)
  · rw [if_neg live] at done
    cases done
    exact .inl ⟨Bool.not_eq_true _ ▸ live, rfl, rfl⟩

theorem resolveAll_eq_ok {looked : List CycleAssignmentV3Record}
    (done : looked.foldlM (resolveAssignment authority context request change) (rows, n) = .ok (rows', n')) :
    n ≤ n' ∧ (change ≠ .close → rows' = rows) ∧
    (n' = n → (∀ a ∈ looked, a.state.isLive = true → change = .close) ∧
      Leaves rows rows' rows.cycles (rows.assignments.map (completed context looked))) := by
  induction looked generalizing rows n with
  | nil =>
    cases done
    refine ⟨le_rfl, fun _ => rfl, fun _ => ⟨List.forall_mem_nil _, rfl, rfl, rfl, ?_⟩⟩
    exact (List.map_id _).symm
  | cons a rest ih =>
    rw [List.foldlM_cons, bind_eq_ok] at done
    obtain ⟨⟨rows₁, n₁⟩, first, done⟩ := done
    obtain ⟨grows, idle, all⟩ := ih done
    rcases resolveAssignment_eq_ok first with ⟨dead, rfl, rfl⟩ | ⟨live, close, rfl, leaves⟩ | ⟨live, rfl, rfl⟩
    · refine ⟨grows, idle, fun same => ?_⟩
      obtain ⟨each, leaves⟩ := all same
      refine ⟨List.forall_mem_cons.mpr ⟨fun live => ?_, each⟩, leaves.planning, leaves.accepted,
        leaves.cycles, leaves.assignments.trans ?_⟩
      · cases dead.symm.trans live
      · congr 1
        funext row
        simp only [completed, List.any_cons, dead, Bool.false_and, Bool.false_or]
    · refine ⟨grows, fun other => absurd close other, fun same => ?_⟩
      obtain ⟨each, later⟩ := all same
      refine ⟨List.forall_mem_cons.mpr ⟨fun _ => close, each⟩, later.planning.trans leaves.planning,
        later.accepted.trans leaves.accepted, later.cycles.trans leaves.cycles, ?_⟩
      rw [later.assignments, leaves.assignments, movedRows, List.map_map]
      congr 1
      funext row
      by_cases own : isUnmoved context a row = true
      · -- once completed a row is no longer in a state that a live assignment was read in
        have settled : rest.any (fun b => b.state.isLive && isUnmoved context b
            (row.moved .completed none none context.now)) = false := by
          rw [List.any_eq_false]
          intro b _ both
          rw [Bool.and_eq_true, isUnmoved, decide_eq_true_eq] at both
          obtain ⟨alive, -, -, state⟩ := both
          rw [← state] at alive
          cases alive
        simp only [Function.comp, own, if_true, completed, settled, List.any_cons, live, Bool.true_and,
          Bool.true_or, Bool.false_eq_true, if_false]
      · rw [Bool.not_eq_true] at own
        simp only [Function.comp, own, completed, List.any_cons, Bool.and_false, Bool.false_or,
          Bool.false_eq_true, if_false]
    · refine ⟨(Nat.le_succ n).trans grows, idle, fun same => absurd same ?_⟩
      omega

end Resolving

section Changes

theorem ofText_close {text : String} : CycleChange.ofText text = some .close ↔ text = "close" := by
  constructor
  · intro named
    rw [CycleChange.ofText.eq_def] at named
    split at named <;> first | rfl | cases named
  · rintro rfl
    rfl

theorem ofText_assign {text : String} : CycleChange.ofText text = some .assign ↔ text = "assign" := by
  constructor
  · intro named
    rw [CycleChange.ofText.eq_def] at named
    split at named <;> first | rfl | cases named
  · rintro rfl
    rfl

def Plain (request : CycleChangeRequest) : Prop := request.change ≠ "assign" ∧ request.change ≠ "close"

/-- The ways through the write of a change. -/
inductive ChangeWritten (context : V3MutationContext) (request : CycleChangeRequest)
    (rows rows' : CycleRows) : Prop
  | mapped (plain : Plain request) (leaves : Leaves rows rows' rows.cycles rows.assignments)
  | activated (plain : Plain request)
      (leaves : Leaves rows rows' (updateCycle context request rows .active).cycles rows.assignments)
  | ended (next : CycleLifecycle) (looked : List CycleAssignmentV3Record)
      (terminal : next.isTerminal = true) (other : request.change ≠ "assign")
      (read : cycleAssignmentsV3 rows context.projectId request.cycleId = .ok looked)
      (only : ∀ a ∈ looked, a.state.isLive = true → request.change = "close")
      (leaves : Leaves rows rows' (updateCycle context request rows next).cycles
        (rows.assignments.map (completed context looked)))
  | assigned (id workId : String) (change : request.change = "assign")
      (named : request.workId = some workId)
      (insertable : Insertable context rows
        (plannedAssignment context id ⟨request.cycleId⟩ ⟨workId⟩ none))
      (leaves : Leaves rows rows' rows.cycles
        (rows.assignments ++ [plannedAssignment context id ⟨request.cycleId⟩ ⟨workId⟩ none]))
  | moved (plain : Plain request) (a : CycleAssignmentV3Record) (next : CycleAssignmentState)
      (member : a ∈ rows.assignments) (own : a.projectId = ⟨context.projectId⟩) (live : a.state.isLive = true)
      (stays : next ≠ .carriedOver)
      (leaves : Leaves rows rows' rows.cycles
        (movedRows context rows a next a.predecessorId a.successorId))
  | carried (plain : Plain request) (a : CycleAssignmentV3Record) (successor target : String)
      (member : a ∈ rows.assignments) (own : a.projectId = ⟨context.projectId⟩) (live : a.state.isLive = true)
      (other : target ≠ a.cycleId.value)
      (insertable : Insertable context rows
        (plannedAssignment context successor ⟨target⟩ a.workId (some a.id)))
      (leaves : Leaves rows rows' rows.cycles
        (movedRows context { rows with assignments := rows.assignments ++
          [plannedAssignment context successor ⟨target⟩ a.workId (some a.id)] }
          a .carriedOver a.predecessorId (some successor)))

variable {authority : Authority} {context : V3MutationContext} {request : CycleChangeRequest}
  {rows rows' : CycleRows} {stored : CycleV3Record} {looked : List CycleAssignmentV3Record}

theorem requiredId_eq_ok {value : Option String} {field text : String}
    (named : requiredId value field = .ok text) : value = some text := by
  cases value with
  | none => cases named
  | some given =>
    simp only [requiredId] at named
    split_ifs at named
    cases named
    rfl

theorem updateCycle_leaves {rows₁ : CycleRows} {assignments : List CycleAssignmentV3Record}
    {next : CycleLifecycle} {event : CycleEvent} (leaves : Leaves rows rows₁ rows.cycles assignments)
    (done : appendCycleEvent authority context (updateCycle context request rows₁ next) event = .ok rows') :
    Leaves rows rows' (updateCycle context request rows next).cycles assignments := by
  obtain ⟨planning, accepted, cycles, same⟩ := appendCycleEvent_eq_ok done
  refine ⟨planning.trans leaves.planning, accepted.trans leaves.accepted, ?_, same.trans leaves.assignments⟩
  rw [cycles, updateCycle, updateCycle, leaves.cycles]

theorem moveCycle_activates (plain : Plain request)
    (done : moveCycle authority context request rows stored looked .activate = .ok rows') :
    ChangeWritten context request rows rows' := by
  obtain ⟨⟨rows₁, unresolved⟩, resolved, done⟩ := bind_eq_ok.mp done
  obtain ⟨next, moves, done⟩ := bind_eq_ok.mp done
  obtain ⟨-, moves⟩ := check_eq_ok.mp moves
  obtain rfl := Except.ok.inj moves
  have same := (resolveAll_eq_ok resolved).2.1 nofun
  exact .activated plain (updateCycle_leaves (same ▸ ⟨rfl, rfl, rfl, rfl⟩) done)

theorem moveCycle_ends (read : cycleAssignmentsV3 rows context.projectId request.cycleId = .ok looked)
    {change : CycleChange} (other : request.change ≠ "assign")
    (ends : change = .close ∧ request.change = "close" ∨ change = .cancel)
    (done : moveCycle authority context request rows stored looked change = .ok rows') :
    ChangeWritten context request rows rows' := by
  obtain ⟨⟨rows₁, unresolved⟩, resolved, done⟩ := bind_eq_ok.mp done
  obtain ⟨next, moves, done⟩ := bind_eq_ok.mp done
  have settled : next.isTerminal = true ∧ unresolved = 0 := by
    rcases ends with ⟨rfl, -⟩ | rfl
    · simp only [nextLifecycle, completeCycle, check_eq_ok, refuse_eq_ok, not_not] at moves
      obtain ⟨-, none, moves⟩ := moves
      exact ⟨Except.ok.inj moves ▸ rfl, none⟩
    · simp only [nextLifecycle, cancelCycle, check_eq_ok, refuse_eq_ok, not_not] at moves
      obtain ⟨-, none, moves⟩ := moves
      exact ⟨Except.ok.inj moves ▸ rfl, none⟩
  obtain ⟨only, leaves⟩ := (resolveAll_eq_ok resolved).2.2 settled.2
  refine .ended next looked settled.1 other read ?_ (updateCycle_leaves leaves done)
  intro a member live
  rcases ends with ⟨-, close⟩ | cancel
  · exact close
  · cases cancel.symm.trans (only a member live)

theorem assignWork_eq_ok (change : request.change = "assign")
    (done : assignWork authority context request rows stored = .ok rows') :
    ChangeWritten context request rows rows' := by
  obtain ⟨-, done⟩ := check_eq_ok.mp done
  obtain ⟨id, -, done⟩ := bind_eq_ok.mp done
  obtain ⟨workId, named, done⟩ := bind_eq_ok.mp done
  obtain ⟨found, -, done⟩ := bind_eq_ok.mp done
  cases found with
  | none => cases done
  | some item =>
    obtain ⟨-, done⟩ := check_eq_ok.mp done
    obtain ⟨insertable, leaves⟩ := insertAssignment_eq_ok done
    exact .assigned id workId change (requiredId_eq_ok named) insertable leaves

theorem findAssignment_eq_ok {id : String} {a : CycleAssignmentV3Record}
    (read : cycleAssignmentsV3 rows context.projectId request.cycleId = .ok looked)
    (found : findAssignment looked id = .ok a) :
    a ∈ rows.assignments ∧ a.projectId = ⟨context.projectId⟩ ∧ a.cycleId = ⟨request.cycleId⟩ := by
  rw [findAssignment] at found
  cases listed : looked.find? (·.id = id) with
  | none =>
    rw [listed] at found
    cases found
  | some row =>
    rw [listed] at found
    cases found
    exact (mem_cycleAssignmentsV3 read).mp (List.mem_of_find?_eq_some listed)

theorem deferAssignment_eq_ok (plain : Plain request)
    (read : cycleAssignmentsV3 rows context.projectId request.cycleId = .ok looked)
    (done : deferAssignment authority context request rows stored looked = .ok rows') :
    ChangeWritten context request rows rows' := by
  obtain ⟨-, done⟩ := check_eq_ok.mp done
  obtain ⟨id, -, done⟩ := bind_eq_ok.mp done
  obtain ⟨a, found, done⟩ := bind_eq_ok.mp done
  obtain ⟨live, done⟩ := check_eq_ok.mp done
  obtain ⟨rows₁, set, done⟩ := bind_eq_ok.mp done
  obtain ⟨member, own, -⟩ := findAssignment_eq_ok read found
  rw [refuse_eq_ok, not_or, Bool.not_eq_false] at live
  obtain ⟨planning, accepted, cycles, assignments⟩ := (setAssignmentState_eq_ok set).2
  obtain ⟨planning', accepted', cycles', assignments'⟩ := appendCycleEvent_eq_ok done
  exact .moved plain a .removed member own live.1 nofun ⟨planning'.trans planning, accepted'.trans accepted,
    cycles'.trans cycles, assignments'.trans assignments⟩

theorem live_of_transition {state next : CycleAssignmentState}
    (allowed : assignmentTransitionAllowed state next = true) : state.isLive = true := by
  cases state <;> first | rfl | cases allowed

theorem moveAssignment_eq_ok (plain : Plain request) {next : CycleAssignmentState}
    (read : cycleAssignmentsV3 rows context.projectId request.cycleId = .ok looked)
    (done : moveAssignment authority context request rows stored looked next = .ok rows') :
    ChangeWritten context request rows rows' := by
  obtain ⟨id, -, done⟩ := bind_eq_ok.mp done
  obtain ⟨a, found, done⟩ := bind_eq_ok.mp done
  obtain ⟨allowed, done⟩ := check_eq_ok.mp done
  obtain ⟨-, done⟩ := check_eq_ok.mp done
  obtain ⟨-, done⟩ := check_eq_ok.mp done
  obtain ⟨rows₁, moves, done⟩ := bind_eq_ok.mp done
  obtain ⟨member, own, named⟩ := findAssignment_eq_ok read found
  rw [refuse_eq_ok, Bool.not_eq_false] at allowed
  have live := live_of_transition allowed
  obtain ⟨planning', accepted', cycles', assignments'⟩ := appendCycleEvent_eq_ok done
  rw [applyMove] at moves
  by_cases onward : next = .carriedOver
  · rw [if_pos onward] at moves
    obtain ⟨target, -, moves⟩ := bind_eq_ok.mp moves
    obtain ⟨successor, -, moves⟩ := bind_eq_ok.mp moves
    obtain ⟨other, moves⟩ := check_eq_ok.mp moves
    obtain ⟨found, -, moves⟩ := bind_eq_ok.mp moves
    cases found with
    | none => cases moves
    | some targetCycle =>
      obtain ⟨-, moves⟩ := check_eq_ok.mp moves
      obtain ⟨rows₂, inserted, set⟩ := bind_eq_ok.mp moves
      obtain ⟨insertable, leaves⟩ := insertAssignment_eq_ok inserted
      obtain ⟨planning, accepted, cycles, assignments⟩ := (setAssignmentState_eq_ok set).2
      refine .carried plain a successor target member own live ?_ insertable ⟨?_, ?_, ?_, ?_⟩
      · rw [named]
        exact refuse_eq_ok.mp other
      · exact planning'.trans (planning.trans leaves.planning)
      · exact accepted'.trans (accepted.trans leaves.accepted)
      · exact cycles'.trans (cycles.trans leaves.cycles)
      · rw [assignments', assignments, movedRows, movedRows, leaves.assignments]
  · rw [if_neg onward] at moves
    obtain ⟨planning, accepted, cycles, assignments⟩ := (setAssignmentState_eq_ok moves).2
    exact .moved plain a next member own live onward ⟨planning'.trans planning, accepted'.trans accepted,
      cycles'.trans cycles, assignments'.trans assignments⟩

theorem mapLegacy_eq_ok (plain : Plain request)
    (done : mapLegacy authority context request rows stored = .ok rows') :
    ChangeWritten context request rows rows' := by
  obtain ⟨legacy, -, done⟩ := bind_eq_ok.mp done
  obtain ⟨found, -, done⟩ := bind_eq_ok.mp done
  cases found with
  | none => cases done
  | some item =>
    obtain ⟨-, done⟩ := check_eq_ok.mp done
    obtain ⟨rows₁, inserted, done⟩ := bind_eq_ok.mp done
    simp only [insertLegacySprint, check_eq_ok] at inserted
    obtain ⟨-, -, -, -, inserted⟩ := inserted
    obtain rfl := Except.ok.inj inserted
    obtain ⟨planning, accepted, cycles, assignments⟩ := appendCycleEvent_eq_ok done
    exact .mapped plain ⟨planning, accepted, cycles, assignments⟩

theorem writeChange_eq_ok (done : writeChange authority context request rows = .ok rows') :
    ChangeWritten context request rows rows' := by
  obtain ⟨found, -, done⟩ := bind_eq_ok.mp done
  cases found with
  | none => cases done
  | some stored =>
    obtain ⟨-, -, done⟩ := bind_eq_ok.mp done
    obtain ⟨looked, read, done⟩ := bind_eq_ok.mp done
    cases named : CycleChange.ofText request.change with
    | none =>
      rw [named] at done
      cases done
    | some change =>
      rw [named] at done
      have text {other : CycleChange} (differs : change ≠ other) :
          CycleChange.ofText request.change ≠ some other :=
        fun same => differs (Option.some.inj (named.symm.trans same))
      have plain (assign : change ≠ .assign) (close : change ≠ .close) : Plain request :=
        ⟨fun same => text assign (ofText_assign.mpr same), fun same => text close (ofText_close.mpr same)⟩
      cases change with
      | activate => exact moveCycle_activates (plain nofun nofun) done
      | close =>
        have other : CycleChange.close ≠ .assign := nofun
        exact moveCycle_ends read (fun same => text other (ofText_assign.mpr same)) (.inl ⟨rfl, ofText_close.mp named⟩) done
      | cancel => exact moveCycle_ends read (plain nofun nofun).1 (.inr rfl) done
      | assign => exact assignWork_eq_ok (ofText_assign.mp named) done
      | defer => exact deferAssignment_eq_ok (plain nofun nofun) read done
      | commit => exact moveAssignment_eq_ok (plain nofun nofun) read done
      | remove => exact moveAssignment_eq_ok (plain nofun nofun) read done
      | carryOver => exact moveAssignment_eq_ok (plain nofun nofun) read done
      | mapLegacy => exact mapLegacy_eq_ok (plain nofun nofun) done

theorem writeCycle_eq_ok {known : Prop} [Decidable known] {input : OneOffCycleInput} {reason : String}
    (done : writeCycle authority context rows known input reason = .ok rows') :
    ∃ c : CycleV3Record, c.cycleId ∉ rows.cycles.map CycleV3Record.cycleId ∧
      bindText c.projectId = .ok () ∧ bindText c.cycleId = .ok () ∧ c.lifecycle = .planned ∧
      Leaves rows rows' (rows.cycles ++ [c]) rows.assignments := by
  obtain ⟨rows₁, series, done⟩ := bind_eq_ok.mp done
  obtain ⟨rows₂, template, done⟩ := bind_eq_ok.mp done
  obtain ⟨rows₃, cycle, done⟩ := bind_eq_ok.mp done
  simp only [insertSeries, check_eq_ok] at series
  obtain ⟨-, -, -, -, -, -, series⟩ := series
  obtain rfl := Except.ok.inj series
  simp only [insertTemplate, check_eq_ok] at template
  obtain ⟨-, -, -, -, -, -, template⟩ := template
  obtain rfl := Except.ok.inj template
  simp only [insertCycle, check_eq_ok, refuse_eq_ok] at cycle
  obtain ⟨bound, -, -, fresh, -, cycle⟩ := cycle
  obtain rfl := Except.ok.inj cycle
  obtain ⟨planning, accepted, cycles, assignments⟩ := appendCycleEvent_eq_ok done
  have texts := forM_eq_ok.mp bound
  refine ⟨_, ?_, ?_, ?_, ?_, planning, accepted, cycles, assignments⟩
  · exact fresh
  · exact texts _ (by simp)
  · exact texts _ List.mem_cons_self
  · rfl

end Changes

end Boreal.Store
