/- What a valid assignment list is: each assignment in a cycle and on a task of its project, one live
assignment for a task, and links that are mutual and form chains with an end. -/
import BorealWork.CycleAssignments

namespace Boreal.Planning
open Drain WorkModel Orders

structure Placed (cycles : CycleIndex) (nodes : WorkIndex) (assignment : CycleAssignment) : Prop where
  placed : ∃ cycle work, cycles[assignment.cycleId]? = some cycle ∧
    nodes[assignment.workId]? = some work ∧ assignment.projectId = cycle.projectId ∧
    assignment.projectId = work.projectId ∧ work.isDirect = true ∧
    ¬ (cycle.lifecycle.isTerminal = true ∧ assignment.state.isLive = true)
  activation : assignment.activationPolicy = .explicitNotBefore → assignment.activationAt ≠ none

structure CarriesOn (former later : CycleAssignment) : Prop where
  successor : former.successorId = some later.id
  predecessor : later.predecessorId = some former.id
  carried : former.state = .carriedOver
  sameWork : later.workId = former.workId
  sameProject : later.projectId = former.projectId
  otherCycle : later.cycleId ≠ former.cycleId

/-- Every link of an assignment leads to a listed assignment that links back. -/
structure Reciprocal (assignments : List CycleAssignment) (assignment : CycleAssignment) : Prop where
  carried : assignment.state = .carriedOver ↔ assignment.successorId ≠ none
  predecessor : ∀ id, assignment.predecessorId = some id →
    ∃ former ∈ assignments, former.id = id ∧ CarriesOn former assignment
  successor : ∀ id, assignment.successorId = some id →
    ∃ later ∈ assignments, later.id = id ∧ CarriesOn assignment later

def Ends (assignments : List CycleAssignment) (assignment : CycleAssignment) : Prop :=
  ∃ chain : List CycleAssignment, chain.head? = some assignment ∧ (∀ a ∈ chain, a ∈ assignments) ∧
    chain.IsChain (fun former later => former.successorId = some later.id) ∧
    (chain.map (·.id)).Nodup ∧ ∃ last ∈ chain.getLast?, last.state ≠ .carriedOver

structure Lineage (assignments : List CycleAssignment) : Prop where
  distinct : (assignments.map (·.id)).Nodup
  single : ((assignments.filter (·.state.isLive)).map (·.workId)).Nodup
  linked : ∀ a ∈ assignments, Reciprocal assignments a
  ends : ∀ a ∈ assignments, Ends assignments a

section FirstPass

variable {cycles : CycleIndex} {nodes : WorkIndex}

def NamesItself (assignment : CycleAssignment) : Prop :=
  assignment.predecessorId = some assignment.id ∨ assignment.successorId = some assignment.id

variable {assignment : CycleAssignment}

theorem checkAssignment_eq_ok {pass pass' : AssignmentPass} :
    checkAssignment cycles nodes pass assignment = .ok pass' ↔
      assignment.id ∉ pass.ids ∧ Placed cycles nodes assignment ∧
      (assignment.state.isLive = true → assignment.workId ∉ pass.liveByWork) ∧
      ¬ NamesItself assignment ∧ pass' = pass.add assignment := by
  rw [checkAssignment, check_eq_ok, refuse_eq_ok]
  refine and_congr_right fun _ => ?_
  cases found : cycles[assignment.cycleId]? with
  | none =>
    refine ⟨nofun, ?_⟩
    rintro ⟨⟨⟨cycle, work, named, _⟩, -⟩, -⟩
    cases found.symm.trans named
  | some cycle =>
    cases found' : nodes[assignment.workId]? with
    | none =>
      refine ⟨nofun, ?_⟩
      rintro ⟨⟨⟨cycle, work, _, named, _⟩, -⟩, -⟩
      cases found'.symm.trans named
    | some work =>
      simp only [check_eq_ok, refuse_eq_ok, not_or, not_and, not_not, Bool.not_eq_false, ne_eq]
      constructor
      · rintro ⟨⟨project, project'⟩, direct, ended, activation, single, own, answer⟩
        refine ⟨⟨⟨cycle, work, found, found', project, project', direct, ?_⟩, activation⟩, single,
          not_or.mpr own, (Except.ok.inj answer).symm⟩
        exact fun both => ended both.1 both.2
      · rintro ⟨⟨⟨cycle', work', named, named', project, project', direct, ended⟩, activation⟩, single,
          own, rfl⟩
        obtain rfl := Option.some.inj (found.symm.trans named)
        obtain rfl := Option.some.inj (found'.symm.trans named')
        exact ⟨⟨project, project'⟩, direct, fun terminal live => ended ⟨terminal, live⟩, activation,
          single, not_or.mp own, rfl⟩

theorem mem_add_ids {pass : AssignmentPass} {id : String} :
    id ∈ (pass.add assignment).ids ↔ assignment.id = id ∨ id ∈ pass.ids :=
  Lookup.mem_insert

theorem mem_add_liveByWork {pass : AssignmentPass} {work : WorkId} :
    work ∈ (pass.add assignment).liveByWork ↔
      (assignment.state.isLive = true ∧ assignment.workId = work) ∨ work ∈ pass.liveByWork := by
  simp only [AssignmentPass.add]
  split
  · rename_i live
    rw [Lookup.mem_insert, live]
    simp
  · rename_i idle
    simp [idle]

theorem foldlM_checkAssignment_eq_ok {assignments : List CycleAssignment} (pass : AssignmentPass) :
    (∃ pass', assignments.foldlM (checkAssignment cycles nodes) pass = .ok pass') ↔
      (∀ a ∈ assignments, Placed cycles nodes a ∧ ¬ NamesItself a ∧ a.id ∉ pass.ids ∧
        (a.state.isLive = true → a.workId ∉ pass.liveByWork)) ∧
      (assignments.map (·.id)).Nodup ∧
      ((assignments.filter (·.state.isLive)).map (·.workId)).Nodup := by
  induction assignments generalizing pass with
  | nil => simp [pure, Except.pure]
  | cons first rest ih =>
    have stepped : (∃ pass', (first :: rest).foldlM (checkAssignment cycles nodes) pass = .ok pass') ↔
        (first.id ∉ pass.ids ∧ Placed cycles nodes first ∧
          (first.state.isLive = true → first.workId ∉ pass.liveByWork) ∧ ¬ NamesItself first) ∧
        ∃ pass', rest.foldlM (checkAssignment cycles nodes) (pass.add first) = .ok pass' := by
      constructor
      · rintro ⟨pass', ran⟩
        rw [List.foldlM_cons, bind_eq_ok] at ran
        obtain ⟨_, checked, ran⟩ := ran
        obtain ⟨fresh, placed, single, own, rfl⟩ := checkAssignment_eq_ok.mp checked
        exact ⟨⟨fresh, placed, single, own⟩, pass', ran⟩
      · rintro ⟨⟨fresh, placed, single, own⟩, pass', ran⟩
        refine ⟨pass', ?_⟩
        rw [List.foldlM_cons, bind_eq_ok]
        exact ⟨_, checkAssignment_eq_ok.mpr ⟨fresh, placed, single, own, rfl⟩, ran⟩
    rw [stepped, ih]
    simp only [List.forall_mem_cons, List.map_cons, List.nodup_cons, mem_add_ids, mem_add_liveByWork,
      not_or, not_and]
    have ids : first.id ∉ rest.map (·.id) ↔ ∀ a ∈ rest, ¬ first.id = a.id := by
      rw [List.mem_map]
      push Not
      exact forall₂_congr fun _ _ => ne_comm
    cases live : first.state.isLive with
    | false =>
      have dropped : (first :: rest).filter (·.state.isLive) = rest.filter (·.state.isLive) :=
        List.filter_cons_of_neg (by rw [live]; exact Bool.false_ne_true)
      rw [dropped, ids]
      simp only [Bool.false_eq_true, false_implies, true_and]
      constructor
      · rintro ⟨⟨fresh, placed, own⟩, others, distinct, single⟩
        exact ⟨⟨⟨placed, own, fresh, trivial⟩, fun a member =>
          ⟨(others a member).1, (others a member).2.1, (others a member).2.2.1.2, (others a member).2.2.2⟩⟩,
          ⟨fun a member => (others a member).2.2.1.1, distinct⟩, single⟩
      · rintro ⟨⟨⟨placed, own, fresh, -⟩, others⟩, ⟨apart, distinct⟩, single⟩
        exact ⟨⟨fresh, placed, own⟩, fun a member => ⟨(others a member).1, (others a member).2.1,
          ⟨apart a member, (others a member).2.2.1⟩, (others a member).2.2.2⟩, distinct, single⟩
    | true =>
      have works : first.workId ∉ (rest.filter (·.state.isLive)).map (·.workId) ↔
          ∀ a ∈ rest, a.state.isLive = true → ¬ first.workId = a.workId := by
        simp only [List.mem_map, List.mem_filter]
        push Not
        exact ⟨fun apart a member live same => apart a ⟨member, live⟩ same.symm,
          fun apart a both same => apart a both.1 both.2 same.symm⟩
      have kept : (first :: rest).filter (·.state.isLive) = first :: rest.filter (·.state.isLive) :=
        List.filter_cons_of_pos live
      rw [kept, List.map_cons, List.nodup_cons, ids, works]
      simp only [true_implies]
      constructor
      · rintro ⟨⟨fresh, placed, free, own⟩, others, distinct, single⟩
        exact ⟨⟨⟨placed, own, fresh, free⟩, fun a member =>
          ⟨(others a member).1, (others a member).2.1, (others a member).2.2.1.2,
            fun live => ((others a member).2.2.2 live).2⟩⟩,
          ⟨fun a member => (others a member).2.2.1.1, distinct⟩,
          fun a member live => ((others a member).2.2.2 live).1, single⟩
      · rintro ⟨⟨⟨placed, own, fresh, free⟩, others⟩, ⟨apart, distinct⟩, apart', single⟩
        exact ⟨⟨fresh, placed, free, own⟩, fun a member => ⟨(others a member).1, (others a member).2.1,
          ⟨apart a member, (others a member).2.2.1⟩,
          fun live => ⟨apart' a member live, (others a member).2.2.2 live⟩⟩, distinct, single⟩

end FirstPass

section Links

variable {assignments : List CycleAssignment}

theorem indexed_iff (distinct : (assignments.map (·.id)).Nodup) {id : String} {a : CycleAssignment} :
    (assignments.foldl (Lookup.indexBy (·.id)) (∅ : AssignmentIndex))[id]? = some a ↔
      a ∈ assignments ∧ a.id = id := by
  have absent {id : String} : (∅ : AssignmentIndex)[id]? = none := Std.TreeMap.getElem?_emptyc
  rw [Lookup.getElem?_foldl_indexBy distinct fun _ _ => absent, absent]
  exact or_iff_right nofun

theorem forM_indexed_eq_ok {check : CycleAssignment → Except PlanningModelError Unit} {error : PlanningModelError}
    (distinct : (assignments.map (·.id)).Nodup) {named : Option String} :
    (named.forM fun id =>
      match (assignments.foldl (Lookup.indexBy (·.id)) (∅ : AssignmentIndex))[id]? with
      | none => Except.error error
      | some a => check a) = .ok () ↔
    ∀ id, named = some id → ∃ a ∈ assignments, a.id = id ∧ check a = .ok () := by
  rw [option_forM_eq_ok]
  refine forall₂_congr fun id same => ?_
  cases found : (assignments.foldl (Lookup.indexBy (·.id)) (∅ : AssignmentIndex))[id]? with
  | none =>
    refine ⟨nofun, ?_⟩
    rintro ⟨a, member, own, -⟩
    cases found.symm.trans ((indexed_iff distinct).mpr ⟨member, own⟩)
  | some a =>
    obtain ⟨member, own⟩ := (indexed_iff distinct).mp found
    constructor
    · exact fun passed => ⟨a, member, own, passed⟩
    · rintro ⟨b, member', own', passed⟩
      obtain rfl := List.inj_on_of_nodup_map distinct member member' (own.trans own'.symm)
      exact passed

theorem checkLineage_eq_ok (distinct : (assignments.map (·.id)).Nodup) {assignment : CycleAssignment} :
    checkLineage (assignments.foldl (Lookup.indexBy (·.id)) ∅) assignment = .ok () ↔
      (assignment.state = .carriedOver ↔ assignment.successorId ≠ none) ∧
      (∀ id, assignment.predecessorId = some id → ∃ former ∈ assignments, former.id = id ∧
        former.successorId = some assignment.id ∧ former.state = .carriedOver ∧
        former.workId = assignment.workId ∧ former.projectId = assignment.projectId ∧
        former.cycleId ≠ assignment.cycleId) ∧
      ∀ id, assignment.successorId = some id → ∃ later ∈ assignments, later.id = id ∧
        later.predecessorId = some assignment.id ∧ later.workId = assignment.workId ∧
        later.projectId = assignment.projectId ∧ later.cycleId ≠ assignment.cycleId := by
  rw [checkLineage, check_eq_ok, check_eq_ok, check_eq_ok, refuse_eq_ok, refuse_eq_ok]
  constructor
  · rintro ⟨carried, idle, former, later⟩
    have former := (forM_indexed_eq_ok distinct).mp former
    have later := (forM_indexed_eq_ok distinct).mp later
    simp only [refuse_eq_ok, not_or, not_not, ne_eq] at former later
    refine ⟨⟨fun state named => carried ⟨state, named⟩, ?_⟩, former, later⟩
    exact fun named => by_contra fun other => idle ⟨other, named⟩
  · rintro ⟨carried, former, later⟩
    refine ⟨fun both => carried.mp both.1 both.2, fun both => both.1 (carried.mpr both.2),
      (forM_indexed_eq_ok distinct).mpr ?_, (forM_indexed_eq_ok distinct).mpr ?_⟩
    · simpa only [refuse_eq_ok, not_or, not_not, ne_eq] using former
    · simpa only [refuse_eq_ok, not_or, not_not, ne_eq] using later

theorem forM_checkLineage_eq_ok (distinct : (assignments.map (·.id)).Nodup) :
    assignments.forM (checkLineage (assignments.foldl (Lookup.indexBy (·.id)) ∅)) = .ok () ↔
      ∀ a ∈ assignments, Reciprocal assignments a := by
  rw [forM_eq_ok]
  constructor
  · intro passed a member
    obtain ⟨carried, former, later⟩ := (checkLineage_eq_ok distinct).mp (passed a member)
    refine ⟨carried, ?_, ?_⟩
    · intro id named
      obtain ⟨b, listed, rfl, onward, state, work, project, cycle⟩ := former id named
      exact ⟨b, listed, rfl, onward, named, state, work.symm, project.symm, Ne.symm cycle⟩
    · intro id named
      obtain ⟨b, listed, rfl, back, work, project, cycle⟩ := later id named
      refine ⟨b, listed, rfl, named, back, carried.mpr ?_, work, project, cycle⟩
      rw [named]
      exact Option.some_ne_none b.id
  · intro linked a member
    obtain ⟨carried, former, later⟩ := linked a member
    refine (checkLineage_eq_ok distinct).mpr ⟨carried, ?_, ?_⟩
    · intro id named
      obtain ⟨b, listed, rfl, onward⟩ := former id named
      exact ⟨b, listed, rfl, onward.successor, onward.carried, onward.sameWork.symm,
        onward.sameProject.symm, Ne.symm onward.otherCycle⟩
    · intro id named
      obtain ⟨b, listed, rfl, onward⟩ := later id named
      exact ⟨b, listed, rfl, onward.predecessor, onward.sameWork, onward.sameProject, onward.otherCycle⟩

theorem Reciprocal.not_namesItself {a : CycleAssignment} (distinct : (assignments.map (·.id)).Nodup)
    (member : a ∈ assignments) (linked : Reciprocal assignments a) : ¬ NamesItself a := by
  rintro (named | named)
  · obtain ⟨b, listed, same, onward⟩ := linked.predecessor _ named
    obtain rfl := List.inj_on_of_nodup_map distinct listed member same
    exact onward.otherCycle rfl
  · obtain ⟨b, listed, same, onward⟩ := linked.successor _ named
    obtain rfl := List.inj_on_of_nodup_map distinct listed member same
    exact onward.otherCycle rfl

end Links

section Chains

variable {assignments : List CycleAssignment}

variable {a : CycleAssignment}

theorem nextOf_eq (distinct : (assignments.map (·.id)).Nodup) (member : a ∈ assignments) :
    nextOf (assignments.foldl (Lookup.indexBy (·.id)) ∅) a.id = a.successorId := by
  rw [nextOf, (indexed_iff distinct).mpr ⟨member, rfl⟩, Option.bind_some]

theorem checkChain_eq_ok {traversed traversed' : List String} :
    checkChain (assignments.foldl (Lookup.indexBy (·.id)) ∅) (assignments.length + 1) traversed a =
        .ok traversed' ↔
      (∀ id ∈ (climb (nextOf (assignments.foldl (Lookup.indexBy (·.id)) ∅)) traversed
        (assignments.length + 1) a.id).current, id ∈ traversed) ∧
      traversed' = (climb (nextOf (assignments.foldl (Lookup.indexBy (·.id)) ∅)) traversed
        (assignments.length + 1) a.id).path ++ traversed := by
  rw [checkChain, lineageWalk_eq_climb, check_eq_ok, option_forM_eq_ok]
  simp only [refuse_eq_ok, not_not, LineageWalk.at]
  refine and_congr_right fun _ => ⟨fun same => (Except.ok.inj same).symm, ?_⟩
  rintro rfl
  rfl

theorem foldlM_checkChain_eq_ok {l : List CycleAssignment} {traversed : List String}
    (before : ∀ id ∈ traversed, Founded (nextOf (assignments.foldl (Lookup.indexBy (·.id)) ∅)) id) :
    (∃ traversed', l.foldlM (checkChain (assignments.foldl (Lookup.indexBy (·.id)) ∅)
      (assignments.length + 1)) traversed = .ok traversed') ↔
    ∀ a ∈ l, Founded (nextOf (assignments.foldl (Lookup.indexBy (·.id)) ∅)) a.id := by
  induction l generalizing traversed with
  | nil => simp [pure, Except.pure]
  | cons first rest ih =>
    have stopped := @climb_assignments_stopped traversed assignments first.id
    have rests := @climb_rests _ _ (nextOf (assignments.foldl (Lookup.indexBy (·.id)) ∅)) traversed
      (assignments.length + 1) first.id
    rw [List.forall_mem_cons]
    constructor
    · rintro ⟨traversed', ran⟩
      rw [List.foldlM_cons, bind_eq_ok] at ran
      obtain ⟨_, checked, ran⟩ := ran
      obtain ⟨known, rfl⟩ := checkChain_eq_ok.mp checked
      obtain ⟨path, here⟩ := rests fun last current => before last (known last current)
      exact ⟨here, (ih (List.forall_mem_append.mpr ⟨path, before⟩)).mp ⟨traversed', ran⟩⟩
    · rintro ⟨here, others⟩
      have fresh := @climb_fresh _ _ _ traversed _ here (assignments.length + 1)
      have known : ∀ id ∈ (climb (nextOf (assignments.foldl (Lookup.indexBy (·.id)) ∅)) traversed
          (assignments.length + 1) first.id).current, id ∈ traversed := by
        intro id current
        have stood : (climb (nextOf (assignments.foldl (Lookup.indexBy (·.id)) ∅)) traversed
          (assignments.length + 1) first.id).current = some id := current
        simp only [Orders.climbStep, stood, ite_eq_left_iff, reduceCtorEq, imp_false, not_not] at stopped
        exact stopped.resolve_right (fresh id current)
      obtain ⟨path, -⟩ := rests fun last current => before last (known last current)
      obtain ⟨traversed', ran⟩ := (ih (List.forall_mem_append.mpr ⟨path, before⟩)).mpr others
      refine ⟨traversed', ?_⟩
      rw [List.foldlM_cons, bind_eq_ok]
      exact ⟨_, checkChain_eq_ok.mpr ⟨known, rfl⟩, ran⟩

theorem founded_of_chain (distinct : (assignments.map (·.id)).Nodup) {chain : List CycleAssignment}
    (listed : ∀ b ∈ a :: chain, b ∈ assignments)
    (linked : (a :: chain).IsChain fun former later => former.successorId = some later.id)
    (ended : ∀ last ∈ (a :: chain).getLast?, last.successorId = none) :
    Founded (nextOf (assignments.foldl (Lookup.indexBy (·.id)) ∅)) a.id := by
  induction chain generalizing a with
  | nil =>
    apply founded_of_next
    intro id onward
    rw [nextOf_eq distinct (listed a List.mem_cons_self), ended a rfl] at onward
    cases onward
  | cons b rest ih =>
    obtain ⟨here, later⟩ := List.isChain_cons_cons.mp linked
    apply founded_of_next
    intro id onward
    rw [nextOf_eq distinct (listed a List.mem_cons_self), here] at onward
    obtain rfl := Option.some.inj onward
    refine ih (fun c member => listed c (List.mem_cons_of_mem _ member)) later ?_
    rwa [List.getLast?_cons_cons] at ended

theorem nodup_of_founded (distinct : (assignments.map (·.id)).Nodup) {chain : List CycleAssignment}
    (listed : ∀ b ∈ chain, b ∈ assignments)
    (linked : chain.IsChain fun former later => former.successorId = some later.id)
    (founded : ∀ b ∈ chain, Founded (nextOf (assignments.foldl (Lookup.indexBy (·.id)) ∅)) b.id) :
    (chain.map (·.id)).Nodup := by
  have onward : (chain.map (·.id)).IsChain fun former later =>
      Relation.TransGen (fun x y => nextOf (assignments.foldl (Lookup.indexBy (·.id)) ∅) y = some x)
        later former := by
    rw [List.isChain_map]
    refine linked.imp_of_mem_imp fun former later member _ same => ?_
    exact .single ((nextOf_eq distinct (listed former member)).trans same)
  rw [List.isChain_iff_pairwise] at onward
  refine onward.imp_of_mem fun {former later} member _ leads same => ?_
  obtain ⟨b, inside, rfl⟩ := List.mem_map.mp member
  exact acc_not_transGen (founded b inside) (same ▸ leads)

theorem chain_of_founded (distinct : (assignments.map (·.id)).Nodup)
    (linked : ∀ a ∈ assignments, Reciprocal assignments a) {id : String}
    (founded : Founded (nextOf (assignments.foldl (Lookup.indexBy (·.id)) ∅)) id) :
    ∀ a ∈ assignments, a.id = id → ∃ chain : List CycleAssignment, chain.head? = some a ∧
      (∀ b ∈ chain, b ∈ assignments ∧
        Founded (nextOf (assignments.foldl (Lookup.indexBy (·.id)) ∅)) b.id) ∧
      chain.IsChain (fun former later => former.successorId = some later.id) ∧
      ∃ last ∈ chain.getLast?, last.state ≠ .carriedOver := by
  induction founded with
  | intro id above ih =>
    rintro a member rfl
    cases named : a.successorId with
    | none =>
      have idle : a.state ≠ .carriedOver := fun state => (linked a member).carried.mp state named
      refine ⟨[a], rfl, ?_, .singleton a, a, rfl, idle⟩
      intro b inside
      obtain rfl := List.mem_singleton.mp inside
      exact ⟨member, _, above⟩
    | some successor =>
      obtain ⟨later, listed, rfl, -⟩ := (linked a member).successor _ named
      have onward := (nextOf_eq distinct member).trans named
      obtain ⟨chain, head, inside, joined, last, ended, idle⟩ := ih _ onward later listed rfl
      cases chain with
      | nil => cases head
      | cons first rest =>
        obtain rfl := Option.some.inj head
        refine ⟨a :: first :: rest, rfl, List.forall_mem_cons.mpr ⟨⟨member, _, above⟩, inside⟩,
          List.isChain_cons_cons.mpr ⟨named, joined⟩, last, ?_, idle⟩
        rwa [List.getLast?_cons_cons]

theorem ends_iff_founded (distinct : (assignments.map (·.id)).Nodup)
    (linked : ∀ a ∈ assignments, Reciprocal assignments a) (member : a ∈ assignments) :
    Ends assignments a ↔ Founded (nextOf (assignments.foldl (Lookup.indexBy (·.id)) ∅)) a.id := by
  constructor
  · rintro ⟨chain, head, listed, joined, -, last, ended, idle⟩
    cases chain with
    | nil => cases head
    | cons first rest =>
      obtain rfl := Option.some.inj head
      refine founded_of_chain distinct listed joined fun other same => ?_
      obtain rfl := Option.some.inj (ended.symm.trans same)
      have own := (linked last (listed last (List.mem_of_getLast? ended))).carried
      exact by_contra fun named => idle (own.mpr named)
  · intro founded
    obtain ⟨chain, head, inside, joined, ended⟩ := chain_of_founded distinct linked founded a member rfl
    refine ⟨chain, head, fun b listed => (inside b listed).1, joined, ?_, ended⟩
    exact nodup_of_founded distinct (fun b listed => (inside b listed).1) joined
      fun b listed => (inside b listed).2

end Chains

section Validation

variable {cycles : List Cycle} {nodes : List WorkNode} {assignments : List CycleAssignment}

theorem validateCycleAssignments_iff_lineage :
    validateCycleAssignments cycles nodes assignments = .ok () ↔
      validateDecomposition nodes = .ok () ∧
      (∀ a ∈ assignments, Placed (cycles.foldl (Lookup.indexBy (·.id)) ∅)
        (nodes.foldl (Lookup.indexBy WorkNode.id) ∅) a) ∧ Lineage assignments := by
  rw [validateCycleAssignments, check_eq_ok, mapError_eq_ok]
  refine and_congr_right fun _ => ?_
  constructor
  · intro ran
    obtain ⟨_, first, ran⟩ := bind_eq_ok.mp ran
    obtain ⟨each, distinct, single⟩ := (foldlM_checkAssignment_eq_ok ⟨∅, ∅⟩).mp ⟨_, first⟩
    obtain ⟨links, ran⟩ := check_eq_ok.mp ran
    have linked := (forM_checkLineage_eq_ok distinct).mp links
    obtain ⟨_, chains, -⟩ := bind_eq_ok.mp ran
    have founded := (foldlM_checkChain_eq_ok (List.forall_mem_nil _)).mp ⟨_, chains⟩
    exact ⟨fun a member => (each a member).1, distinct, single, linked,
      fun a member => (ends_iff_founded distinct linked member).mpr (founded a member)⟩
  · rintro ⟨placed, distinct, single, linked, ends⟩
    obtain ⟨_, first⟩ := (foldlM_checkAssignment_eq_ok (⟨∅, ∅⟩ : AssignmentPass)).mpr
      ⟨fun a member => ⟨placed a member, (linked a member).not_namesItself distinct member,
        Std.TreeSet.not_mem_emptyc, fun _ => Std.TreeSet.not_mem_emptyc⟩, distinct, single⟩
    have founded : ∀ a ∈ assignments, Founded (nextOf (assignments.foldl (Lookup.indexBy (·.id)) ∅)) a.id :=
      fun a member => (ends_iff_founded distinct linked member).mp (ends a member)
    obtain ⟨_, chains⟩ := (foldlM_checkChain_eq_ok (List.forall_mem_nil _)).mpr founded
    refine bind_eq_ok.mpr ⟨_, first, check_eq_ok.mpr ⟨(forM_checkLineage_eq_ok distinct).mpr linked, ?_⟩⟩
    exact bind_eq_ok.mpr ⟨_, chains, rfl⟩

/-- Every walk along the successors ends by itself, and the validator accepts exactly the lineages
whose assignments fit the cycles and the work. -/
theorem validateCycleAssignments_exact (cycles : List Cycle) (nodes : List WorkNode)
    (assignments : List CycleAssignment) :
    (∀ traversed id, lineageStep (assignments.foldl (Lookup.indexBy (·.id)) ∅) traversed
      (drain (lineageStep (assignments.foldl (Lookup.indexBy (·.id)) ∅) traversed)
        (assignments.length + 1) ⟨[], some id⟩) = none) ∧
    (validateCycleAssignments cycles nodes assignments = .ok () ↔
      validateDecomposition nodes = .ok () ∧
      (∀ a ∈ assignments, Placed (cycles.foldl (Lookup.indexBy (·.id)) ∅)
        (nodes.foldl (Lookup.indexBy WorkNode.id) ∅) a) ∧ Lineage assignments) :=
  ⟨fun _ id => lineageWalk_stopped id, validateCycleAssignments_iff_lineage⟩

def strayAssignment : CycleAssignment where
  id := "a"
  cycleId := ⟨"c"⟩
  workId := ⟨"w"⟩
  projectId := ⟨"p"⟩
  state := .planned
  activationPolicy := .atCycleStart
  activationAt := none
  predecessorId := none
  successorId := none

theorem strayAssignment_rejected : Lineage [strayAssignment] ∧
    validateCycleAssignments [] [] [strayAssignment] = .error (.missingCycle ⟨"c"⟩) := by
  refine ⟨⟨List.nodup_singleton _, List.nodup_singleton _, ?_, ?_⟩, rfl⟩
  · intro a member
    obtain rfl := List.mem_singleton.mp member
    exact ⟨⟨nofun, fun named => absurd rfl named⟩, nofun, nofun⟩
  · intro a member
    obtain rfl := List.mem_singleton.mp member
    exact ⟨[strayAssignment], rfl, fun _ => id, .singleton _, List.nodup_singleton _, _, rfl, nofun⟩

end Validation

end Boreal.Planning
