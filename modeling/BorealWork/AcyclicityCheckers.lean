/- Three independent acyclicity checks between direct root tasks decide the same property. -/
import BorealWork.DependencyValidation
import BorealWork.WorkItems
import BorealWork.WorkModel

namespace Boreal
open Walks WorkModel

variable {projectId : ProjectId} {tasks : List WorkId} {pairs : List (WorkId × WorkId)}

structure ItemsOf (projectId : ProjectId) (tasks : List WorkId) (pairs : List (WorkId × WorkId))
    (items : List WorkItem) (edges : List DependencyEdge) : Prop where
  tasks : (items.map WorkItem.id).Perm tasks
  roots : ∀ item ∈ items,
    item.projectId = projectId ∧ item.kind = .task ∧ item.parentId = none
  pairs : (edges.map fun e => (e.blockerId, e.blockedId)).Perm pairs

structure NodesOf (projectId : ProjectId) (tasks : List WorkId) (pairs : List (WorkId × WorkId))
    (nodes : List WorkNode) (dependencies : List DirectDependency) : Prop where
  tasks : (nodes.map WorkNode.id).Perm tasks
  roots : ∀ node ∈ nodes, node.projectId = projectId ∧ node.kind = .task ∧
    node.executionMode = .direct ∧ node.parentId = none
  pairs : (dependencies.map fun e => (e.blockerId, e.blockedId)).Perm pairs

structure EndpointsOf (projectId : ProjectId) (tasks : List WorkId)
    (pairs : List (WorkId × WorkId)) (endpoints : List Dependencies.DependencyEndpoint)
    (edges : List Dependencies.DependencyEdge) : Prop where
  tasks : (endpoints.map Dependencies.DependencyEndpoint.workId).Perm tasks
  direct : ∀ node ∈ endpoints, node.projectId = projectId ∧ node.kind = .directTask
  scope : ∀ e ∈ edges, e.projectId = projectId
  ids : (edges.map Dependencies.DependencyEdge.id).Nodup
  pairs : (edges.map fun e => (e.predecessor, e.successor)).Perm pairs

theorem acyclic_pairs {E : Type*} {src dst : E → WorkId} {edges : List E}
    (same : (edges.map fun e => (src e, dst e)).Perm pairs) :
    Acyclic src dst (· ∈ edges) ↔ Acyclic Prod.fst Prod.snd (· ∈ pairs) := by
  apply acyclic_congr
  intro a b
  constructor
  · rintro ⟨e, member, rfl, rfl⟩
    exact ⟨(src e, dst e), same.mem_iff.mp (List.mem_map_of_mem member), rfl, rfl⟩
  · rintro ⟨pair, member, rfl, rfl⟩
    obtain ⟨e, known, rfl⟩ := List.mem_map.mp (same.mem_iff.mpr member)
    exact ⟨e, known, rfl, rfl⟩

theorem endpoints_listed {E N : Type*} {src dst : E → WorkId} {name : N → WorkId} {edges : List E}
    {nodes : List N} (sameTasks : (nodes.map name).Perm tasks)
    (samePairs : (edges.map fun e => (src e, dst e)).Perm pairs)
    (between : ∀ pair ∈ pairs, pair.1 ∈ tasks ∧ pair.2 ∈ tasks) {e : E} (member : e ∈ edges) :
    (∃ node ∈ nodes, name node = src e) ∧ ∃ node ∈ nodes, name node = dst e := by
  have listed := between _ (samePairs.mem_iff.mp (List.mem_map_of_mem member))
  rw [← sameTasks.mem_iff, ← sameTasks.mem_iff, List.mem_map, List.mem_map] at listed
  exact listed

theorem itemsOf_ok (between : ∀ pair ∈ pairs, pair.1 ∈ tasks ∧ pair.2 ∈ tasks)
    {items : List WorkItem} {edges : List DependencyEdge}
    (same : ItemsOf projectId tasks pairs items edges) :
    validateDependencyEdges items edges = .ok () ↔ Acyclic Prod.fst Prod.snd (· ∈ pairs) := by
  rw [← acyclic_pairs same.pairs]
  refine validateDependencyEdges_ok (fun item member => (same.roots item member).1) ?_
  exact fun e member => endpoints_listed same.tasks same.pairs between member

theorem nodesOf_ok (between : ∀ pair ∈ pairs, pair.1 ∈ tasks ∧ pair.2 ∈ tasks)
    (distinct : tasks.Nodup) (duplicateFree : pairs.Nodup) {nodes : List WorkNode}
    {dependencies : List DirectDependency} (same : NodesOf projectId tasks pairs nodes dependencies) :
    validateDirectDependencies nodes dependencies = .ok () ↔
      Acyclic Prod.fst Prod.snd (· ∈ pairs) := by
  have arcs : (dependencies.map DirectDependency.arc).Nodup := by
    have distinctPairs := same.pairs.nodup_iff.mpr duplicateFree
    exact distinctPairs
  rw [validateDirectDependencies_ok (same.tasks.nodup_iff.mpr distinct) same.roots
    (fun e member => endpoints_listed same.tasks same.pairs between member) arcs]
  apply acyclic_pairs
  rw [List.map_map]
  exact same.pairs

theorem endpointsOf_ok (between : ∀ pair ∈ pairs, pair.1 ∈ tasks ∧ pair.2 ∈ tasks)
    (distinct : tasks.Nodup) (duplicateFree : pairs.Nodup)
    {endpoints : List Dependencies.DependencyEndpoint} {edges : List Dependencies.DependencyEdge}
    (same : EndpointsOf projectId tasks pairs endpoints edges) :
    (∃ graph, Dependencies.validateDependencyGraph projectId endpoints edges = .ok graph) ↔
      Acyclic Prod.fst Prod.snd (· ∈ pairs) := by
  rw [Dependencies.validateDependencyGraph_ok, ← acyclic_pairs same.pairs]
  refine ⟨fun admissible => admissible.acyclic, fun acyclic => ?_⟩
  refine ⟨fun node member => (same.direct node member).1, same.tasks.nodup_iff.mpr distinct,
    same.scope, same.ids, same.pairs.nodup_iff.mpr duplicateFree, ?_, ?_, acyclic⟩
  · intro e member equal
    exact acyclic_iff_arc.mp acyclic e member (equal ▸ .refl)
  · intro e member
    obtain ⟨⟨node, known, named⟩, node', known', named'⟩ :=
      endpoints_listed same.tasks same.pairs between member
    exact ⟨⟨node, known, named, (same.direct node known).2⟩,
      ⟨node', known', named', (same.direct node' known').2⟩⟩

/-- The three checkers accept the same lists of edges, the acyclic ones. -/
theorem acyclicity_checkers_agree (projectId : ProjectId) (tasks : List WorkId)
    (pairs : List (WorkId × WorkId)) (distinct : tasks.Nodup) (duplicateFree : pairs.Nodup)
    (between : ∀ pair ∈ pairs, pair.1 ∈ tasks ∧ pair.2 ∈ tasks)
    (items : List WorkItem) (itemEdges : List DependencyEdge)
    (asItems : ItemsOf projectId tasks pairs items itemEdges)
    (nodes : List WorkNode) (dependencies : List DirectDependency)
    (asNodes : NodesOf projectId tasks pairs nodes dependencies)
    (endpoints : List Dependencies.DependencyEndpoint) (graphEdges : List Dependencies.DependencyEdge)
    (asEndpoints : EndpointsOf projectId tasks pairs endpoints graphEdges) :
    (validateDependencyEdges items itemEdges = .ok () ↔ Acyclic Prod.fst Prod.snd (· ∈ pairs)) ∧
    (validateDirectDependencies nodes dependencies = .ok () ↔
      Acyclic Prod.fst Prod.snd (· ∈ pairs)) ∧
    ((∃ graph, Dependencies.validateDependencyGraph projectId endpoints graphEdges = .ok graph) ↔
      Acyclic Prod.fst Prod.snd (· ∈ pairs)) :=
  ⟨itemsOf_ok between asItems, nodesOf_ok between distinct duplicateFree asNodes,
    endpointsOf_ok between distinct duplicateFree asEndpoints⟩

theorem acyclicity_checkers_agree_two_tasks :
    (validateDependencyEdges [⟨⟨"b"⟩, ⟨"p"⟩, .task, none⟩, ⟨⟨"a"⟩, ⟨"p"⟩, .task, none⟩]
        [⟨⟨"a"⟩, ⟨"b"⟩, .closedOnly⟩] = .ok () ↔
      Acyclic Prod.fst Prod.snd (· ∈ [((⟨"a"⟩ : WorkId), (⟨"b"⟩ : WorkId))])) ∧
    (validateDirectDependencies [⟨⟨"a"⟩, ⟨"p"⟩, .task, .direct, none, "A"⟩,
        ⟨⟨"b"⟩, ⟨"p"⟩, .task, .direct, none, "B"⟩] [⟨⟨"a"⟩, ⟨"b"⟩⟩] = .ok () ↔
      Acyclic Prod.fst Prod.snd (· ∈ [((⟨"a"⟩ : WorkId), (⟨"b"⟩ : WorkId))])) ∧
    ((∃ graph, Dependencies.validateDependencyGraph ⟨"p"⟩
        [⟨⟨"p"⟩, ⟨"b"⟩, .directTask⟩, ⟨⟨"p"⟩, ⟨"a"⟩, .directTask⟩]
        [⟨⟨"e"⟩, ⟨"p"⟩, ⟨"a"⟩, ⟨"b"⟩, .closedOnly, ⟨1⟩⟩] = .ok graph) ↔
      Acyclic Prod.fst Prod.snd (· ∈ [((⟨"a"⟩ : WorkId), (⟨"b"⟩ : WorkId))])) :=
  acyclicity_checkers_agree ⟨"p"⟩ [⟨"a"⟩, ⟨"b"⟩] [(⟨"a"⟩, ⟨"b"⟩)] (by decide) (by decide)
    (by decide) _ _ ⟨by decide, by decide, by decide⟩ _ _ ⟨by decide, by decide, by decide⟩ _ _
    ⟨by decide, by decide, by decide, by decide, by decide⟩

end Boreal
