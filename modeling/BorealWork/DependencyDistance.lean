/- The breadth-first closure: its loop empties the queue and its labels are the distances. -/
import BorealWork.DependencyImpact

namespace Boreal.Dependencies
open Sorting Walks Worklist

abbrev DependencyGraph.Dependent (graph : DependencyGraph) : WorkId → WorkId → Prop :=
  Step DependencyEdge.predecessor DependencyEdge.successor (· ∈ graph.edges)

def DependencyGraph.successors (graph : DependencyGraph) : Finset WorkId :=
  (graph.edges.map DependencyEdge.successor).toFinset

variable {graph : DependencyGraph}

theorem DependencyGraph.mem_successors {e : DependencyEdge}
    (member : e ∈ graph.edges) : e.successor ∈ graph.successors :=
  List.mem_toFinset.mpr (List.mem_map_of_mem member)

theorem DependencyGraph.card_successors_le (graph : DependencyGraph) :
    graph.successors.card ≤ graph.edges.length := by
  have bound := List.toFinset_card_le (graph.edges.map DependencyEdge.successor)
  rwa [List.length_map] at bound

theorem DependencyGraph.walk_length_le (graph : DependencyGraph) {seed : WorkId → Prop} {n : ℕ}
    {v : WorkId} (walk : Reach seed graph.Dependent n v) : n ≤ graph.edges.length :=
  walk.length_le (fun _ => id) graph.admissible.acyclic

def Exploration.frontier (s : Exploration) : Frontier WorkId := ⟨fun v => s.distance[v]?, s.queue⟩

theorem discover_known {s : Exploration} {edge : DependencyEdge} {next d : ℕ}
    (known : s.distance[edge.successor]? = some d) : discover next s edge = s := by
  rw [discover, if_pos (Lookup.contains_iff.mpr ⟨d, known⟩)]

theorem discover_fresh {s : Exploration} {edge : DependencyEdge} {next : ℕ}
    (fresh : s.distance[edge.successor]? = none) :
    (discover next s edge).frontier = s.frontier.put edge.successor next := by
  have absent := Lookup.contains_eq_false.mpr fresh
  rw [discover, absent]
  simp only [Bool.false_eq_true, if_false, Exploration.frontier, Frontier.put, Frontier.mk.injEq, and_true]
  funext w
  exact Lookup.getElem?_insert _ _ _ _

section Explore

variable (graph : DependencyGraph) (roots : List WorkId)

/-- What the loop keeps: sound labels, scanned vertices relaxed, and a breadth-first queue. -/
structure ExplorationInvariant (s : Exploration) : Prop where
  search : Invariant (· ∈ roots) graph.Dependent 0 s.frontier
  levels : ∃ k front back, Levels k front back s.frontier

def Exploration.work (s : Exploration) : ℕ :=
  s.frontier.work (graph.edges.length + 1) graph.successors

variable {graph roots}

/-- What scanning one node's edges keeps, for a node of level `k`. -/
structure Scanning (graph : DependencyGraph) (roots : List WorkId) (k : ℕ) (front : List WorkId)
    (budget : ℕ) (s : Exploration) : Prop where
  sound : Sound (· ∈ roots) graph.Dependent 0 s.frontier
  levels : ∃ back, Levels k front back s.frontier
  work : s.work graph ≤ budget

theorem Scanning.discover {k budget : ℕ} {front : List WorkId} {s : Exploration}
    {edge : DependencyEdge} (member : edge ∈ graph.edges)
    (reached : Reach (· ∈ roots) graph.Dependent k edge.predecessor)
    (scanning : Scanning graph roots k front budget s) :
    Scanning graph roots k front budget (discover (k + 1) s edge) ∧
      Advance s.frontier (discover (k + 1) s edge).frontier ∧
      ∃ d' ≤ k + 1, (discover (k + 1) s edge).frontier.label edge.successor = some d' := by
  obtain ⟨back, levels⟩ := scanning.levels
  cases known : s.distance[edge.successor]? with
  | some d =>
    rw [discover_known known]
    exact ⟨scanning, Advance.refl _, d, levels.low _ d known, known⟩
  | none =>
    have walk : Reach (· ∈ roots) graph.Dependent (k + 1) edge.successor :=
      reached.step ⟨edge, member, rfl, rfl⟩
    have short : k + 1 ≤ graph.edges.length := graph.walk_length_le walk
    have placed := scanning.sound.put walk
    rw [Nat.zero_add] at placed
    have unlabelled : s.frontier.label edge.successor = none := known
    have lowered : (s.frontier.put edge.successor (k + 1)).work (graph.edges.length + 1)
        graph.successors ≤ s.frontier.work (graph.edges.length + 1) graph.successors := by
      apply work_put (DependencyGraph.mem_successors member)
      rw [unlabelled]
      exact Nat.lt_succ_of_le short
    have moved : (Dependencies.discover (k + 1) s edge).frontier = _ := discover_fresh known
    refine ⟨⟨moved ▸ placed, ⟨_, moved ▸ levels.put unlabelled⟩, ?_⟩, ?_, k + 1, le_rfl, ?_⟩
    · rw [Exploration.work, moved]
      exact lowered.trans scanning.work
    · rw [moved]
      apply advance_put
      intro old labelled
      cases unlabelled.symm.trans labelled
    · rw [moved, Frontier.put_label_self]

theorem exploreStep_spec {s s' : Exploration} (inv : ExplorationInvariant graph roots s)
    (step : exploreStep graph s = some s') :
    ExplorationInvariant graph roots s' ∧ s'.work graph < s.work graph := by
  obtain ⟨distance, queue⟩ := s
  cases queue with
  | nil => cases step
  | cons current rest =>
    obtain ⟨k₀, front₀, back₀, levels₀⟩ := inv.levels
    obtain ⟨k, front, back, labelled, levels⟩ := levels₀.pop
    obtain ⟨n, same, reached⟩ := inv.search.realised current k labelled
    rw [Nat.zero_add] at same
    subst same
    have rested : Sound (· ∈ roots) graph.Dependent 0 (Exploration.frontier ⟨distance, rest⟩) :=
      ⟨inv.search.realised, fun v later => inv.search.labelled v (List.mem_cons_of_mem _ later)⟩
    have popped : Exploration.work graph ⟨distance, current :: rest⟩ =
        Exploration.work graph ⟨distance, rest⟩ + 1 := by
      simp only [Exploration.work, Exploration.frontier, Frontier.work, List.length_cons]
      omega
    have stepped : (graph.outgoing current).foldl (discover (k + 1)) ⟨distance, rest⟩ = s' := by
      have value : distance.getD current 0 = k := by
        rw [Std.TreeMap.getD_eq_getD_getElem?]
        exact congrArg (Option.getD · 0) labelled
      rw [← value]
      exact Option.some.inj step
    have pass := Drain.foldl_pass (f := discover (k + 1))
      (P := Scanning graph roots k front (Exploration.work graph ⟨distance, rest⟩))
      (R := fun s t => Advance s.frontier t.frontier)
      (Q := fun e s => ∃ d' ≤ k + 1, s.frontier.label e.successor = some d')
      (fun s => Advance.refl s.frontier) (fun _ _ _ => Advance.trans)
      (fun e s t moved marked => by
        obtain ⟨d, low, known⟩ := marked
        obtain ⟨d', lower, known'⟩ := moved.kept _ d known
        exact ⟨d', lower.trans low, known'⟩)
      (l := graph.outgoing current) (s := ⟨distance, rest⟩)
      (fun e member s scanning => by
        obtain ⟨known, leaves⟩ := DependencyGraph.mem_outgoing.mp member
        exact scanning.discover known (leaves ▸ reached))
      ⟨rested, ⟨back, levels⟩, le_rfl⟩
    rw [stepped] at pass
    obtain ⟨scanned, moved, labels⟩ := pass
    obtain ⟨back', levels'⟩ := scanned.levels
    refine ⟨⟨inv.search.scan labelled moved scanned.sound ?_, ⟨k, front, back', levels'⟩⟩, ?_⟩
    · rintro b ⟨e, member, leaves, rfl⟩
      exact labels e (DependencyGraph.mem_outgoing.mpr ⟨member, leaves⟩)
    · rw [popped]
      exact Nat.lt_succ_of_le scanned.work

theorem foldl_startAt (s : Exploration) :
    (∀ v, (roots.foldl startAt s).distance[v]? = if v ∈ roots then some 0 else s.distance[v]?) ∧
      (roots.foldl startAt s).queue = s.queue ++ roots := by
  induction roots generalizing s with
  | nil => simp
  | cons root rest ih =>
    obtain ⟨labels, queue⟩ := ih (startAt s root)
    refine ⟨?_, ?_⟩
    · intro v
      rw [List.foldl_cons, labels v, startAt, Lookup.getElem?_insert]
      by_cases later : v ∈ rest
      · simp [later]
      · by_cases same : root = v
        · simp [same]
        · simp [later, same, Ne.symm same]
    · rw [List.foldl_cons, queue, startAt, List.append_assoc]
      rfl

theorem explorationInvariant_start : ExplorationInvariant graph roots (roots.foldl startAt ⟨∅, []⟩) := by
  obtain ⟨labels, queue⟩ := @foldl_startAt roots ⟨∅, []⟩
  rw [List.nil_append] at queue
  have labelled (v : WorkId) (d : ℕ) :
      (roots.foldl startAt ⟨∅, []⟩).frontier.label v = some d ↔ v ∈ roots ∧ d = 0 := by
    change (roots.foldl startAt ⟨∅, []⟩).distance[v]? = some d ↔ _
    rw [labels v]
    by_cases root : v ∈ roots
    · simp [root, eq_comm]
    · simp [root]
  have queued (v : WorkId) : v ∈ (roots.foldl startAt ⟨∅, []⟩).frontier.queue ↔ v ∈ roots := by
    change v ∈ (roots.foldl startAt ⟨∅, []⟩).queue ↔ _
    rw [queue]
  refine ⟨⟨⟨?_, ?_⟩, ?_, ?_⟩, 0, roots, [], ?_, ?_, ?_, ?_⟩
  · intro v d known
    obtain ⟨root, rfl⟩ := (labelled v d).mp known
    exact ⟨0, rfl, .seed root⟩
  · exact fun v member => ⟨0, (labelled v 0).mpr ⟨(queued v).mp member, rfl⟩⟩
  · exact fun v root => ⟨0, le_rfl, (labelled v 0).mpr ⟨root, rfl⟩⟩
  · intro a d known outside
    exact absurd ((queued a).mpr ((labelled a d).mp known).1) outside
  · exact queue.trans (List.append_nil roots).symm
  · exact fun v root => (labelled v 0).mpr ⟨root, rfl⟩
  · exact fun v member => absurd member List.not_mem_nil
  · intro v d known
    rw [((labelled v d).mp known).2]
    exact Nat.zero_le _

theorem work_start_le : (roots.foldl startAt ⟨∅, []⟩).work graph ≤
    roots.length + graph.edges.length * (graph.edges.length + 1) := by
  obtain ⟨labels, queue⟩ := @foldl_startAt roots ⟨∅, []⟩
  have low (v : WorkId) (d : ℕ)
      (known : (roots.foldl startAt ⟨∅, []⟩).frontier.label v = some d) :
      d ≤ graph.edges.length + 1 := by
    obtain ⟨n, rfl, walk⟩ := explorationInvariant_start.search.realised v d known
    have := graph.walk_length_le walk
    omega
  have size : (roots.foldl startAt ⟨∅, []⟩).frontier.queue.length = roots.length := by
    change (roots.foldl startAt ⟨∅, []⟩).queue.length = _
    rw [queue, List.nil_append]
  calc (roots.foldl startAt ⟨∅, []⟩).work graph
      ≤ _ := work_le low
    _ ≤ _ := by
        rw [size]
        exact Nat.add_le_add_left (Nat.mul_le_mul_right _ graph.card_successors_le) _

theorem explore_queue : (explore graph roots).queue = [] := by
  have stopped := Drain.drain_stopped (Exploration.work graph)
    (fun s s' inv step => (exploreStep_spec inv step).1)
    (fun s s' inv step => (exploreStep_spec inv step).2)
    (@explorationInvariant_start graph roots) work_start_le
  unfold exploreStep at stopped
  split at stopped
  · assumption
  · cases stopped

theorem explore_invariant : Invariant (· ∈ roots) graph.Dependent 0 (explore graph roots).frontier :=
  (Drain.drain_invariant (fun _ _ inv step => (exploreStep_spec inv step).1) _
    explorationInvariant_start).search

theorem explore_isLeast {v : WorkId} {d : ℕ} (known : (explore graph roots).distance[v]? = some d) :
    IsLeast {n | Reach (· ∈ roots) graph.Dependent n v} d := by
  have least := explore_invariant.isLeast explore_queue known
  simpa only [Nat.zero_add, exists_eq_left'] using least

theorem explore_covers {v : WorkId} {n : ℕ} (walk : Reach (· ∈ roots) graph.Dependent n v) :
    ∃ d, (explore graph roots).distance[v]? = some d :=
  explore_invariant.covers explore_queue walk

end Explore

variable {roots : List WorkId}

theorem mem_canonicalRoots {v : WorkId} : v ∈ (sortOn id roots).dedup ↔ v ∈ roots := by
  rw [List.mem_dedup, mem_sortOn]

theorem affectedSubgraph_ok :
    (∃ affected, affectedSubgraph graph roots = .ok affected) ↔
      ∀ root ∈ roots, graph.hasWork root = true := by
  simp only [affectedSubgraph]
  split
  · rename_i root unknown
    have absent := List.find?_some unknown
    have member := mem_canonicalRoots.mp (List.mem_of_find?_eq_some unknown)
    constructor
    · rintro ⟨affected, impossible⟩
      cases impossible
    · intro all
      simp [all root member] at absent
  · rename_i unknown
    have known := List.find?_eq_none.mp unknown
    refine ⟨fun _ root member => ?_, fun _ => ⟨_, rfl⟩⟩
    simpa using known root (mem_canonicalRoots.mpr member)

section Labels

variable {graph : DependencyGraph} {roots : List WorkId}

theorem canonicalRoots_eq : (fun v => v ∈ (sortOn id roots).dedup) = (· ∈ roots) := by
  funext v
  exact propext mem_canonicalRoots

theorem labelled_isLeast {v : WorkId} {d : ℕ}
    (known : (explore graph (sortOn id roots).dedup).distance[v]? = some d) :
    IsLeast {n | Reach (· ∈ roots) graph.Dependent n v} d := by
  rw [← canonicalRoots_eq]
  exact explore_isLeast known

theorem labelled_iff {v : WorkId} :
    (explore graph (sortOn id roots).dedup).distance.contains v = true ↔
      ∃ n, Reach (· ∈ roots) graph.Dependent n v := by
  rw [Lookup.contains_iff]
  constructor
  · rintro ⟨d, known⟩
    exact ⟨d, (labelled_isLeast known).1⟩
  · rintro ⟨n, walk⟩
    rw [← canonicalRoots_eq] at walk
    exact explore_covers walk

end Labels

theorem mem_affectedSubgraph
    {affected : AffectedSubgraph} (ok : affectedSubgraph graph roots = .ok affected)
    {node : AffectedSubgraphNode} : node ∈ affected.nodes ↔ node.workId ∉ roots ∧
      IsLeast {n | Reach (· ∈ roots) graph.Dependent n node.workId} node.distance := by
  simp only [affectedSubgraph] at ok
  split at ok
  · cases ok
  · cases ok
    obtain ⟨w, d⟩ := node
    simp only [List.mem_map, List.mem_filter, Prod.exists, AffectedSubgraphNode.mk.injEq,
      decide_eq_true_eq, mem_canonicalRoots, Lookup.mem_toList_iff]
    constructor
    · rintro ⟨v, n, ⟨known, outside⟩, rfl, rfl⟩
      exact ⟨outside, labelled_isLeast known⟩
    · rintro ⟨outside, least⟩
      obtain ⟨d', known⟩ := Lookup.contains_iff.mp (labelled_iff.mpr ⟨d, least.1⟩)
      have equal : d' = d := (labelled_isLeast known).unique least
      exact ⟨w, d, ⟨equal ▸ known, outside⟩, rfl, rfl⟩

/-- What the report says of the roots: their dependents with the distances, each once, and the edges
behind a root or a dependent that do not lead into a root. -/
structure AffectedSubgraph.Closes (graph : DependencyGraph) (roots : List WorkId)
    (affected : AffectedSubgraph) : Prop where
  canonical : ∀ v, v ∈ affected.roots ↔ v ∈ roots
  nodes : ∀ node, node ∈ affected.nodes ↔ node.workId ∉ roots ∧
    IsLeast {n | Reach (· ∈ roots) graph.Dependent n node.workId} node.distance
  once : (affected.nodes.map AffectedSubgraphNode.workId).Nodup
  edges : ∀ edge, edge ∈ affected.edges ↔ edge ∈ graph.edges ∧ edge.successor ∉ roots ∧
    (edge.predecessor ∈ roots ∨ ∃ node ∈ affected.nodes, node.workId = edge.predecessor)
  inOrder : affected.edges.Sublist graph.edges

section Closure

variable {graph : DependencyGraph} {roots : List WorkId}

variable {affected : AffectedSubgraph}

theorem labelled_or_root (ok : affectedSubgraph graph roots = .ok affected)
    {v : WorkId} : (explore graph (sortOn id roots).dedup).distance.contains v = true ↔
      v ∈ roots ∨ ∃ node ∈ affected.nodes, node.workId = v := by
  constructor
  · intro labelled
    obtain ⟨d, known⟩ := Lookup.contains_iff.mp labelled
    by_cases root : v ∈ roots
    · exact .inl root
    · exact .inr ⟨⟨v, d⟩, (mem_affectedSubgraph ok).mpr ⟨root, labelled_isLeast known⟩, rfl⟩
  · rintro (root | ⟨node, listed, rfl⟩)
    · exact labelled_iff.mpr ⟨0, .seed root⟩
    · exact labelled_iff.mpr ⟨_, ((mem_affectedSubgraph ok).mp listed).2.1⟩

theorem affectedSubgraph_nodes_nodup (ok : affectedSubgraph graph roots = .ok affected) :
    (affected.nodes.map AffectedSubgraphNode.workId).Nodup := by
  simp only [affectedSubgraph] at ok
  split at ok
  · cases ok
  · cases ok
    rw [List.map_map, List.nodup_iff_pairwise_ne, List.pairwise_map]
    apply List.Pairwise.filter
    refine Std.TreeMap.distinct_keys_toList.imp fun apart same => apart ?_
    exact Std.LawfulEqCmp.compare_eq_iff_eq.mpr same

theorem mem_affectedSubgraph_edges
    (ok : affectedSubgraph graph roots = .ok affected) {edge : DependencyEdge} :
    edge ∈ affected.edges ↔ edge ∈ graph.edges ∧ edge.successor ∉ roots ∧
      (edge.predecessor ∈ roots ∨ ∃ node ∈ affected.nodes, node.workId = edge.predecessor) := by
  rw [← labelled_or_root ok]
  simp only [affectedSubgraph] at ok
  split at ok
  · cases ok
  · cases ok
    simp only [List.mem_filter, Bool.and_eq_true, decide_eq_true_eq, mem_canonicalRoots]
    constructor
    · rintro ⟨member, ⟨behind, -⟩, outside⟩
      exact ⟨member, outside, behind⟩
    · rintro ⟨member, outside, behind⟩
      obtain ⟨n, walk⟩ := labelled_iff.mp behind
      have onward : Reach (· ∈ roots) graph.Dependent (n + 1) edge.successor :=
        walk.step ⟨edge, member, rfl, rfl⟩
      exact ⟨member, ⟨behind, labelled_iff.mpr ⟨_, onward⟩⟩, outside⟩

end Closure

/-- The closure of a set of roots, or the refusal of one that the graph does not have. -/
theorem affectedSubgraph_closes (graph : DependencyGraph) (roots : List WorkId) :
    (∃ root ∈ roots, graph.hasWork root = false ∧
      affectedSubgraph graph roots = .error (.unknownRoot root)) ∨
    (∀ root ∈ roots, graph.hasWork root = true) ∧
      ∃ affected, affectedSubgraph graph roots = .ok affected ∧ affected.Closes graph roots := by
  cases ran : affectedSubgraph graph roots with
  | error error =>
    left
    simp only [affectedSubgraph] at ran
    split at ran
    · rename_i root unknown
      cases ran
      have absent := List.find?_some unknown
      refine ⟨root, mem_canonicalRoots.mp (List.mem_of_find?_eq_some unknown), ?_, rfl⟩
      simpa using absent
    · cases ran
  | ok affected =>
    right
    refine ⟨affectedSubgraph_ok.mp ⟨affected, ran⟩, affected, rfl, ?_, ?_, ?_, ?_, ?_⟩
    · intro v
      simp only [affectedSubgraph] at ran
      split at ran
      · cases ran
      · cases ran
        exact mem_canonicalRoots
    · exact fun node => mem_affectedSubgraph ran
    · exact affectedSubgraph_nodes_nodup ran
    · exact fun edge => mem_affectedSubgraph_edges ran
    · simp only [affectedSubgraph] at ran
      split at ran
      · cases ran
      · cases ran
        exact List.filter_sublist

def handover : DependencyEdge := ⟨⟨"e1"⟩, ⟨"p"⟩, ⟨"a"⟩, ⟨"b"⟩, .closedOnly, ⟨1⟩⟩

def handoverGraph : DependencyGraph where
  projectId := ⟨"p"⟩
  nodes := [⟨⟨"p"⟩, ⟨"a"⟩, .directTask⟩, ⟨⟨"p"⟩, ⟨"b"⟩, .directTask⟩]
  edges := [handover]
  nodesSorted := by decide
  edgesSorted := List.pairwise_singleton _ _
  admissible := {
    nodeScope := by decide
    nodesDistinct := by decide
    edgeScope := by decide
    edgesDistinct := List.nodup_singleton _
    pairsDistinct := List.nodup_singleton _
    noSelfEdge := by decide
    endpoints := by
      intro edge member
      obtain rfl := List.mem_singleton.mp member
      exact ⟨⟨_, List.mem_cons_self, rfl, rfl⟩, _, List.mem_cons_of_mem _ List.mem_cons_self, rfl, rfl⟩
    acyclic := by
      intro v loop
      obtain ⟨_, ⟨first, member, leaves, _⟩, _⟩ := Relation.TransGen.head'_iff.mp loop
      obtain ⟨_, _, ⟨last, member', _, enters⟩⟩ := Relation.TransGen.tail'_iff.mp loop
      obtain rfl := List.mem_singleton.mp member
      obtain rfl := List.mem_singleton.mp member'
      exact absurd (leaves.trans enters.symm) (by decide) }

theorem rootEdge_not_listed : ∃ affected,
    affectedSubgraph handoverGraph [⟨"a"⟩, ⟨"b"⟩] = .ok affected ∧
      handover ∈ handoverGraph.edges ∧ handover.predecessor ∈ affected.roots ∧
      handover ∉ affected.edges :=
  ⟨⟨[⟨"a"⟩, ⟨"b"⟩], [], []⟩, by decide +kernel, List.mem_singleton_self _, List.mem_cons_self,
    List.not_mem_nil⟩

end Boreal.Dependencies
