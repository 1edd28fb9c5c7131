/- The validated graph value, and what validation accepts and reports. -/
import BorealWork.DependencyCycle

namespace Boreal.Dependencies
open Sorting Walks

variable {projectId : ProjectId} {nodeById : NodeIndex}

theorem indexNodes_ok {nodes : List DependencyEndpoint} :
    indexNodes projectId nodes ∅ = .ok nodeById ↔
      (∀ node ∈ nodes, node.projectId = projectId) ∧
      (nodes.map DependencyEndpoint.workId).Nodup ∧
      nodes.foldl (Lookup.indexBy DependencyEndpoint.workId) ∅ = nodeById := by
  rw [indexNodes, Lookup.indexAll_ok]
  simp

/-- What the edge loop asks of one edge, given what it has seen. -/
structure EdgeAccepted (projectId : ProjectId) (nodeById : NodeIndex)
    (edgeIds : Std.TreeSet DependencyId)
    (endpointPairs : Std.TreeMap (WorkId ×ₗ WorkId) DependencyId) (edge : DependencyEdge) :
    Prop where
  scope : edge.projectId = projectId
  newId : edge.id ∉ edgeIds
  noSelfEdge : edge.predecessor ≠ edge.successor
  endpoints : ∀ w, w = edge.predecessor ∨ w = edge.successor →
    ∃ node, nodeById[w]? = some node ∧ node.kind = .directTask
  newPair : endpointPairs[toLex (edge.predecessor, edge.successor)]? = none

variable {endpointPairs : Std.TreeMap (WorkId ×ₗ WorkId) DependencyId} {edgeIds : Std.TreeSet DependencyId}

theorem checkEdges_cons {edge : DependencyEdge} {rest : List DependencyEdge} :
    checkEdges projectId nodeById (edge :: rest) edgeIds endpointPairs = .ok () ↔
      EdgeAccepted projectId nodeById edgeIds endpointPairs edge ∧
      checkEdges projectId nodeById rest (edgeIds.insert edge.id)
        (endpointPairs.insert (toLex (edge.predecessor, edge.successor)) edge.id) = .ok () := by
  rw [checkEdges]
  constructor
  · intro h
    split_ifs at h with scope seen self
    split at h
    · cases h
    · rename_i predecessor atPredecessor
      split at h
      · cases h
      · rename_i successor atSuccessor
        split at h
        · cases h
        · rename_i direct
          split at h
          · cases h
          · rename_i newPair
            have kinds : predecessor.kind = .directTask ∧ successor.kind = .directTask := by
              simpa using List.find?_eq_none.mp direct
            refine ⟨⟨not_not.mp scope, by simpa using seen, self, ?_, newPair⟩, h⟩
            rintro w (rfl | rfl)
            · exact ⟨predecessor, atPredecessor, kinds.1⟩
            · exact ⟨successor, atSuccessor, kinds.2⟩
  · rintro ⟨accepted, h⟩
    obtain ⟨predecessor, atPredecessor, direct⟩ := accepted.endpoints _ (.inl rfl)
    obtain ⟨successor, atSuccessor, direct'⟩ := accepted.endpoints _ (.inr rfl)
    have unseen : ¬ edgeIds.contains edge.id = true := by simpa using accepted.newId
    have kinds : [predecessor, successor].find? (·.kind ≠ .directTask) = none := by
      simp [direct, direct']
    rw [if_neg (not_not.mpr accepted.scope), if_neg unseen, if_neg accepted.noSelfEdge]
    simp only [atPredecessor, atSuccessor, kinds, accepted.newPair]
    exact h

theorem EdgeAccepted.insert {first edge : DependencyEdge} :
    EdgeAccepted projectId nodeById (edgeIds.insert first.id)
        (endpointPairs.insert (toLex (first.predecessor, first.successor)) first.id) edge ↔
      EdgeAccepted projectId nodeById edgeIds endpointPairs edge ∧ first.id ≠ edge.id ∧
        (first.predecessor, first.successor) ≠ (edge.predecessor, edge.successor) := by
  constructor
  · intro accepted
    have newId := mt Lookup.mem_insert.mpr accepted.newId
    have newPair := accepted.newPair
    rw [Lookup.getElem?_insert] at newPair
    split_ifs at newPair with same
    refine ⟨⟨accepted.scope, fun seen => newId (.inr seen), accepted.noSelfEdge,
      accepted.endpoints, newPair⟩, fun equal => newId (.inl equal), ?_⟩
    exact fun equal => same (congrArg toLex equal)
  · rintro ⟨accepted, otherId, otherPair⟩
    refine ⟨accepted.scope, ?_, accepted.noSelfEdge, accepted.endpoints, ?_⟩
    · rw [Lookup.mem_insert]
      exact not_or.mpr ⟨otherId, accepted.newId⟩
    · rw [Lookup.getElem?_insert_ne _ _ fun equal => otherPair (toLex.injective equal)]
      exact accepted.newPair

theorem checkEdges_ok {edges : List DependencyEdge}
    :
    checkEdges projectId nodeById edges edgeIds endpointPairs = .ok () ↔
      (∀ edge ∈ edges, EdgeAccepted projectId nodeById edgeIds endpointPairs edge) ∧
      (edges.map DependencyEdge.id).Nodup ∧
      (edges.map fun edge => (edge.predecessor, edge.successor)).Nodup := by
  induction edges generalizing edgeIds endpointPairs with
  | nil => simp [checkEdges]
  | cons first rest ih =>
    rw [checkEdges_cons, ih, List.forall_mem_cons, List.map_cons, List.map_cons, List.nodup_cons,
      List.nodup_cons]
    simp only [EdgeAccepted.insert, List.mem_map, not_exists, not_and]
    constructor
    · rintro ⟨accepted, later, ids, pairs⟩
      exact ⟨⟨accepted, fun edge member => (later edge member).1⟩,
        ⟨fun edge member => (later edge member).2.1.symm, ids⟩,
        fun edge member => (later edge member).2.2.symm, pairs⟩
    · rintro ⟨⟨accepted, later⟩, ⟨otherIds, ids⟩, otherPairs, pairs⟩
      exact ⟨accepted, fun edge member => ⟨later edge member, fun same => otherIds edge member same.symm,
        fun same => otherPairs edge member same.symm⟩, ids, pairs⟩

variable {workIds : List WorkId}

theorem indexNodes_no_cycle {nodes : List DependencyEndpoint} {edgeIds : List DependencyId} :
    indexNodes projectId nodes nodeById ≠ .error (.dependencyCycle workIds edgeIds) := by
  intro failed
  obtain ⟨node, _, reason⟩ := Lookup.indexAll_error failed
  simp at reason

theorem checkEdges_no_cycle {edges : List DependencyEdge} {seen : Std.TreeSet DependencyId}
    {edgeIds : List DependencyId} :
    checkEdges projectId nodeById edges seen endpointPairs ≠
      .error (.dependencyCycle workIds edgeIds) := by
  induction edges generalizing seen endpointPairs with
  | nil => simp [checkEdges]
  | cons edge rest ih =>
    rw [checkEdges]
    split_ifs
    · simp
    · simp
    · simp
    · split
      · simp
      · split
        · simp
        · split
          · simp
          · split
            · simp
            · exact ih

section Checked

variable {projectId : ProjectId} {nodes : List DependencyEndpoint} {edges : List DependencyEdge}

theorem directEndpoint_iff {nodeById : NodeIndex}
    (indexed : indexNodes projectId nodes ∅ = .ok nodeById) {w : WorkId} :
    (∃ node, nodeById[w]? = some node ∧ node.kind = .directTask) ↔ DirectEndpoint nodes w := by
  obtain ⟨_, distinct, rfl⟩ := indexNodes_ok.mp indexed
  constructor
  · rintro ⟨node, found, direct⟩
    rcases (Lookup.getElem?_foldl_indexBy distinct (by simp)).mp found with old | ⟨member, named⟩
    · simp at old
    · exact ⟨node, member, named, direct⟩
  · rintro ⟨node, member, named, direct⟩
    refine ⟨node, (Lookup.getElem?_foldl_indexBy distinct ?_).mpr (.inr ⟨member, named⟩), direct⟩
    simp

theorem findCycle_eq_none_iff {nodeById : NodeIndex} (indexed : indexNodes projectId nodes ∅ = .ok nodeById)
    (endpoints : ∀ edge ∈ edges, DirectEndpoint nodes edge.predecessor) :
    findCycle nodeById edges = none ↔
      Acyclic DependencyEdge.predecessor DependencyEdge.successor (· ∈ edges) := by
  constructor
  · refine findCycle_complete ?_
    intro edge member
    obtain ⟨node, found, _⟩ := (directEndpoint_iff indexed).mpr (endpoints edge member)
    exact Lookup.mem_keys_iff.mpr ⟨node, found⟩
  · intro acyclic
    cases found : findCycle nodeById edges with
    | none => rfl
    | some cycle =>
      obtain ⟨workIds, edgeIds⟩ := cycle
      exact absurd acyclic (findCycle_sound found).not_acyclic

theorem checkGraph_ok : checkGraph projectId nodes edges = .ok () ↔ Admissible projectId nodes edges := by
  constructor
  · intro h
    unfold checkGraph at h
    cases indexed : indexNodes projectId nodes ∅ with
    | error error => simp [indexed] at h
    | ok nodeById =>
      cases checked : checkEdges projectId nodeById edges ∅ ∅ with
      | error error => simp [indexed, checked] at h
      | ok done =>
        cases found : findCycle nodeById edges with
        | some cycle => simp [indexed, checked, found] at h
        | none =>
          obtain ⟨scopes, distinct, _⟩ := indexNodes_ok.mp indexed
          obtain ⟨accepted, ids, pairs⟩ := checkEdges_ok.mp checked
          have endpoints (edge : DependencyEdge) (member : edge ∈ edges) :
              DirectEndpoint nodes edge.predecessor ∧
                DirectEndpoint nodes edge.successor := by
            have known := (accepted edge member).endpoints
            exact ⟨(directEndpoint_iff indexed).mp (known _ (.inl rfl)),
              (directEndpoint_iff indexed).mp (known _ (.inr rfl))⟩
          exact ⟨scopes, distinct, fun edge member => (accepted edge member).scope, ids,
            pairs, fun edge member => (accepted edge member).noSelfEdge, endpoints,
            (findCycle_eq_none_iff indexed fun edge member =>
              (endpoints edge member).1).mp found⟩
  · intro admissible
    have indexed : indexNodes projectId nodes ∅ = .ok (nodes.foldl (Lookup.indexBy DependencyEndpoint.workId) ∅) :=
      indexNodes_ok.mpr ⟨admissible.nodeScope, admissible.nodesDistinct, rfl⟩
    have checked : checkEdges projectId (nodes.foldl (Lookup.indexBy DependencyEndpoint.workId) ∅) edges ∅ ∅ = .ok () := by
      refine checkEdges_ok.mpr ⟨?_, admissible.edgesDistinct, admissible.pairsDistinct⟩
      intro edge member
      obtain ⟨first, second⟩ := admissible.endpoints edge member
      refine ⟨admissible.edgeScope edge member, by simp, admissible.noSelfEdge edge member, ?_,
        by simp⟩
      rintro w (rfl | rfl)
      · exact (directEndpoint_iff indexed).mpr first
      · exact (directEndpoint_iff indexed).mpr second
    have found := (findCycle_eq_none_iff indexed fun edge member =>
      (admissible.endpoints edge member).1).mpr admissible.acyclic
    simp only [checkGraph, indexed, checked, found]

theorem checkGraph_cycle {workIds : List WorkId} {edgeIds : List DependencyId}
    (h : checkGraph projectId nodes edges = .error (.dependencyCycle workIds edgeIds)) :
    ClosedWalk edges workIds edgeIds := by
  unfold checkGraph at h
  cases indexed : indexNodes projectId nodes ∅ with
  | error error =>
    simp only [indexed, Except.error.injEq] at h
    exact absurd (h ▸ indexed) indexNodes_no_cycle
  | ok nodeById =>
    cases checked : checkEdges projectId nodeById edges ∅ ∅ with
    | error error =>
      simp only [indexed, checked, Except.error.injEq] at h
      exact absurd (h ▸ checked) checkEdges_no_cycle
    | ok done =>
      cases found : findCycle nodeById edges with
      | none => simp [indexed, checked, found] at h
      | some cycle =>
        obtain ⟨workIds', edgeIds'⟩ := cycle
        simp only [indexed, checked, found, Except.error.injEq,
          DependencyGraphError.dependencyCycle.injEq] at h
        obtain ⟨rfl, rfl⟩ := h
        exact findCycle_sound found

end Checked

theorem Admissible.perm {nodes nodes' : List DependencyEndpoint}
    {edges edges' : List DependencyEdge} (sameNodes : nodes.Perm nodes')
    (sameEdges : edges.Perm edges') (h : Admissible projectId nodes edges) :
    Admissible projectId nodes' edges' where
  nodeScope node member := h.nodeScope node (sameNodes.mem_iff.mpr member)
  nodesDistinct := (sameNodes.map _).nodup_iff.mp h.nodesDistinct
  edgeScope edge member := h.edgeScope edge (sameEdges.mem_iff.mpr member)
  edgesDistinct := (sameEdges.map _).nodup_iff.mp h.edgesDistinct
  pairsDistinct := (sameEdges.map _).nodup_iff.mp h.pairsDistinct
  noSelfEdge edge member := h.noSelfEdge edge (sameEdges.mem_iff.mpr member)
  endpoints := by
    intro edge member
    obtain ⟨⟨first, known, source⟩, second, known', target⟩ :=
      h.endpoints edge (sameEdges.mem_iff.mpr member)
    exact ⟨⟨first, sameNodes.mem_iff.mp known, source⟩, ⟨second, sameNodes.mem_iff.mp known', target⟩⟩
  acyclic := h.acyclic.mono fun _ member => sameEdges.mem_iff.mpr member

theorem ClosedWalk.perm {edges edges' : List DependencyEdge}
    {edgeIds : List DependencyId} (same : edges.Perm edges')
    (h : ClosedWalk edges workIds edgeIds) : ClosedWalk edges' workIds edgeIds := by
  refine ⟨⟨h.trail.length, ?_⟩, h.nonempty, h.closed⟩
  intro k i named
  obtain ⟨edge, member, rest⟩ := h.trail.arc k i named
  exact ⟨edge, same.mem_iff.mp member, rest⟩

theorem DependencyEndpoint.key_injective : Function.Injective DependencyEndpoint.key := by
  rintro ⟨p, w, kind⟩ ⟨p', w', kind'⟩ same
  simp only [key, EmbeddingLike.apply_eq_iff_eq, Prod.mk.injEq] at same
  obtain ⟨rfl, rfl, ranks⟩ := same
  cases kind <;> cases kind' <;> first | rfl | cases ranks

theorem DependencyEdge.key_injective : Function.Injective DependencyEdge.key := by
  rintro ⟨i, p, a, b, ⟨⟩, r⟩ ⟨i', p', a', b', ⟨⟩, r'⟩ same
  simp only [key, EmbeddingLike.apply_eq_iff_eq, Prod.mk.injEq] at same
  obtain ⟨rfl, rfl, rfl, rfl, rfl⟩ := same
  rfl

/-- A canonical graph: sorted, and carrying what validation established. -/
structure DependencyGraph where
  projectId : ProjectId
  nodes : List DependencyEndpoint
  edges : List DependencyEdge
  nodesSorted : nodes.Pairwise fun a b => a.key ≤ b.key
  edgesSorted : edges.Pairwise fun a b => a.key ≤ b.key
  admissible : Admissible projectId nodes edges

namespace DependencyGraph

def edge (graph : DependencyGraph) (id : DependencyId) : Option DependencyEdge :=
  graph.edges.find? (·.id = id)

def hasWork (graph : DependencyGraph) (id : WorkId) : Bool := graph.nodes.any (·.workId = id)

def outgoing (graph : DependencyGraph) (predecessor : WorkId) : List DependencyEdge :=
  graph.edges.filter (·.predecessor = predecessor)

variable {graph : DependencyGraph}

theorem mem_outgoing {w : WorkId} {e : DependencyEdge} :
    e ∈ graph.outgoing w ↔ e ∈ graph.edges ∧ e.predecessor = w := by
  simp [outgoing]

theorem edge_unique {e e' : DependencyEdge} (member : e ∈ graph.edges)
    (member' : e' ∈ graph.edges) (same : e.id = e'.id) : e = e' :=
  List.inj_on_of_nodup_map graph.admissible.edgesDistinct member member' same

theorem edge_eq_some {id : DependencyId} {e : DependencyEdge} :
    graph.edge id = some e ↔ e ∈ graph.edges ∧ e.id = id := by
  constructor
  · intro found
    exact ⟨List.mem_of_find?_eq_some found, by simpa using List.find?_some found⟩
  · rintro ⟨member, named⟩
    cases found : graph.edge id with
    | none => exact absurd named (by simpa using List.find?_eq_none.mp found e member)
    | some e' =>
      have named' : e'.id = id := by simpa using List.find?_some found
      rw [edge_unique member (List.mem_of_find?_eq_some found) (named.trans named'.symm)]

theorem edge_eq_none {id : DependencyId} : graph.edge id = none ↔ ∀ e ∈ graph.edges, e.id ≠ id := by
  simp [edge]

end DependencyGraph

def validateDependencyGraph (projectId : ProjectId) (nodes : List DependencyEndpoint)
    (edges : List DependencyEdge) : Except DependencyGraphError DependencyGraph :=
  match checked : checkGraph projectId (sortOn DependencyEndpoint.key nodes)
      (sortOn DependencyEdge.key edges) with
  | .error error => .error error
  | .ok () => .ok ⟨projectId, _, _, sortOn_pairwise _ nodes, sortOn_pairwise _ edges,
      checkGraph_ok.mp checked⟩

section Validated

variable {projectId : ProjectId} {nodes nodes' : List DependencyEndpoint}
  {edges edges' : List DependencyEdge}

theorem validateDependencyGraph_eq_ok {graph : DependencyGraph} :
    validateDependencyGraph projectId nodes edges = .ok graph ↔
      graph.projectId = projectId ∧ graph.nodes = sortOn DependencyEndpoint.key nodes ∧
        graph.edges = sortOn DependencyEdge.key edges := by
  unfold validateDependencyGraph
  constructor
  · intro h
    split at h
    · cases h
    · cases h
      exact ⟨rfl, rfl, rfl⟩
  · obtain ⟨p, ns, es, nodesSorted, edgesSorted, admissible⟩ := graph
    rintro ⟨rfl, rfl, rfl⟩
    split
    · rename_i error failed
      rw [checkGraph_ok.mpr admissible] at failed
      cases failed
    · rfl

theorem validateDependencyGraph_eq_error {error : DependencyGraphError} :
    validateDependencyGraph projectId nodes edges = .error error ↔
      checkGraph projectId (sortOn DependencyEndpoint.key nodes)
        (sortOn DependencyEdge.key edges) = .error error := by
  unfold validateDependencyGraph
  split
  · rename_i error' failed
    rw [failed, Except.error.injEq, Except.error.injEq]
  · rename_i checked
    constructor
    · intro h
      cases h
    · intro failed
      cases checked.symm.trans failed

theorem validateDependencyGraph_ok :
    (∃ graph, validateDependencyGraph projectId nodes edges = .ok graph) ↔
      Admissible projectId nodes edges := by
  constructor
  · rintro ⟨graph, accepted⟩
    obtain ⟨rfl, sameNodes, sameEdges⟩ := validateDependencyGraph_eq_ok.mp accepted
    have admissible := graph.admissible
    rw [sameNodes, sameEdges] at admissible
    exact admissible.perm (sortOn_perm _ nodes) (sortOn_perm _ edges)
  · intro admissible
    have canonical := admissible.perm (sortOn_perm DependencyEndpoint.key nodes).symm
      (sortOn_perm DependencyEdge.key edges).symm
    exact ⟨⟨projectId, _, _, sortOn_pairwise _ nodes, sortOn_pairwise _ edges, canonical⟩,
      validateDependencyGraph_eq_ok.mpr ⟨rfl, rfl, rfl⟩⟩

theorem validateDependencyGraph_cycle {workIds : List WorkId} {edgeIds : List DependencyId}
    (failed : validateDependencyGraph projectId nodes edges =
      .error (.dependencyCycle workIds edgeIds)) : ClosedWalk edges workIds edgeIds :=
  (checkGraph_cycle (validateDependencyGraph_eq_error.mp failed)).perm (sortOn_perm _ edges)

/-- Neither the graph nor the error that is reported depends on the order of the nodes and the edges. -/
theorem validateDependencyGraph_perm (sameNodes : nodes.Perm nodes')
    (sameEdges : edges.Perm edges') : validateDependencyGraph projectId nodes edges =
      validateDependencyGraph projectId nodes' edges' := by
  have canonicalNodes : sortOn DependencyEndpoint.key nodes = sortOn DependencyEndpoint.key nodes' :=
    sortOn_congr sameNodes fun _ _ _ _ same => DependencyEndpoint.key_injective same
  have canonicalEdges : sortOn DependencyEdge.key edges = sortOn DependencyEdge.key edges' :=
    sortOn_congr sameEdges fun _ _ _ _ same => DependencyEdge.key_injective same
  cases result : validateDependencyGraph projectId nodes' edges' with
  | error error =>
    rw [validateDependencyGraph_eq_error] at result ⊢
    rwa [canonicalNodes, canonicalEdges]
  | ok graph =>
    rw [validateDependencyGraph_eq_ok] at result ⊢
    rwa [canonicalNodes, canonicalEdges]

theorem validateDependencyGraph_perm_swap :
    let first : DependencyEndpoint := ⟨⟨"p"⟩, ⟨"a"⟩, .directTask⟩
    let second : DependencyEndpoint := ⟨⟨"p"⟩, ⟨"b"⟩, .directTask⟩
    validateDependencyGraph ⟨"p"⟩ [first, second] [] = validateDependencyGraph ⟨"p"⟩ [second, first] [] :=
  validateDependencyGraph_perm (.swap _ _ _) (.refl _)

end Validated

/-- Validation accepts exactly the admissible inputs, and a reported cycle is a closed walk of
the input. -/
theorem validateDependencyGraph_exact (projectId : ProjectId) (nodes : List DependencyEndpoint)
    (edges : List DependencyEdge) :
    ((∃ graph, validateDependencyGraph projectId nodes edges = .ok graph) ↔
      Admissible projectId nodes edges) ∧
    ∀ workIds edgeIds, validateDependencyGraph projectId nodes edges =
      .error (.dependencyCycle workIds edgeIds) → ClosedWalk edges workIds edgeIds :=
  ⟨validateDependencyGraph_ok, fun _ _ => validateDependencyGraph_cycle⟩

theorem validateDependencyGraph_exact_two_cycle :
    ClosedWalk
      [⟨⟨"e1"⟩, ⟨"p"⟩, ⟨"a"⟩, ⟨"b"⟩, .closedOnly, ⟨1⟩⟩,
        ⟨⟨"e2"⟩, ⟨"p"⟩, ⟨"b"⟩, ⟨"a"⟩, .closedOnly, ⟨1⟩⟩]
      [⟨"a"⟩, ⟨"b"⟩, ⟨"a"⟩] [⟨"e1"⟩, ⟨"e2"⟩] :=
  (validateDependencyGraph_exact ⟨"p"⟩
    [⟨⟨"p"⟩, ⟨"a"⟩, .directTask⟩, ⟨⟨"p"⟩, ⟨"b"⟩, .directTask⟩] _).2 _ _ rfl

end Boreal.Dependencies
