/- Propagation of an invalidation: the marks are the least closed set of edges, and the distances
are those of the invalidated edges from the invalidated root. -/
import BorealWork.DependencyDistance

namespace Boreal.Dependencies
open Sorting Walks Worklist

inductive Invalidated (evaluation : DependencyEvaluation) (direct : EdgeEvaluation → Prop) :
    EdgeEvaluation → Prop
  | direct {e} : e ∈ evaluation.edges → direct e → Invalidated evaluation direct e
  | propagated {e e'} : Invalidated evaluation direct e → e' ∈ evaluation.edges →
      e'.edge.predecessor = e.edge.successor → e'.satisfaction.isAcceptedClosed = true →
      Invalidated evaluation direct e'

def ClosedEdge (evaluation : DependencyEvaluation) (edge : DependencyEdge) : Prop :=
  ∃ e ∈ evaluation.edges, e.edge = edge ∧ e.satisfaction.isAcceptedClosed = true

/-- The first successors to be queued. -/
def Seeded (evaluation : DependencyEvaluation) (direct : EdgeEvaluation → Prop) (v : WorkId) : Prop :=
  ∃ e ∈ evaluation.edges, direct e ∧ e.edge.successor = v

/-- One work item's accepted proof rests on another's. -/
abbrev Rests (evaluation : DependencyEvaluation) : WorkId → WorkId → Prop :=
  Step DependencyEdge.predecessor DependencyEdge.successor (ClosedEdge evaluation)

theorem Invalidated.mem {evaluation : DependencyEvaluation} {direct : EdgeEvaluation → Prop}
    {e : EdgeEvaluation} (h : Invalidated evaluation direct e) : e ∈ evaluation.edges := by
  cases h with
  | direct member => exact member
  | propagated _ member => exact member

theorem invalidated_of_reach {evaluation : DependencyEvaluation} {direct : EdgeEvaluation → Prop}
    {n : ℕ} {v : WorkId} (walk : Reach (Seeded evaluation direct) (Rests evaluation) n v) :
    ∃ e, Invalidated evaluation direct e ∧ e.edge.successor = v := by
  induction walk with
  | seed start =>
    obtain ⟨e, member, own, rfl⟩ := start
    exact ⟨e, .direct member own, rfl⟩
  | step _ move ih =>
    obtain ⟨edge, ⟨e, member, rfl, accepted⟩, rfl, rfl⟩ := move
    obtain ⟨before, invalid, meets⟩ := ih
    exact ⟨e, invalid.propagated member meets.symm accepted, rfl⟩

def Propagation.frontier (s : Propagation) : Frontier WorkId :=
  ⟨fun v => s.nodeDistance[v]?, s.queue⟩

/-- Edges of the graph that have not been marked yet. -/
def Propagation.unmarked (graph : DependencyGraph) (s : Propagation) : ℕ :=
  ((graph.edges.map DependencyEdge.id).toFinset.filter fun id => id ∉ s.invalidatedEdges).card

def Propagation.work (graph : DependencyGraph) (s : Propagation) : ℕ :=
  s.frontier.work (graph.edges.length + 2) graph.successors + s.unmarked graph

theorem unmarked_insert_le {graph : DependencyGraph} {s t : Propagation} {id : DependencyId}
    (marks : t.invalidatedEdges = s.invalidatedEdges.insert id) : t.unmarked graph ≤ s.unmarked graph := by
  refine Finset.card_le_card ?_
  intro i member
  obtain ⟨known, absent⟩ := Finset.mem_filter.mp member
  rw [marks, Lookup.mem_insert] at absent
  exact Finset.mem_filter.mpr ⟨known, fun old => absent (.inr old)⟩

theorem unmarked_insert_lt {graph : DependencyGraph} {s t : Propagation} {edge : DependencyEdge}
    (member : edge ∈ graph.edges) (fresh : edge.id ∉ s.invalidatedEdges)
    (marks : t.invalidatedEdges = s.invalidatedEdges.insert edge.id) :
    t.unmarked graph < s.unmarked graph := by
  refine Finset.card_lt_card ⟨?_, ?_⟩
  · intro i inside
    obtain ⟨known, absent⟩ := Finset.mem_filter.mp inside
    rw [marks, Lookup.mem_insert] at absent
    exact Finset.mem_filter.mpr ⟨known, fun old => absent (.inr old)⟩
  · intro all
    have own := all (Finset.mem_filter.mpr
      ⟨List.mem_toFinset.mpr (List.mem_map_of_mem member), fresh⟩)
    rw [Finset.mem_filter, marks, Lookup.mem_insert] at own
    exact own.2 (.inl rfl)

section Evaluated

variable {graph : DependencyGraph} {evaluation : DependencyEvaluation}

def Covers (graph : DependencyGraph) (evaluation : DependencyEvaluation) : Prop :=
  evaluation.edges.map EdgeEvaluation.edge = graph.edges

variable {e : EdgeEvaluation}

theorem Covers.mem (covers : Covers graph evaluation)
    (member : e ∈ evaluation.edges) : e.edge ∈ graph.edges := by
  rw [← covers]
  exact List.mem_map_of_mem member

theorem Covers.distinct (covers : Covers graph evaluation) :
    (evaluation.edges.map fun e => e.edge.id).Nodup := by
  have distinct := graph.admissible.edgesDistinct
  rwa [← covers, List.map_map] at distinct

theorem Covers.unique (covers : Covers graph evaluation) {e e' : EdgeEvaluation}
    (member : e ∈ evaluation.edges) (member' : e' ∈ evaluation.edges)
    (same : e.edge.id = e'.edge.id) : e = e' :=
  List.inj_on_of_nodup_map covers.distinct member member' same

theorem Covers.evaluationsById (covers : Covers graph evaluation) {id : DependencyId}
    : (evaluationsById evaluation)[id]? = some e ↔
      e ∈ evaluation.edges ∧ e.edge.id = id := by
  rw [Dependencies.evaluationsById, Lookup.getElem?_foldl_indexBy covers.distinct (by simp)]
  simp

theorem Covers.dependent (covers : Covers graph evaluation) {a b : WorkId}
    (rests : Rests evaluation a b) : graph.Dependent a b := by
  obtain ⟨edge, ⟨e, member, rfl, _⟩, rfl, rfl⟩ := rests
  exact ⟨e.edge, covers.mem member, rfl, rfl⟩

section Edge

variable {distance : ℕ} {s : Propagation} {edge : DependencyEdge}

theorem propagateEdge_stopped (covers : Covers graph evaluation) (known : edge ∈ graph.edges)
    (stops : ¬ ClosedEdge evaluation edge) :
    propagateEdge (evaluationsById evaluation) distance s edge = s := by
  unfold propagateEdge
  split
  · rfl
  · rename_i e found
    obtain ⟨member, named⟩ := covers.evaluationsById.mp found
    have same := DependencyGraph.edge_unique (covers.mem member) known named
    rw [if_neg fun accepted => stops ⟨e, member, same, accepted⟩]

theorem propagateEdge_closed (covers : Covers graph evaluation)
    (closed : ClosedEdge evaluation edge) :
    (propagateEdge (evaluationsById evaluation) distance s edge).invalidatedEdges =
        s.invalidatedEdges.insert edge.id ∧
      (propagateEdge (evaluationsById evaluation) distance s edge).frontier =
        if (s.frontier.label edge.successor).all (distance + 1 < ·) then
          s.frontier.put edge.successor (distance + 1)
        else if edge.id ∈ s.invalidatedEdges then s.frontier
        else s.frontier.requeue edge.successor := by
  obtain ⟨e, member, rfl, accepted⟩ := closed
  have found := covers.evaluationsById.mpr ⟨member, rfl⟩
  simp only [propagateEdge, found, accepted, if_true, true_and]
  by_cases lower : s.nodeDistance[e.edge.successor]?.all (distance + 1 < ·) = true
  · simp only [Propagation.frontier, lower, if_true, Bool.or_true, Frontier.put, Frontier.mk.injEq,
      and_true]
    funext w
    exact Lookup.getElem?_insert _ _ _ _
  · simp only [Propagation.frontier, lower, if_false, Bool.or_false, Bool.false_eq_true]
    by_cases marked : e.edge.id ∈ s.invalidatedEdges
    · simp [marked]
    · simp [marked, Frontier.requeue]

end Edge

variable {direct : EdgeEvaluation → Prop} {seeds : Std.TreeSet DependencyId}

/-- What every state keeps about its marks. -/
structure Marks (evaluation : DependencyEvaluation) (direct : EdgeEvaluation → Prop)
    (seeds marked : Std.TreeSet DependencyId) : Prop where
  sound : ∀ id ∈ marked, ∃ e, Invalidated evaluation direct e ∧ e.edge.id = id
  seeded : ∀ id ∈ seeds, id ∈ marked

theorem Marks.insert {marked : Std.TreeSet DependencyId} (marks : Marks evaluation direct seeds marked)
    (invalid : Invalidated evaluation direct e) :
    Marks evaluation direct seeds (marked.insert e.edge.id) := by
  refine ⟨?_, fun id member => Lookup.mem_insert.mpr (.inr (marks.seeded id member))⟩
  intro id member
  rcases Lookup.mem_insert.mp member with rfl | old
  · exact ⟨e, invalid, rfl⟩
  · exact marks.sound id old

/-- What scanning one node's edges keeps. -/
structure Spreading (graph : DependencyGraph) (evaluation : DependencyEvaluation)
    (direct : EdgeEvaluation → Prop) (seeds : Std.TreeSet DependencyId) (budget : ℕ)
    (s : Propagation) : Prop where
  sound : Sound (Seeded evaluation direct) (Rests evaluation) 1 s.frontier
  marks : Marks evaluation direct seeds s.invalidatedEdges
  work : s.work graph ≤ budget

structure Moves (s t : Propagation) : Prop where
  frontier : Advance s.frontier t.frontier
  marks : ∀ id ∈ s.invalidatedEdges, id ∈ t.invalidatedEdges

/-- What the scan owes one edge that leaves a node at the given distance. -/
def Carried (evaluation : DependencyEvaluation) (distance : ℕ) (edge : DependencyEdge)
    (s : Propagation) : Prop :=
  ClosedEdge evaluation edge → edge.id ∈ s.invalidatedEdges ∧
    ∃ d ≤ distance + 1, s.frontier.label edge.successor = some d

theorem Carried.moves {distance : ℕ} {edge : DependencyEdge} {s t : Propagation} (moves : Moves s t)
    (carried : Carried evaluation distance edge s) : Carried evaluation distance edge t := by
  intro closed
  obtain ⟨marked, d, low, known⟩ := carried closed
  obtain ⟨d', lower, known'⟩ := moves.frontier.kept _ d known
  exact ⟨moves.marks _ marked, d', lower.trans low, known'⟩

theorem Spreading.propagateEdge (covers : Covers graph evaluation) {budget n : ℕ}
    {edge : DependencyEdge} (member : edge ∈ graph.edges)
    (reached : Reach (Seeded evaluation direct) (Rests evaluation) n edge.predecessor)
    {s : Propagation} (spreading : Spreading graph evaluation direct seeds budget s) :
    Spreading graph evaluation direct seeds budget
        (propagateEdge (evaluationsById evaluation) (1 + n) s edge) ∧
      Moves s (propagateEdge (evaluationsById evaluation) (1 + n) s edge) ∧
      Carried evaluation (1 + n) edge
        (propagateEdge (evaluationsById evaluation) (1 + n) s edge) := by
  by_cases closed : ClosedEdge evaluation edge
  · obtain ⟨marked, moved⟩ := @propagateEdge_closed graph evaluation (1 + n) s edge covers closed
    generalize Dependencies.propagateEdge (evaluationsById evaluation) (1 + n) s edge = t
      at marked moved ⊢
    have walk : Reach (Seeded evaluation direct) (Rests evaluation) (n + 1) edge.successor :=
      reached.step ⟨edge, closed, rfl, rfl⟩
    have short : n + 1 ≤ graph.edges.length := graph.walk_length_le
      (walk.mono (fun _ => id) fun _ _ => covers.dependent)
    have marks : Marks evaluation direct seeds t.invalidatedEdges := by
      obtain ⟨e, known, rfl, accepted⟩ := closed
      obtain ⟨before, invalid, meets⟩ := invalidated_of_reach reached
      exact marked ▸ spreading.marks.insert (invalid.propagated known meets.symm accepted)
    have grown (id : DependencyId) (old : id ∈ s.invalidatedEdges) : id ∈ t.invalidatedEdges := by
      rw [marked]
      exact Lookup.mem_insert.mpr (.inr old)
    have own : edge.id ∈ t.invalidatedEdges := by
      rw [marked]
      exact Lookup.mem_insert.mpr (.inl rfl)
    have budgeted := spreading.work
    simp only [Propagation.work] at budgeted
    by_cases lower : (s.frontier.label edge.successor).all (1 + n + 1 < ·) = true
    · -- the distance fell: the label pays for the place in the queue
      rw [if_pos lower] at moved
      have placed := spreading.sound.put walk
      rw [← Nat.add_assoc] at placed
      have falls : 1 + n + 1 < (s.frontier.label edge.successor).getD (graph.edges.length + 2) := by
        cases known : s.frontier.label edge.successor with
        | none =>
          rw [Option.getD_none]
          omega
        | some old => simpa [known] using lower
      have paid := work_put (DependencyGraph.mem_successors member) falls
      have less := @unmarked_insert_le graph _ _ _ marked
      refine ⟨⟨moved ▸ placed, marks, ?_⟩, ⟨?_, grown⟩, fun _ => ⟨own, _, le_rfl, ?_⟩⟩
      · rw [Propagation.work, moved]
        omega
      · rw [moved]
        apply advance_put
        intro old known
        rw [known] at lower
        exact (of_decide_eq_true lower).le
      · rw [moved, Frontier.put_label_self]
    · rw [if_neg lower] at moved
      have labelled : ∃ d ≤ 1 + n + 1, s.frontier.label edge.successor = some d := by
        cases known : s.frontier.label edge.successor with
        | none => simp [known] at lower
        | some d => exact ⟨d, by simpa [known] using lower, rfl⟩
      obtain ⟨d, low, known⟩ := labelled
      by_cases old : edge.id ∈ s.invalidatedEdges
      · rw [if_pos old] at moved
        have less := @unmarked_insert_le graph _ _ _ marked
        refine ⟨⟨moved ▸ spreading.sound, marks, ?_⟩, ⟨moved ▸ Advance.refl _, grown⟩,
          fun _ => ⟨own, d, low, moved ▸ known⟩⟩
        rw [Propagation.work, moved]
        omega
      · -- the edge was new: its mark pays for the place in the queue
        rw [if_neg old] at moved
        have less := unmarked_insert_lt member old marked
        refine ⟨⟨moved ▸ spreading.sound.requeue known, marks, ?_⟩,
          ⟨moved ▸ advance_requeue _ _, grown⟩, fun _ => ⟨own, d, low, moved ▸ known⟩⟩
        rw [Propagation.work, moved]
        simp only [Frontier.work, Frontier.requeue, List.length_append, List.length_singleton]
        simp only [Frontier.work] at budgeted
        omega
  · rw [propagateEdge_stopped covers member closed]
    exact ⟨spreading, ⟨Advance.refl _, fun _ => id⟩, fun accepted => absurd accepted closed⟩

/-- What the loop keeps. -/
structure PropagationInvariant (graph : DependencyGraph) (evaluation : DependencyEvaluation)
    (direct : EdgeEvaluation → Prop) (seeds : Std.TreeSet DependencyId) (s : Propagation) : Prop where
  search : Invariant (Seeded evaluation direct) (Rests evaluation) 1 s.frontier
  marks : Marks evaluation direct seeds s.invalidatedEdges
  scanned : ∀ v d, s.frontier.label v = some d → v ∉ s.queue → ∀ edge ∈ graph.edges,
    edge.predecessor = v → ClosedEdge evaluation edge → edge.id ∈ s.invalidatedEdges

theorem propagateStep_spec (covers : Covers graph evaluation) {s s' : Propagation}
    (inv : PropagationInvariant graph evaluation direct seeds s)
    (step : propagateStep graph (evaluationsById evaluation) s = some s') :
    PropagationInvariant graph evaluation direct seeds s' ∧ s'.work graph < s.work graph := by
  obtain ⟨marked, distance, queue⟩ := s
  cases queue with
  | nil => cases step
  | cons current rest =>
    obtain ⟨d, labelled⟩ := inv.search.labelled current List.mem_cons_self
    obtain ⟨n, rfl, reached⟩ := inv.search.realised current d labelled
    have rested : Sound (Seeded evaluation direct) (Rests evaluation) 1
        (Propagation.frontier ⟨marked, distance, rest⟩) :=
      ⟨inv.search.realised, fun v later => inv.search.labelled v (List.mem_cons_of_mem _ later)⟩
    have popped : Propagation.work graph ⟨marked, distance, current :: rest⟩ =
        Propagation.work graph ⟨marked, distance, rest⟩ + 1 := by
      simp only [Propagation.work, Propagation.frontier, Propagation.unmarked, Frontier.work,
        List.length_cons]
      omega
    have stepped : (graph.outgoing current).foldl
        (propagateEdge (evaluationsById evaluation) (1 + n)) ⟨marked, distance, rest⟩ = s' := by
      have value : distance.getD current 0 = 1 + n := by
        rw [Std.TreeMap.getD_eq_getD_getElem?]
        exact congrArg (Option.getD · 0) labelled
      rw [← value]
      exact Option.some.inj step
    have pass := Drain.foldl_pass (f := propagateEdge (evaluationsById evaluation) (1 + n))
      (P := Spreading graph evaluation direct seeds
        (Propagation.work graph ⟨marked, distance, rest⟩))
      (R := Moves) (Q := Carried evaluation (1 + n))
      (fun s => ⟨Advance.refl s.frontier, fun _ => id⟩)
      (fun _ _ _ first second => ⟨first.frontier.trans second.frontier,
        fun id member => second.marks id (first.marks id member)⟩)
      (fun _ _ _ => Carried.moves) (l := graph.outgoing current) (s := ⟨marked, distance, rest⟩)
      (fun e member s spreading => by
        obtain ⟨known, leaves⟩ := DependencyGraph.mem_outgoing.mp member
        exact spreading.propagateEdge covers known (leaves ▸ reached))
      ⟨rested, inv.marks, le_rfl⟩
    rw [stepped] at pass
    obtain ⟨spread, moved, carried⟩ := pass
    refine ⟨⟨inv.search.scan labelled moved.frontier spread.sound ?_, spread.marks, ?_⟩, ?_⟩
    · rintro b ⟨edge, closed, leaves, rfl⟩
      obtain ⟨e, member, rfl, accepted⟩ := closed
      have outgoing := DependencyGraph.mem_outgoing.mpr ⟨covers.mem member, leaves⟩
      exact (carried e.edge outgoing ⟨e, member, rfl, accepted⟩).2
    · intro v dv known outside edge member leaves closed
      by_cases same : v = current
      · have outgoing := DependencyGraph.mem_outgoing.mpr ⟨member, leaves.trans same⟩
        exact (carried edge outgoing closed).1
      · have before := (moved.frontier.queued v dv known).resolve_right outside
        have absent : v ∉ current :: rest := fun queued => (List.mem_cons.mp queued).elim same
          fun later => outside (moved.frontier.queue v later)
        exact moved.marks _ (inv.scanned v dv before absent edge member leaves closed)
    · rw [popped]
      exact Nat.lt_succ_of_le spread.work

/-- The marks given at the start are exactly those of the directly invalidated edges. -/
def SeedsDirect (evaluation : DependencyEvaluation) (direct : EdgeEvaluation → Prop)
    (seeds : Std.TreeSet DependencyId) : Prop :=
  ∀ id, id ∈ seeds ↔ ∃ e ∈ evaluation.edges, direct e ∧ e.edge.id = id

theorem seedSuccessor_marked {s : Propagation}
    (marked : e.edge.id ∈ s.invalidatedEdges) : seedSuccessor s e = ⟨s.invalidatedEdges,
      s.nodeDistance.insert e.edge.successor (match s.nodeDistance[e.edge.successor]? with
        | some current => min current 1
        | none => 1), s.queue ++ [e.edge.successor]⟩ :=
  if_pos (Std.TreeSet.mem_iff_contains.mp marked)

theorem seedSuccessor_unmarked {s : Propagation}
    (unmarked : e.edge.id ∉ s.invalidatedEdges) : seedSuccessor s e = s :=
  if_neg (mt Std.TreeSet.mem_iff_contains.mpr unmarked)

theorem foldl_seedSuccessor (l : List EdgeEvaluation) (s : Propagation)
    (ones : ∀ (v : WorkId) (d : ℕ), s.nodeDistance[v]? = some d → d = 1) :
    (l.foldl seedSuccessor s).invalidatedEdges = s.invalidatedEdges ∧
    (l.foldl seedSuccessor s).queue.length ≤ s.queue.length + l.length ∧
    (∀ v, v ∈ (l.foldl seedSuccessor s).queue ↔ v ∈ s.queue ∨
      ∃ e ∈ l, e.edge.id ∈ s.invalidatedEdges ∧ e.edge.successor = v) ∧
    ∀ (v : WorkId) (d : ℕ), (l.foldl seedSuccessor s).nodeDistance[v]? = some d ↔ d = 1 ∧
      (s.nodeDistance[v]? = some 1 ∨
        ∃ e ∈ l, e.edge.id ∈ s.invalidatedEdges ∧ e.edge.successor = v) := by
  induction l generalizing s with
  | nil =>
    refine ⟨rfl, le_rfl, by simp, ?_⟩
    intro v d
    simp only [List.foldl_nil, List.not_mem_nil, false_and, exists_false, or_false]
    constructor
    · intro known
      have one := ones v d known
      exact ⟨one, one ▸ known⟩
    · rintro ⟨rfl, known⟩
      exact known
  | cons e rest ih =>
    by_cases marked : e.edge.id ∈ s.invalidatedEdges
    · have distances (v : WorkId) : (seedSuccessor s e).nodeDistance[v]? =
          if e.edge.successor = v then some 1 else s.nodeDistance[v]? := by
        rw [seedSuccessor_marked marked, Lookup.getElem?_insert]
        cases known : s.nodeDistance[e.edge.successor]? with
        | none => rfl
        | some d =>
          rw [ones _ _ known]
          rfl
      have next := ih (seedSuccessor s e) (by
        intro v d known
        rw [distances v] at known
        split_ifs at known with own
        · exact (Option.some.inj known).symm
        · exact ones v d known)
      have marks : (seedSuccessor s e).invalidatedEdges = s.invalidatedEdges := by
        rw [seedSuccessor_marked marked]
      have queue : (seedSuccessor s e).queue = s.queue ++ [e.edge.successor] := by
        rw [seedSuccessor_marked marked]
      rw [marks, queue] at next
      obtain ⟨sameMarks, length, queued, labels⟩ := next
      refine ⟨sameMarks, ?_, ?_, ?_⟩
      · simp only [List.length_append, List.length_cons, List.length_nil, List.foldl_cons]
          at length ⊢
        omega
      · intro v
        rw [List.foldl_cons, queued v, List.mem_append, List.mem_singleton]
        simp only [List.exists_mem_cons_iff, marked, true_and, eq_comm (a := v), or_assoc]
      · intro v d
        rw [List.foldl_cons, labels v d, distances v]
        simp only [List.exists_mem_cons_iff, marked, true_and]
        by_cases own : e.edge.successor = v
        · simp [own]
        · simp [own]
    · obtain ⟨sameMarks, length, queued, labels⟩ := ih s ones
      rw [List.foldl_cons, seedSuccessor_unmarked marked]
      refine ⟨sameMarks, ?_, ?_, ?_⟩
      · rw [List.length_cons]
        omega
      · intro v
        rw [queued v, List.exists_mem_cons_iff]
        simp [marked]
      · intro v d
        rw [labels v d, List.exists_mem_cons_iff]
        simp [marked]

/-- The state before the loop. -/
def propagationStart (evaluation : DependencyEvaluation) (seeds : Std.TreeSet DependencyId) :
    Propagation :=
  evaluation.edges.foldl seedSuccessor ⟨seeds, ∅, []⟩

theorem propagationStart_spec (covers : Covers graph evaluation)
    (seeded : SeedsDirect evaluation direct seeds) :
    (propagationStart evaluation seeds).invalidatedEdges = seeds ∧
    (propagationStart evaluation seeds).queue.length ≤ graph.edges.length ∧
    (∀ v, v ∈ (propagationStart evaluation seeds).queue ↔ Seeded evaluation direct v) ∧
    ∀ v d, (propagationStart evaluation seeds).frontier.label v = some d ↔
      d = 1 ∧ Seeded evaluation direct v := by
  have start (v : WorkId) : (∃ e ∈ evaluation.edges, e.edge.id ∈ seeds ∧ e.edge.successor = v) ↔
      Seeded evaluation direct v := by
    constructor
    · rintro ⟨e, member, marked, meets⟩
      obtain ⟨e', member', own, named⟩ := (seeded _).mp marked
      exact ⟨e, member, covers.unique member' member named ▸ own, meets⟩
    · rintro ⟨e, member, own, meets⟩
      exact ⟨e, member, (seeded _).mpr ⟨e, member, own, rfl⟩, meets⟩
  obtain ⟨marks, length, queued, labels⟩ :=
    foldl_seedSuccessor evaluation.edges ⟨seeds, ∅, []⟩ (by simp)
  refine ⟨marks, ?_, ?_, ?_⟩
  · rw [← covers, List.length_map]
    rwa [List.length_nil, Nat.zero_add] at length
  · intro v
    refine (queued v).trans ?_
    rw [start v, or_iff_right List.not_mem_nil]
  · intro v d
    refine (labels v d).trans (and_congr_right fun _ => ?_)
    rw [start v, Std.TreeMap.getElem?_emptyc, or_iff_right (by simp)]

theorem propagationStart_invariant (covers : Covers graph evaluation)
    (seeded : SeedsDirect evaluation direct seeds) :
    PropagationInvariant graph evaluation direct seeds (propagationStart evaluation seeds) := by
  obtain ⟨marks, _, queued, labels⟩ := propagationStart_spec covers seeded
  refine ⟨⟨⟨?_, ?_⟩, ?_, ?_⟩, ⟨?_, ?_⟩, ?_⟩
  · intro v d known
    obtain ⟨rfl, start⟩ := (labels v d).mp known
    exact ⟨0, rfl, .seed start⟩
  · exact fun v member => ⟨1, (labels v 1).mpr ⟨rfl, (queued v).mp member⟩⟩
  · exact fun v start => ⟨1, le_rfl, (labels v 1).mpr ⟨rfl, start⟩⟩
  · intro v d known outside
    exact absurd ((queued v).mpr ((labels v d).mp known).2) outside
  · intro id marked
    rw [marks] at marked
    obtain ⟨e, member, own, named⟩ := (seeded id).mp marked
    exact ⟨e, .direct member own, named⟩
  · intro id member
    rwa [marks]
  · intro v d known outside
    exact absurd ((queued v).mpr ((labels v d).mp known).2) outside

theorem propagationStart_work_le (covers : Covers graph evaluation)
    (seeded : SeedsDirect evaluation direct seeds) : (propagationStart evaluation seeds).work graph ≤
      graph.edges.length * (graph.edges.length + 4) := by
  obtain ⟨_, length, _, labels⟩ := propagationStart_spec covers seeded
  have low (v : WorkId) (d : ℕ)
      (known : (propagationStart evaluation seeds).frontier.label v = some d) :
      d ≤ graph.edges.length + 2 := by
    rw [((labels v d).mp known).1]
    omega
  have unmarked : (propagationStart evaluation seeds).unmarked graph ≤ graph.edges.length := by
    calc (propagationStart evaluation seeds).unmarked graph
        ≤ (graph.edges.map DependencyEdge.id).toFinset.card := Finset.card_filter_le _ _
      _ ≤ (graph.edges.map DependencyEdge.id).length := List.toFinset_card_le _
      _ = graph.edges.length := List.length_map _
  have scope := Nat.mul_le_mul_right (graph.edges.length + 2) graph.card_successors_le
  calc (propagationStart evaluation seeds).work graph
      ≤ (propagationStart evaluation seeds).queue.length +
          graph.successors.card * (graph.edges.length + 2) +
          (propagationStart evaluation seeds).unmarked graph :=
        Nat.add_le_add_right (work_le low) _
    _ ≤ graph.edges.length + graph.edges.length * (graph.edges.length + 2) +
          graph.edges.length := Nat.add_le_add (Nat.add_le_add length scope) unmarked
    _ = graph.edges.length * (graph.edges.length + 4) := by ring

theorem propagate_queue (covers : Covers graph evaluation)
    (seeded : SeedsDirect evaluation direct seeds) : (propagate graph evaluation seeds).queue = [] := by
  have stopped := Drain.drain_stopped (Propagation.work graph)
    (fun _ _ inv step => (propagateStep_spec covers inv step).1)
    (fun _ _ inv step => (propagateStep_spec covers inv step).2)
    (propagationStart_invariant covers seeded) (propagationStart_work_le covers seeded)
  unfold propagateStep at stopped
  split at stopped
  · assumption
  · cases stopped

theorem propagate_invariant (covers : Covers graph evaluation)
    (seeded : SeedsDirect evaluation direct seeds) :
    PropagationInvariant graph evaluation direct seeds (propagate graph evaluation seeds) :=
  Drain.drain_invariant (fun _ _ inv step => (propagateStep_spec covers inv step).1) _
    (propagationStart_invariant covers seeded)

theorem propagate_labels (covers : Covers graph evaluation) (seeded : SeedsDirect evaluation direct seeds)
    (invalid : Invalidated evaluation direct e) :
    e.edge.id ∈ (propagate graph evaluation seeds).invalidatedEdges ∧
      ∃ d, (propagate graph evaluation seeds).nodeDistance[e.edge.successor]? = some d := by
  have inv := propagate_invariant covers seeded
  have done := propagate_queue covers seeded
  induction invalid with
  | direct member own =>
    refine ⟨inv.marks.seeded _ ((seeded _).mpr ⟨_, member, own, rfl⟩), ?_⟩
    obtain ⟨d, _, known⟩ := inv.search.seeded _ ⟨_, member, own, rfl⟩
    exact ⟨d, known⟩
  | propagated _ member meets accepted ih =>
    obtain ⟨d, known⟩ := ih.2
    have closed : ClosedEdge evaluation _ := ⟨_, member, rfl, accepted⟩
    refine ⟨inv.scanned _ d known (by simp [done]) _ (covers.mem member) meets closed, ?_⟩
    obtain ⟨d', _, known'⟩ := inv.search.relaxed _ d known (by simp [Propagation.frontier, done]) _
      ⟨_, closed, meets, rfl⟩
    exact ⟨d', known'⟩

theorem propagate_marked (covers : Covers graph evaluation)
    (seeded : SeedsDirect evaluation direct seeds) {id : DependencyId} :
    id ∈ (propagate graph evaluation seeds).invalidatedEdges ↔
      ∃ e, Invalidated evaluation direct e ∧ e.edge.id = id := by
  constructor
  · exact (propagate_invariant covers seeded).marks.sound id
  · rintro ⟨e, invalid, rfl⟩
    exact (propagate_labels covers seeded invalid).1

theorem propagate_impacted (covers : Covers graph evaluation)
    (seeded : SeedsDirect evaluation direct seeds) {v : WorkId} :
    (∃ d, (propagate graph evaluation seeds).nodeDistance[v]? = some d) ↔
      ∃ e, Invalidated evaluation direct e ∧ e.edge.successor = v := by
  constructor
  · rintro ⟨d, known⟩
    obtain ⟨n, _, walk⟩ := (propagate_invariant covers seeded).search.realised v d known
    exact invalidated_of_reach walk
  · rintro ⟨e, invalid, rfl⟩
    exact (propagate_labels covers seeded invalid).2

theorem propagate_isLeast (covers : Covers graph evaluation)
    (seeded : SeedsDirect evaluation direct seeds) {v : WorkId} {d : ℕ}
    (known : (propagate graph evaluation seeds).nodeDistance[v]? = some d) :
    IsLeast {m | ∃ n, m = 1 + n ∧ Reach (Seeded evaluation direct) (Rests evaluation) n v} d :=
  (propagate_invariant covers seeded).search.isLeast (propagate_queue covers seeded) known

abbrev InvalidatedStep (evaluation : DependencyEvaluation) (direct : EdgeEvaluation → Prop) :
    WorkId → WorkId → Prop :=
  Step (fun e : EdgeEvaluation => e.edge.predecessor) (fun e => e.edge.successor)
    (Invalidated evaluation direct)

theorem InvalidatedStep.dependent (covers : Covers graph evaluation) {a b : WorkId}
    (step : InvalidatedStep evaluation direct a b) : graph.Dependent a b := by
  obtain ⟨e, invalid, rfl, rfl⟩ := step
  exact ⟨e.edge, covers.mem invalid.mem, rfl, rfl⟩

section Rooted

variable {root : WorkId}

structure Rooted (evaluation : DependencyEvaluation) (direct : EdgeEvaluation → Prop)
    (root : WorkId) : Prop where
  leaves : ∀ e ∈ evaluation.edges, direct e → e.edge.predecessor = root
  accepted : ∀ e ∈ evaluation.edges, direct e → e.satisfaction.isAcceptedClosed = true

theorem Invalidated.accepted (rooted : Rooted evaluation direct root) {e : EdgeEvaluation}
    (invalid : Invalidated evaluation direct e) : e.satisfaction.isAcceptedClosed = true := by
  cases invalid with
  | direct member own => exact rooted.accepted e member own
  | propagated _ _ _ accepted => exact accepted

theorem Invalidated.behind (rooted : Rooted evaluation direct root) (covers : Covers graph evaluation)
    {e : EdgeEvaluation} (invalid : Invalidated evaluation direct e) :
    Relation.TransGen graph.Dependent root e.edge.successor := by
  induction invalid with
  | direct member own => exact .single ⟨_, covers.mem member, rooted.leaves _ member own, rfl⟩
  | propagated _ member meets _ ih => exact ih.tail ⟨_, covers.mem member, meets, rfl⟩

theorem reach_from_root (rooted : Rooted evaluation direct root) (covers : Covers graph evaluation)
    {n : ℕ} {v : WorkId} : Reach (· = root) (InvalidatedStep evaluation direct) (n + 1) v ↔
      Reach (Seeded evaluation direct) (Rests evaluation) n v := by
  constructor
  · intro walk
    induction n generalizing v with
    | zero =>
      obtain _ | ⟨start, e, invalid, leaves, rfl⟩ := walk
      obtain _ | _ := start
      rename_i same
      refine .seed ⟨e, invalid.mem, ?_, rfl⟩
      cases invalid with
      | direct _ own => exact own
      | propagated before _ meets _ =>
        -- a propagated edge at the root would close a cycle through it
        have cycle := before.behind rooted covers
        have outgoing : e.edge.predecessor = root := leaves.trans same
        rw [← meets, outgoing] at cycle
        exact absurd cycle (graph.admissible.acyclic root)
    | succ n ih =>
      obtain _ | ⟨before, e, invalid, leaves, rfl⟩ := walk
      exact (ih before).step ⟨e.edge, ⟨e, invalid.mem, rfl, invalid.accepted rooted⟩, leaves, rfl⟩
  · intro walk
    induction walk with
    | seed start =>
      obtain ⟨e, member, own, rfl⟩ := start
      exact .step (.seed rfl) ⟨e, .direct member own, rooted.leaves e member own, rfl⟩
    | step before move ih =>
      obtain ⟨edge, ⟨e, member, rfl, accepted⟩, rfl, rfl⟩ := move
      obtain ⟨earlier, invalid, meets⟩ := invalidated_of_reach before
      exact ih.step ⟨e, invalid.propagated member meets.symm accepted, rfl, rfl⟩

theorem propagate_isLeast_from_root (rooted : Rooted evaluation direct root)
    (covers : Covers graph evaluation) (seeded : SeedsDirect evaluation direct seeds) {v : WorkId}
    {d : ℕ} (known : (propagate graph evaluation seeds).nodeDistance[v]? = some d) :
    IsLeast {m | Reach (· = root) (InvalidatedStep evaluation direct) m v} d := by
  obtain ⟨⟨n, rfl, walk⟩, low⟩ := propagate_isLeast covers seeded known
  refine ⟨Nat.add_comm n 1 ▸ (reach_from_root rooted covers).mpr walk, ?_⟩
  intro m chain
  cases m with
  | zero =>
    obtain ⟨e, invalid, rfl⟩ := invalidated_of_reach walk
    obtain start | _ := chain
    exact absurd (start ▸ invalid.behind rooted covers) (graph.admissible.acyclic root)
  | succ m => exact low ⟨m, Nat.add_comm m 1, (reach_from_root rooted covers).mp chain⟩

end Rooted

end Evaluated

end Boreal.Dependencies
