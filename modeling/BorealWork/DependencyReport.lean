/- What the impact of an invalidated outcome reports. -/
import BorealWork.DependencyPropagation

namespace Boreal.Dependencies
open Sorting Walks Worklist

section Evaluated

variable {unprintable : Char → Bool} {graph : DependencyGraph}
  {observations : List DependencyObservation} {atRevision : EntityRevision}
  {evaluation : DependencyEvaluation}

theorem edgeEvaluation_edge (e : DependencyEdge) (os : List DependencyObservation)
    (ds : List DependencyObservationDiagnostic) :
    (edgeEvaluation unprintable atRevision e os ds).edge = e := by
  cases os with
  | nil => rfl
  | cons o rest => rfl

theorem evaluateDependencies_covers
    (evaluated : evaluateDependencies unprintable graph observations atRevision = .ok evaluation) :
    Covers graph evaluation := by
  rw [evaluateDependencies_eq, Except.ok.injEq] at evaluated
  subst evaluated
  rw [Covers, List.map_map]
  exact (List.map_congr_left fun e _ => edgeEvaluation_edge e _ _).trans (List.map_id _)

theorem evaluateEdge_acceptedClosed {edge : DependencyEdge} {o : DependencyObservation}
    {identity : EntityIdentity} {proofGeneration : ProofRevision}
    (closed : evaluateEdge edge o atRevision = .acceptedClosed identity proofGeneration) :
    identity.workId = edge.predecessor := by
  have waived (x : EdgeSatisfaction) (h : evaluateWaiver edge o atRevision = x) :
      x.isAcceptedClosed = false := by
    subst h
    unfold evaluateWaiver
    split
    · split_ifs <;> rfl
    · rfl
  unfold evaluateEdge at closed
  split at closed
  · cases closed
  · cases closed
  · cases closed
  · split_ifs at closed with own
    · cases closed
      exact own.2
    · cases waived _ closed
  · cases waived _ closed

theorem acceptedClosed_predecessor
    (evaluated : evaluateDependencies unprintable graph observations atRevision = .ok evaluation)
    {e : EdgeEvaluation} (member : e ∈ evaluation.edges) {identity : EntityIdentity}
    {proofGeneration : ProofRevision} (closed : e.satisfaction = .acceptedClosed identity proofGeneration) :
    identity.workId = e.edge.predecessor := by
  rw [evaluateDependencies_eq, Except.ok.injEq] at evaluated
  subst evaluated
  obtain ⟨edge, _, rfl⟩ := List.mem_map.mp member
  rw [edgeEvaluation_edge]
  unfold edgeEvaluation at closed
  split at closed
  · cases closed
  · dsimp only at closed
    split at closed
    · exact evaluateEdge_acceptedClosed closed
    · cases closed

end Evaluated

def ClosedByOutcome (outcome : InvalidatedOutcome) (e : EdgeEvaluation) : Prop :=
  e.satisfaction = .acceptedClosed outcome.identity outcome.proofGeneration

theorem mem_foldl_insert (l : List EdgeEvaluation) (ids : Std.TreeSet DependencyId)
    {id : DependencyId} : id ∈ l.foldl (fun ids edge => ids.insert edge.edge.id) ids ↔
      id ∈ ids ∨ ∃ e ∈ l, e.edge.id = id := by
  induction l generalizing ids with
  | nil => simp
  | cons e rest ih =>
    rw [List.foldl_cons, ih, Lookup.mem_insert, List.exists_mem_cons_iff]
    tauto

theorem directlyInvalidated_outcome (evaluation : DependencyEvaluation)
    (outcome : InvalidatedOutcome) : SeedsDirect evaluation (ClosedByOutcome outcome)
      (directlyInvalidated evaluation (.outcome outcome)) := by
  intro id
  rw [directlyInvalidated, mem_foldl_insert]
  simp [ClosedByOutcome, and_assoc]

theorem rooted_outcome {unprintable : Char → Bool} {graph : DependencyGraph}
    {observations : List DependencyObservation} {atRevision : EntityRevision}
    {evaluation : DependencyEvaluation}
    (evaluated : evaluateDependencies unprintable graph observations atRevision = .ok evaluation)
    (outcome : InvalidatedOutcome) :
    Rooted evaluation (ClosedByOutcome outcome) outcome.identity.workId := by
  refine ⟨?_, ?_⟩
  · intro e member closed
    exact (acceptedClosed_predecessor evaluated member closed).symm
  · intro e _ closed
    rw [closed]
    rfl

theorem indexFacts_ok {facts : List SuccessorFacts} :
    (∃ index, indexFacts facts ∅ = .ok index) ↔ (facts.map SuccessorFacts.workId).Nodup := by
  simp [indexFacts, Lookup.indexAll_ok]

structure OutcomeImpact (graph : DependencyGraph) (evaluation : DependencyEvaluation)
    (outcome : InvalidatedOutcome) (impact : DependencyImpact) : Prop where
  invalidated : ∀ id, id ∈ impact.invalidatedEdges ↔
    ∃ e, Invalidated evaluation (ClosedByOutcome outcome) e ∧ e.edge.id = id
  impacted : ∀ v, (∃ s ∈ impact.successors, s.workId = v) ↔
    ∃ e, Invalidated evaluation (ClosedByOutcome outcome) e ∧ e.edge.successor = v
  listedOnce : (impact.successors.map SuccessorImpact.workId).Nodup
  distance : ∀ s ∈ impact.successors, IsLeast {n | Reach (· = outcome.identity.workId)
    (InvalidatedStep evaluation (ClosedByOutcome outcome)) n s.workId} s.distance
  affected : affectedSubgraph graph [outcome.identity.workId] = .ok impact.affectedSubgraph
  contained : ∀ s ∈ impact.successors, ∃ node ∈ impact.affectedSubgraph.nodes,
    node.workId = s.workId ∧ node.distance ≤ s.distance

section Report

variable {graph : DependencyGraph} {evaluation : DependencyEvaluation}
  {factsById : FactsIndex} {s : Propagation}

theorem successorImpact_workId (w : WorkId) (d : ℕ) :
    (successorImpact evaluation factsById s.invalidatedEdges w d).workId = w ∧
      (successorImpact evaluation factsById s.invalidatedEdges w d).distance = d := by
  unfold successorImpact
  cases factsById[w]? with
  | none => exact ⟨rfl, rfl⟩
  | some facts => exact ⟨rfl, rfl⟩

def reportedSuccessors (evaluation : DependencyEvaluation) (factsById : FactsIndex)
    (s : Propagation) : List SuccessorImpact :=
  sortOn SuccessorImpact.key (s.nodeDistance.toList.map fun entry =>
    successorImpact evaluation factsById s.invalidatedEdges entry.1 entry.2)

theorem mem_reportedSuccessors {impact : SuccessorImpact}
    (member : impact ∈ reportedSuccessors evaluation factsById s) :
    s.nodeDistance[impact.workId]? = some impact.distance := by
  obtain ⟨⟨w, d⟩, listed, rfl⟩ := List.mem_map.mp (mem_sortOn.mp member)
  obtain ⟨named, placed⟩ := @successorImpact_workId evaluation factsById s w d
  rw [named, placed]
  exact Lookup.mem_toList_iff.mp listed

theorem exists_reportedSuccessor {w : WorkId} : (∃ impact ∈ reportedSuccessors evaluation factsById s,
    impact.workId = w) ↔ ∃ d, s.nodeDistance[w]? = some d := by
  constructor
  · rintro ⟨impact, member, rfl⟩
    exact ⟨_, mem_reportedSuccessors member⟩
  · rintro ⟨d, known⟩
    refine ⟨successorImpact evaluation factsById s.invalidatedEdges w d, mem_sortOn.mpr ?_,
      (successorImpact_workId w d).1⟩
    exact List.mem_map.mpr ⟨(w, d), Lookup.mem_toList_iff.mpr known, rfl⟩

theorem reportedSuccessors_nodup :
    ((reportedSuccessors evaluation factsById s).map SuccessorImpact.workId).Nodup := by
  have keys : (s.nodeDistance.toList.map Prod.fst).Nodup := by
    rw [Std.TreeMap.map_fst_toList_eq_keys]
    exact Std.TreeMap.nodup_keys
  have named : (s.nodeDistance.toList.map fun entry => successorImpact evaluation factsById
      s.invalidatedEdges entry.1 entry.2).map SuccessorImpact.workId =
      s.nodeDistance.toList.map Prod.fst := by
    rw [List.map_map]
    exact List.map_congr_left fun entry _ => (successorImpact_workId entry.1 entry.2).1
  exact ((sortOn_perm _ _).map _).nodup_iff.mpr (named ▸ keys)

end Report

section Outcome

variable {unprintable : Char → Bool} {graph : DependencyGraph}
  {observations : List DependencyObservation} {successorFacts : List SuccessorFacts}
  {outcome : InvalidatedOutcome} {atRevision : EntityRevision} {evaluation : DependencyEvaluation}

theorem dependencyImpact_outcome_eq_ok
    (evaluated : evaluateDependencies unprintable graph observations atRevision = .ok evaluation)
    {impact : DependencyImpact} :
    dependencyImpact unprintable graph observations successorFacts (.outcome outcome) atRevision =
        .ok impact ↔
      evaluation.diagnostics = [] ∧ outcome.identity.projectId = graph.projectId ∧
      ∃ factsById, indexFacts successorFacts ∅ = .ok factsById ∧
      ∃ affected, affectedSubgraph graph [outcome.identity.workId] = .ok affected ∧
        impact = ⟨.outcome outcome, affected,
          (propagate graph evaluation
            (directlyInvalidated evaluation (.outcome outcome))).invalidatedEdges.toList,
          reportedSuccessors evaluation factsById (propagate graph evaluation
            (directlyInvalidated evaluation (.outcome outcome)))⟩ := by
  simp only [dependencyImpact, evaluated]
  by_cases clean : evaluation.diagnostics = []
  · rw [if_neg (not_not.mpr clean)]
    cases indexed : indexFacts successorFacts ∅ with
    | error error => simp
    | ok factsById =>
      by_cases owned : outcome.identity.projectId = graph.projectId
      · cases found : affectedSubgraph graph [outcome.identity.workId] with
        | error error => simp [impactRoot, owned, found]
        | ok affected => simp [impactRoot, owned, found, clean, reportedSuccessors, eq_comm]
      · simp [impactRoot, owned]
  · simp [clean]

theorem dependencyImpact_outcome_ok
    (evaluated : evaluateDependencies unprintable graph observations atRevision = .ok evaluation) :
    (∃ impact, dependencyImpact unprintable graph observations successorFacts (.outcome outcome)
        atRevision = .ok impact) ↔
      evaluation.diagnostics = [] ∧ (successorFacts.map SuccessorFacts.workId).Nodup ∧
      outcome.identity.projectId = graph.projectId ∧
      graph.hasWork outcome.identity.workId = true := by
  have roots : (∃ affected, affectedSubgraph graph [outcome.identity.workId] = .ok affected) ↔
      graph.hasWork outcome.identity.workId = true := by
    rw [affectedSubgraph_ok, List.forall_mem_singleton]
  rw [← indexFacts_ok, ← roots]
  constructor
  · rintro ⟨impact, ok⟩
    obtain ⟨clean, owned, index, indexed, affected, found, _⟩ :=
      (dependencyImpact_outcome_eq_ok evaluated).mp ok
    exact ⟨clean, ⟨index, indexed⟩, owned, affected, found⟩
  · rintro ⟨clean, ⟨index, indexed⟩, owned, affected, found⟩
    exact ⟨_, (dependencyImpact_outcome_eq_ok evaluated).mpr
      ⟨clean, owned, index, indexed, affected, found, rfl⟩⟩

theorem outcomeImpact
    (evaluated : evaluateDependencies unprintable graph observations atRevision = .ok evaluation)
    {impact : DependencyImpact} (ok : dependencyImpact unprintable graph observations successorFacts
      (.outcome outcome) atRevision = .ok impact) : OutcomeImpact graph evaluation outcome impact := by
  have covers := evaluateDependencies_covers evaluated
  have seeded := directlyInvalidated_outcome evaluation outcome
  have rooted := rooted_outcome evaluated outcome
  obtain ⟨_, _, factsById, _, affected, found, rfl⟩ :=
    (dependencyImpact_outcome_eq_ok evaluated).mp ok
  have distance (s : SuccessorImpact) (member : s ∈ reportedSuccessors evaluation factsById
      (propagate graph evaluation (directlyInvalidated evaluation (.outcome outcome)))) :
      IsLeast {n | Reach (· = outcome.identity.workId)
        (InvalidatedStep evaluation (ClosedByOutcome outcome)) n s.workId} s.distance :=
    propagate_isLeast_from_root rooted covers seeded (mem_reportedSuccessors member)
  refine ⟨?_, ?_, reportedSuccessors_nodup, distance, found, ?_⟩
  · intro id
    rw [Std.TreeSet.mem_toList]
    exact propagate_marked covers seeded
  · intro v
    rw [exists_reportedSuccessor]
    exact propagate_impacted covers seeded
  · intro s member
    have chain := (distance s member).1
    have walk : Reach (· ∈ [outcome.identity.workId]) graph.Dependent s.distance s.workId :=
      Reach.mono (fun _ start => List.mem_singleton.mpr start)
        (fun _ _ => InvalidatedStep.dependent covers) chain
    obtain ⟨d, labelled⟩ := explore_covers walk
    have least := explore_isLeast labelled
    obtain ⟨e, invalid, meets⟩ :=
      (propagate_impacted covers seeded).mp ⟨_, mem_reportedSuccessors member⟩
    have outside : s.workId ∉ [outcome.identity.workId] := by
      intro root
      have cycle := invalid.behind rooted covers
      rw [meets, List.mem_singleton.mp root] at cycle
      exact graph.admissible.acyclic _ cycle
    exact ⟨⟨s.workId, d⟩, (mem_affectedSubgraph found).mpr ⟨outside, least⟩, rfl, least.2 walk⟩

/-- The impact of an invalidated outcome: both loops finish, success is decided by the checks
alone, and a successful result is the least propagation with its distances. -/
theorem dependencyImpact_outcome_exact (unprintable : Char → Bool) (graph : DependencyGraph)
    (observations : List DependencyObservation) (successorFacts : List SuccessorFacts)
    (outcome : InvalidatedOutcome) (atRevision : EntityRevision) :
    ∃ evaluation, evaluateDependencies unprintable graph observations atRevision = .ok evaluation ∧
      (explore graph [outcome.identity.workId]).queue = [] ∧
      (propagate graph evaluation
        (directlyInvalidated evaluation (.outcome outcome))).queue = [] ∧
      ((∃ impact, dependencyImpact unprintable graph observations successorFacts (.outcome outcome)
          atRevision = .ok impact) ↔
        evaluation.diagnostics = [] ∧ (successorFacts.map SuccessorFacts.workId).Nodup ∧
        outcome.identity.projectId = graph.projectId ∧
        graph.hasWork outcome.identity.workId = true) ∧
      ∀ impact, dependencyImpact unprintable graph observations successorFacts (.outcome outcome)
          atRevision = .ok impact → OutcomeImpact graph evaluation outcome impact := by
  have evaluated := evaluateDependencies_eq unprintable graph observations atRevision
  have covers := evaluateDependencies_covers evaluated
  exact ⟨_, evaluated, explore_queue, propagate_queue covers (directlyInvalidated_outcome _ outcome),
    dependencyImpact_outcome_ok evaluated, fun _ => outcomeImpact evaluated⟩

end Outcome

end Boreal.Dependencies
