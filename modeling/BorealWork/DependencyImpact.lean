/- The structural closure of a set of roots, and the impact of an invalidated outcome or a revoked
waiver. Both are worklist loops; the fuel each is given is shown to be enough where it is used. -/
import BorealWork.DependencySatisfaction
import BorealWork.Library.Drain
import BorealWork.Library.Worklist

namespace Boreal.Dependencies
open Sorting

structure AffectedSubgraphNode where
  workId : WorkId
  distance : ℕ
  deriving DecidableEq

structure AffectedSubgraph where
  roots : List WorkId
  nodes : List AffectedSubgraphNode
  edges : List DependencyEdge
  deriving DecidableEq

inductive AffectedSubgraphError
  | unknownRoot (workId : WorkId)
  deriving DecidableEq

abbrev Distances := Std.TreeMap WorkId ℕ

structure Exploration where
  distance : Distances
  queue : List WorkId

/-- One outgoing edge of the popped node: a successor that is already labelled is passed over. -/
def discover (nextDistance : ℕ) (s : Exploration) (edge : DependencyEdge) : Exploration :=
  if s.distance.contains edge.successor then s
  else ⟨s.distance.insert edge.successor nextDistance, s.queue ++ [edge.successor]⟩

def exploreStep (graph : DependencyGraph) (s : Exploration) : Option Exploration :=
  match s.queue with
  | [] => none
  | current :: rest => some ((graph.outgoing current).foldl
      (discover (s.distance.getD current 0 + 1)) ⟨s.distance, rest⟩)

def startAt (s : Exploration) (root : WorkId) : Exploration :=
  ⟨s.distance.insert root 0, s.queue ++ [root]⟩

def explore (graph : DependencyGraph) (canonicalRoots : List WorkId) : Exploration :=
  Drain.drain (exploreStep graph)
    (canonicalRoots.length + graph.edges.length * (graph.edges.length + 1))
    (canonicalRoots.foldl startAt ⟨∅, []⟩)

def affectedSubgraph (graph : DependencyGraph) (roots : List WorkId) :
    Except AffectedSubgraphError AffectedSubgraph :=
  let canonicalRoots := (sortOn id roots).dedup
  match canonicalRoots.find? fun root => !graph.hasWork root with
  | some root => .error (.unknownRoot root)
  | none =>
    let distance := (explore graph canonicalRoots).distance
    .ok ⟨canonicalRoots,
      (distance.toList.filter fun entry => entry.1 ∉ canonicalRoots).map fun entry =>
        ⟨entry.1, entry.2⟩,
      graph.edges.filter fun edge => distance.contains edge.predecessor &&
        distance.contains edge.successor && edge.successor ∉ canonicalRoots⟩

inductive InvalidationKind
  | reopened
  | revoked
  deriving DecidableEq

structure InvalidatedOutcome where
  identity : EntityIdentity
  proofGeneration : ProofRevision
  kind : InvalidationKind
  deriving DecidableEq

inductive DependencyInvalidation
  | outcome (outcome : InvalidatedOutcome)
  | waiverRevoked (edgeId : DependencyId) (edgeRevision : EntityRevision) (projectId : ProjectId)
      (successor : WorkId)
  deriving DecidableEq

inductive SuccessorImpactState
  | pending
  | active
  | historicallyClosed
  | historicallyCancelled
  | factsUnavailable
  deriving DecidableEq

structure SuccessorFacts where
  workId : WorkId
  lifecycle : PersistedLifecycle
  activeAttempt : Bool
  pendingCloseIntent : Bool
  pendingReview : Bool
  deriving DecidableEq

structure SuccessorImpact where
  workId : WorkId
  distance : ℕ
  viaEdges : List DependencyId
  state : SuccessorImpactState
  activeAttempt : Bool
  pendingCloseIntent : Bool
  pendingReview : Bool
  requiresReconciliation : Bool
  historyPreserved : Bool
  deriving DecidableEq

structure DependencyImpact where
  invalidation : DependencyInvalidation
  affectedSubgraph : AffectedSubgraph
  invalidatedEdges : List DependencyId
  successors : List SuccessorImpact
  deriving DecidableEq

inductive DependencyImpactError
  | evaluation (error : DependencyEvaluationError)
  | affectedSubgraph (error : AffectedSubgraphError)
  | evaluationDiagnostics (diagnostics : List DependencyObservationDiagnostic)
  | duplicateSuccessorFacts (workId : WorkId)
  | unknownWaiverEdge (edgeId : DependencyId)
  | waiverNotCurrent (edgeId : DependencyId) (atRevision : EntityRevision)
  | invalidationProjectScopeMismatch (projectId : ProjectId)
  deriving DecidableEq

abbrev FactsIndex := Std.TreeMap WorkId SuccessorFacts

def indexFacts : List SuccessorFacts → FactsIndex → Except DependencyImpactError FactsIndex :=
  Lookup.indexAll SuccessorFacts.workId (fun _ => none)
    (fun facts => .duplicateSuccessorFacts facts.workId) (fun _ => none)

/-- Where the invalidation starts, after its scope has been checked. -/
def impactRoot (graph : DependencyGraph) (evaluation : DependencyEvaluation)
    (atRevision : EntityRevision) : DependencyInvalidation → Except DependencyImpactError WorkId
  | .outcome outcome =>
    if outcome.identity.projectId ≠ graph.projectId then
      .error (.invalidationProjectScopeMismatch outcome.identity.projectId)
    else .ok outcome.identity.workId
  | .waiverRevoked edgeId edgeRevision projectId successor =>
    if projectId ≠ graph.projectId then .error (.invalidationProjectScopeMismatch projectId)
    else match graph.edge edgeId with
      | none => .error (.unknownWaiverEdge edgeId)
      | some edge =>
        if edge.revision ≠ edgeRevision ∨ edge.successor ≠ successor then
          .error (.unknownWaiverEdge edgeId)
        else match evaluation.edges.find? (·.edge.id = edgeId) with
          | none => .error (.unknownWaiverEdge edgeId)
          | some edgeEvaluation => match edgeEvaluation.satisfaction with
              | .waived waiver =>
                if waiver.appliesTo edge atRevision then .ok edge.successor
                else .error (.waiverNotCurrent edgeId atRevision)
              | _ => .error (.waiverNotCurrent edgeId atRevision)

def EdgeSatisfaction.isAcceptedClosed : EdgeSatisfaction → Bool
  | .acceptedClosed _ _ => true
  | _ => false

def directlyInvalidated (evaluation : DependencyEvaluation) :
    DependencyInvalidation → Std.TreeSet DependencyId
  | .outcome outcome => (evaluation.edges.filter fun edge =>
    edge.satisfaction = .acceptedClosed outcome.identity outcome.proofGeneration).foldl
      (fun ids edge => ids.insert edge.edge.id) ∅
  | .waiverRevoked edgeId _ _ _ => (∅ : Std.TreeSet DependencyId).insert edgeId

structure Propagation where
  invalidatedEdges : Std.TreeSet DependencyId
  nodeDistance : Distances
  queue : List WorkId

def seedSuccessor (s : Propagation) (edge : EdgeEvaluation) : Propagation :=
  if s.invalidatedEdges.contains edge.edge.id then
    ⟨s.invalidatedEdges, s.nodeDistance.insert edge.edge.successor
      (match s.nodeDistance[edge.edge.successor]? with
        | some current => min current 1
        | none => 1), s.queue ++ [edge.edge.successor]⟩
  else s

def propagateEdge (evaluations : Std.TreeMap DependencyId EdgeEvaluation)
    (predecessorDistance : ℕ) (s : Propagation) (edge : DependencyEdge) : Propagation :=
  match evaluations[edge.id]? with
  | none => s
  | some edgeEvaluation =>
    if edgeEvaluation.satisfaction.isAcceptedClosed then
      let inserted := !s.invalidatedEdges.contains edge.id
      let nextDistance := predecessorDistance + 1
      let distanceChanged := s.nodeDistance[edge.successor]?.all (nextDistance < ·)
      ⟨s.invalidatedEdges.insert edge.id,
        if distanceChanged then s.nodeDistance.insert edge.successor nextDistance
          else s.nodeDistance,
        if inserted || distanceChanged then s.queue ++ [edge.successor] else s.queue⟩
    else s

def propagateStep (graph : DependencyGraph) (evaluations : Std.TreeMap DependencyId EdgeEvaluation)
    (s : Propagation) : Option Propagation :=
  match s.queue with
  | [] => none
  | predecessor :: rest => some ((graph.outgoing predecessor).foldl
      (propagateEdge evaluations (s.nodeDistance.getD predecessor 0))
      ⟨s.invalidatedEdges, s.nodeDistance, rest⟩)

def evaluationsById (evaluation : DependencyEvaluation) : Std.TreeMap DependencyId EdgeEvaluation :=
  evaluation.edges.foldl (Lookup.indexBy (·.edge.id)) ∅

def propagate (graph : DependencyGraph) (evaluation : DependencyEvaluation)
    (direct : Std.TreeSet DependencyId) : Propagation :=
  Drain.drain (propagateStep graph (evaluationsById evaluation))
    (graph.edges.length * (graph.edges.length + 4))
    (evaluation.edges.foldl seedSuccessor ⟨direct, ∅, []⟩)

def successorState (facts : SuccessorFacts) : SuccessorImpactState :=
  match facts.lifecycle with
  | .closed => .historicallyClosed
  | .cancelled => .historicallyCancelled
  | .draft | .open =>
    if facts.activeAttempt || facts.pendingCloseIntent || facts.pendingReview then .active
    else .pending

def successorImpact (evaluation : DependencyEvaluation) (factsById : FactsIndex)
    (invalidatedEdges : Std.TreeSet DependencyId) (workId : WorkId) (distance : ℕ) :
    SuccessorImpact :=
  let viaEdges := (sortOn id ((evaluation.edges.filter fun edge =>
    edge.edge.successor = workId && invalidatedEdges.contains edge.edge.id).map (·.edge.id))).dedup
  match factsById[workId]? with
  | some facts =>
    let state := successorState facts
    ⟨workId, distance, viaEdges, state, facts.activeAttempt, facts.pendingCloseIntent,
      facts.pendingReview, state ≠ .historicallyClosed && state ≠ .historicallyCancelled, true⟩
  | none => ⟨workId, distance, viaEdges, .factsUnavailable, false, false, false, true, false⟩

def SuccessorImpact.key (s : SuccessorImpact) : ℕ ×ₗ WorkId := toLex (s.distance, s.workId)

def dependencyImpact (unprintable : Char → Bool) (graph : DependencyGraph)
    (observations : List DependencyObservation) (successorFacts : List SuccessorFacts)
    (invalidation : DependencyInvalidation) (atRevision : EntityRevision) :
    Except DependencyImpactError DependencyImpact :=
  match evaluateDependencies unprintable graph observations atRevision with
  | .error error => .error (.evaluation error)
  | .ok evaluation =>
    if evaluation.diagnostics ≠ [] then .error (.evaluationDiagnostics evaluation.diagnostics)
    else match indexFacts successorFacts ∅ with
      | .error error => .error error
      | .ok factsById => match impactRoot graph evaluation atRevision invalidation with
          | .error error => .error error
          | .ok root => match affectedSubgraph graph [root] with
              | .error error => .error (.affectedSubgraph error)
              | .ok affected =>
                let s := propagate graph evaluation
                  (directlyInvalidated evaluation invalidation)
                .ok ⟨invalidation, affected, s.invalidatedEdges.toList,
                  sortOn SuccessorImpact.key (s.nodeDistance.toList.map fun entry =>
                    successorImpact evaluation factsById s.invalidatedEdges entry.1 entry.2)⟩

end Boreal.Dependencies
