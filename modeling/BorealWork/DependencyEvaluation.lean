/- Evaluation of a graph's edges against a list of observations: group, validate, decide.
Malformed observations are kept as data and never satisfy an edge. -/
import BorealWork.DependencyObservation

namespace Boreal.Dependencies
open Sorting

inductive DependencyEvaluationError
  | unknownObservationEdge (edgeId : DependencyId)
  | duplicateObservation (edgeId : DependencyId)
  | observationEdgeRevisionMismatch (edgeId : DependencyId) (expected observed : EntityRevision)
  | observationPredecessorMismatch (edgeId : DependencyId) (expected observed : WorkId)
  | observationProjectScopeMismatch (edgeId : DependencyId) (expected observed : ProjectId)
  | waiverOutOfScope (edgeId : DependencyId)
  | invalidWaiverWindow (edgeId : DependencyId)
  deriving DecidableEq

def DependencyEvaluationError.code : DependencyEvaluationError → String
  | .unknownObservationEdge _ => "unknown_dependency_edge"
  | .duplicateObservation _ => "duplicate_dependency_observation"
  | .observationEdgeRevisionMismatch _ _ _ => "stale_dependency_edge"
  | .observationPredecessorMismatch _ _ _ => "dependency_predecessor_mismatch"
  | .observationProjectScopeMismatch _ _ _ => "cross_project_dependency"
  | .waiverOutOfScope _ => "dependency_waiver_scope_mismatch"
  | .invalidWaiverWindow _ => "dependency_waiver_window_invalid"

inductive UnmetReason
  | observationMissing
  | malformedObservation (diagnostic : DependencyEvaluationError)
  | notAcceptedClosedOutcome
  | closedOutcomeUnaccepted
  | closedOutcomeRevoked
  | closedIdentityMismatch
  | prerequisiteUnreadable (diagnostic : UnreadablePrerequisite)
  | prerequisiteCorrupt (diagnostic : CorruptPrerequisite)
  | prerequisiteStale (diagnostic : StalePrerequisite)
  | waiverNotYetValid
  | waiverRevoked
  deriving DecidableEq

inductive EdgeSatisfaction
  | acceptedClosed (identity : EntityIdentity) (proofGeneration : ProofRevision)
  | waived (waiver : EdgeWaiver)
  | unmet (reason : UnmetReason)
  deriving DecidableEq

def EdgeSatisfaction.isSatisfied : EdgeSatisfaction → Bool
  | .acceptedClosed _ _ | .waived _ => true
  | .unmet _ => false

structure DependencyObservationDiagnostic where
  error : DependencyEvaluationError
  raw : DependencyObservation
  deriving DecidableEq

structure EdgeEvaluation where
  edge : DependencyEdge
  predecessor : Option EntityIdentity
  outcome : Option UpstreamOutcome
  waiver : Option EdgeWaiver
  rawObservations : List DependencyObservation
  diagnostic : Option DependencyObservationDiagnostic
  satisfaction : EdgeSatisfaction
  deriving DecidableEq

structure DependencyEvaluation where
  edges : List EdgeEvaluation
  diagnostics : List DependencyObservationDiagnostic
  deriving DecidableEq

def DependencyEvaluation.satisfied (evaluation : DependencyEvaluation) : Bool :=
  evaluation.diagnostics.isEmpty && evaluation.edges.all (·.satisfaction.isSatisfied)

def EdgeWaiver.validityError (waiver : EdgeWaiver) : Option DependencyEvaluationError :=
  match waiver.revokedAt with
  | none => none
  | some revokedAt =>
    if revokedAt ≤ waiver.validFrom then some (.invalidWaiverWindow waiver.edgeId) else none

def validateObservation (graph : DependencyGraph) (edge : DependencyEdge)
    (observation : DependencyObservation) : Option DependencyEvaluationError :=
  if observation.edgeRevision ≠ edge.revision then
    some (.observationEdgeRevisionMismatch observation.edgeId edge.revision observation.edgeRevision)
  else if observation.predecessor.projectId ≠ graph.projectId then
    some (.observationProjectScopeMismatch observation.edgeId graph.projectId
      observation.predecessor.projectId)
  else if observation.predecessor.workId ≠ edge.predecessor then
    some (.observationPredecessorMismatch observation.edgeId edge.predecessor
      observation.predecessor.workId)
  else match observation.waiver with
    | none => none
    | some waiver =>
      if waiver.scopeMatches edge = false then some (.waiverOutOfScope observation.edgeId)
      else waiver.validityError

def unmetReason (observation : DependencyObservation) (atRevision : EntityRevision) : UnmetReason :=
  match observation.outcome with
  | .closed (.unaccepted _) => .closedOutcomeUnaccepted
  | .closed (.revoked _ _) => .closedOutcomeRevoked
  | .closed (.accepted _ _) => .closedIdentityMismatch
  | _ =>
    if observation.waiver.any (atRevision < ·.validFrom) then .waiverNotYetValid
    else if (observation.waiver.bind EdgeWaiver.revokedAt).any (· ≤ atRevision) then .waiverRevoked
    else .notAcceptedClosedOutcome

def evaluateWaiver (edge : DependencyEdge) (observation : DependencyObservation)
    (atRevision : EntityRevision) : EdgeSatisfaction :=
  match observation.waiver with
  | some waiver =>
    if waiver.appliesTo edge atRevision then .waived waiver
    else .unmet (unmetReason observation atRevision)
  | none => .unmet (unmetReason observation atRevision)

def evaluateEdge (edge : DependencyEdge) (observation : DependencyObservation)
    (atRevision : EntityRevision) : EdgeSatisfaction :=
  match observation.outcome with
  | .unreadable diagnostic => .unmet (.prerequisiteUnreadable diagnostic)
  | .corrupt diagnostic => .unmet (.prerequisiteCorrupt diagnostic)
  | .stale diagnostic => .unmet (.prerequisiteStale diagnostic)
  | .closed (.accepted identity proofGeneration) =>
    if identity = observation.predecessor ∧ identity.workId = edge.predecessor then
      .acceptedClosed identity proofGeneration
    else evaluateWaiver edge observation atRevision
  | _ => evaluateWaiver edge observation atRevision

structure Collected where
  byEdge : Std.TreeMap DependencyId (List DependencyObservation)
  diagnostics : List DependencyObservationDiagnostic

def collect (graph : DependencyGraph) (collected : Collected) (observation : DependencyObservation) :
    Collected :=
  match graph.edge observation.edgeId with
  | none => { collected with diagnostics := collected.diagnostics ++
      [⟨.unknownObservationEdge observation.edgeId, observation⟩] }
  | some edge =>
    let byEdge := collected.byEdge.insert observation.edgeId
      (collected.byEdge.getD observation.edgeId [] ++ [observation])
    match validateObservation graph edge observation with
    | some error => ⟨byEdge, collected.diagnostics ++ [⟨error, observation⟩]⟩
    | none => ⟨byEdge, collected.diagnostics⟩

section Ordered

variable (unprintable : Char → Bool)

def DependencyObservationDiagnostic.key (d : DependencyObservationDiagnostic) :=
  toLex (d.error.code, d.raw.key unprintable)

def duplicates (edge : DependencyEdge) : List DependencyObservation →
    List DependencyObservationDiagnostic
  | _ :: second :: _ => [⟨.duplicateObservation edge.id, second⟩]
  | _ => []

def edgeEvaluation (atRevision : EntityRevision) (edge : DependencyEdge)
    (rawObservations : List DependencyObservation)
    (diagnostics : List DependencyObservationDiagnostic) : EdgeEvaluation :=
  match rawObservations with
  | [] => ⟨edge, none, none, none, [], none, .unmet .observationMissing⟩
  | observation :: rest =>
    let edgeDiagnostics := diagnostics ++ duplicates edge (observation :: rest)
    let diagnostic :=
      (sortOn (DependencyObservationDiagnostic.key unprintable) edgeDiagnostics).head?
    ⟨edge, some observation.predecessor, some observation.outcome, observation.waiver,
      observation :: rest, diagnostic, match diagnostic with
        | none => evaluateEdge edge observation atRevision
        | some diagnostic => .unmet (.malformedObservation diagnostic.error)⟩

/-- The second loop takes each edge's observations out of the map and may add a diagnostic. -/
def evaluateEdges (atRevision : EntityRevision) :
    List DependencyEdge → Collected → List EdgeEvaluation × List DependencyObservationDiagnostic
  | [], collected => ([], collected.diagnostics)
  | edge :: rest, collected =>
    let rawObservations := collected.byEdge.getD edge.id []
    let evaluated := edgeEvaluation unprintable atRevision edge rawObservations
      (collected.diagnostics.filter (·.raw.edgeId = edge.id))
    let later := evaluateEdges atRevision rest ⟨collected.byEdge.erase edge.id,
      collected.diagnostics ++ duplicates edge rawObservations⟩
    (evaluated :: later.1, later.2)

def evaluateDependencies (graph : DependencyGraph) (observations : List DependencyObservation)
    (atRevision : EntityRevision) : Except DependencyEvaluationError DependencyEvaluation :=
  let ordered := sortOn (DependencyObservation.key unprintable) observations
  let evaluated := evaluateEdges unprintable atRevision graph.edges
    (ordered.foldl (collect graph) ⟨∅, []⟩)
  .ok ⟨evaluated.1, sortOn (fun d => toLex (d.raw.edgeId, d.key unprintable)) evaluated.2⟩

end Ordered

end Boreal.Dependencies
