/- Validation of one project's dependency graph: the checks in their order, then a three-colour
depth-first search that reports the cycle it runs into. A graph value carries what the checks
established, so that only validation can build one. -/
import BorealWork.Identity
import BorealWork.Library.Sorting
import BorealWork.Library.Walks

namespace Boreal.Dependencies
open Sorting Walks

inductive DependencyEndpointKind
  | directTask
  | milestone
  | containerTask
  | compatibilitySprint
  deriving DecidableEq

def DependencyEndpointKind.rank : DependencyEndpointKind → ℕ
  | .directTask => 0
  | .milestone => 1
  | .containerTask => 2
  | .compatibilitySprint => 3

structure DependencyEndpoint where
  projectId : ProjectId
  workId : WorkId
  kind : DependencyEndpointKind
  deriving DecidableEq

def DependencyEndpoint.key (n : DependencyEndpoint) : ProjectId ×ₗ WorkId ×ₗ ℕ :=
  toLex (n.projectId, toLex (n.workId, n.kind.rank))

structure DependencyEdge where
  id : DependencyId
  projectId : ProjectId
  predecessor : WorkId
  successor : WorkId
  policy : DependencyPolicy
  revision : EntityRevision
  deriving DecidableEq

/-- `edge_order`: id, predecessor, successor, project, revision. -/
def DependencyEdge.key (e : DependencyEdge) :
    DependencyId ×ₗ WorkId ×ₗ WorkId ×ₗ ProjectId ×ₗ EntityRevision :=
  toLex (e.id, toLex (e.predecessor, toLex (e.successor, toLex (e.projectId, e.revision))))

inductive DependencyGraphError
  | duplicateNode (workId : WorkId)
  | nodeProjectScopeMismatch (workId : WorkId) (expected observed : ProjectId)
  | edgeProjectScopeMismatch (edgeId : DependencyId) (expected observed : ProjectId)
  | duplicateEdge (edgeId : DependencyId)
  | missingEndpoint (edgeId : DependencyId) (endpoint : WorkId)
  | endpointNotDirect (edgeId : DependencyId) (endpoint : WorkId) (kind : DependencyEndpointKind)
  | duplicateEndpoints (predecessor successor : WorkId) (firstEdge secondEdge : DependencyId)
  | selfDependency (edgeId : DependencyId) (workId : WorkId)
  | dependencyCycle (workIds : List WorkId) (edgeIds : List DependencyId)
  deriving DecidableEq

abbrev NodeIndex := Std.TreeMap WorkId DependencyEndpoint

def indexNodes (projectId : ProjectId) :
    List DependencyEndpoint → NodeIndex → Except DependencyGraphError NodeIndex :=
  Lookup.indexAll DependencyEndpoint.workId
    (fun node => if node.projectId ≠ projectId then
        some (.nodeProjectScopeMismatch node.workId projectId node.projectId)
      else none)
    (fun node => .duplicateNode node.workId) (fun _ => none)

def checkEdges (projectId : ProjectId) (nodeById : NodeIndex) : List DependencyEdge →
    Std.TreeSet DependencyId → Std.TreeMap (WorkId ×ₗ WorkId) DependencyId →
    Except DependencyGraphError Unit
  | [], _, _ => .ok ()
  | edge :: rest, edgeIds, endpointPairs =>
    if edge.projectId ≠ projectId then
      .error (.edgeProjectScopeMismatch edge.id projectId edge.projectId)
    else if edgeIds.contains edge.id then .error (.duplicateEdge edge.id)
    else if edge.predecessor = edge.successor then
      .error (.selfDependency edge.id edge.predecessor)
    else match nodeById[edge.predecessor]? with
      | none => .error (.missingEndpoint edge.id edge.predecessor)
      | some predecessor => match nodeById[edge.successor]? with
          | none => .error (.missingEndpoint edge.id edge.successor)
          | some successor =>
            match [predecessor, successor].find? (·.kind ≠ .directTask) with
            | some endpoint =>
              .error (.endpointNotDirect edge.id endpoint.workId endpoint.kind)
            | none => match endpointPairs[toLex (edge.predecessor, edge.successor)]? with
                | some firstEdge => .error
                    (.duplicateEndpoints edge.predecessor edge.successor firstEdge edge.id)
                | none => checkEdges projectId nodeById rest (edgeIds.insert edge.id)
                    (endpointPairs.insert (toLex (edge.predecessor, edge.successor)) edge.id)

inductive VisitState
  | visiting
  | done
  deriving DecidableEq

abbrev VisitStates := Std.TreeMap WorkId VisitState
abbrev Adjacency := Std.TreeMap WorkId (List DependencyEdge)

/-- How one visit ends. `stuck` is the embedding's own outcome, for spent fuel or a failed
`expect`; no run of `findCycle` reaches it. -/
inductive Visit
  | cycle (workIds : List WorkId) (edgeIds : List DependencyId)
  | finished (states : VisitStates)
  | stuck

/-- The loop over the outgoing edges of the last node of `pathNodes`. -/
def visitOutgoing (visit : WorkId → VisitStates → List DependencyId → Visit)
    (pathNodes : List WorkId) (pathEdges : List DependencyId) :
    List DependencyEdge → VisitStates → Visit
  | [], states => .finished states
  | edge :: rest, states =>
    match states[edge.successor]? with
    | some .visiting => match pathNodes.idxOf? edge.successor with
        | none => .stuck
        | some start => .cycle (pathNodes.drop start ++ [edge.successor])
            (pathEdges.drop start ++ [edge.id])
    | some .done => visitOutgoing visit pathNodes pathEdges rest states
    | none => match visit edge.successor states (pathEdges ++ [edge.id]) with
        | .finished states => visitOutgoing visit pathNodes pathEdges rest states
        | found => found

/-- The path stacks are passed down; the source pops what it pushed before it returns. -/
def visitCycle (adjacency : Adjacency) : ℕ → WorkId → VisitStates → List WorkId →
    List DependencyId → Visit
  | 0, _, _, _, _ => .stuck
  | fuel + 1, current, states, pathNodes, pathEdges =>
    let path := pathNodes ++ [current]
    match visitOutgoing (fun next seen edges => visitCycle adjacency fuel next seen path edges)
        path pathEdges (adjacency.getD current []) (states.insert current .visiting) with
    | .finished states => .finished (states.insert current .done)
    | found => found

def searchRoots (adjacency : Adjacency) (fuel : ℕ) : List WorkId → VisitStates → Visit
  | [], states => .finished states
  | workId :: rest, states =>
    if states.contains workId then searchRoots adjacency fuel rest states
    else match visitCycle adjacency fuel workId states [] [] with
      | .finished states => searchRoots adjacency fuel rest states
      | found => found

def pushEdge (adjacency : Adjacency) (edge : DependencyEdge) : Adjacency :=
  adjacency.insert edge.predecessor (adjacency.getD edge.predecessor [] ++ [edge])

def adjacencyOf (edges : List DependencyEdge) : Adjacency :=
  (edges.foldl pushEdge ∅).map fun _ outgoing => sortOn DependencyEdge.key outgoing

def searchCycle (nodes : NodeIndex) (edges : List DependencyEdge) : Visit :=
  searchRoots (adjacencyOf edges) (nodes.keys.length + edges.length) nodes.keys ∅

def findCycle (nodes : NodeIndex) (edges : List DependencyEdge) :
    Option (List WorkId × List DependencyId) :=
  match searchCycle nodes edges with
  | .cycle workIds edgeIds => some (workIds, edgeIds)
  | _ => none

def checkGraph (projectId : ProjectId) (canonicalNodes : List DependencyEndpoint)
    (canonicalEdges : List DependencyEdge) : Except DependencyGraphError Unit :=
  match indexNodes projectId canonicalNodes ∅ with
  | .error error => .error error
  | .ok nodeById => match checkEdges projectId nodeById canonicalEdges ∅ ∅ with
      | .error error => .error error
      | .ok () => match findCycle nodeById canonicalEdges with
          | some (workIds, edgeIds) => .error (.dependencyCycle workIds edgeIds)
          | none => .ok ()

def DirectEndpoint (nodes : List DependencyEndpoint) (workId : WorkId) : Prop :=
  ∃ node ∈ nodes, node.workId = workId ∧ node.kind = .directTask

/-- What a dependency graph has to satisfy, as a property of the lists it is made of. -/
structure Admissible (projectId : ProjectId) (nodes : List DependencyEndpoint)
    (edges : List DependencyEdge) : Prop where
  nodeScope : ∀ node ∈ nodes, node.projectId = projectId
  nodesDistinct : (nodes.map DependencyEndpoint.workId).Nodup
  edgeScope : ∀ edge ∈ edges, edge.projectId = projectId
  edgesDistinct : (edges.map DependencyEdge.id).Nodup
  pairsDistinct : (edges.map fun edge => (edge.predecessor, edge.successor)).Nodup
  noSelfEdge : ∀ edge ∈ edges, edge.predecessor ≠ edge.successor
  endpoints : ∀ edge ∈ edges,
    DirectEndpoint nodes edge.predecessor ∧ DirectEndpoint nodes edge.successor
  acyclic : Acyclic DependencyEdge.predecessor DependencyEdge.successor (· ∈ edges)

structure ClosedWalk (edges : List DependencyEdge) (workIds : List WorkId)
    (edgeIds : List DependencyId) : Prop where
  trail : Trail DependencyEdge.predecessor DependencyEdge.successor (· ∈ edges)
    DependencyEdge.id workIds edgeIds
  nonempty : edgeIds ≠ []
  closed : workIds.head? = workIds.getLast?

end Boreal.Dependencies
