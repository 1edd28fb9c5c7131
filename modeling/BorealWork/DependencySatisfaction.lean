/- When an evaluation is satisfied, and that it does not depend on the observation order. -/
import BorealWork.DependencyEvaluation

namespace Boreal.Dependencies
open Sorting

/-- What the first loop says about one observation. -/
def diagnose (graph : DependencyGraph) (o : DependencyObservation) :
    Option DependencyObservationDiagnostic :=
  match graph.edge o.edgeId with
  | none => some ⟨.unknownObservationEdge o.edgeId, o⟩
  | some edge => (validateObservation graph edge o).map fun error => ⟨error, o⟩

theorem foldl_collect_diagnostics (graph : DependencyGraph) (os : List DependencyObservation)
    (c : Collected) : (os.foldl (collect graph) c).diagnostics =
      c.diagnostics ++ os.filterMap (diagnose graph) := by
  induction os generalizing c with
  | nil => simp
  | cons o rest ih =>
    rw [List.foldl_cons, ih, List.filterMap_cons, collect, diagnose]
    cases graph.edge o.edgeId with
    | none => simp
    | some edge =>
      cases invalid : validateObservation graph edge o with
      | none => simp [invalid]
      | some error => simp [invalid]

theorem collect_byEdge {graph : DependencyGraph} {e : DependencyEdge} (member : e ∈ graph.edges)
    (c : Collected) (o : DependencyObservation) : (collect graph c o).byEdge.getD e.id [] =
      c.byEdge.getD e.id [] ++ [o].filter (·.edgeId = e.id) := by
  have grouped (byEdge : Std.TreeMap DependencyId (List DependencyObservation)) :
      (byEdge.insert o.edgeId (byEdge.getD o.edgeId [] ++ [o])).getD e.id [] =
        byEdge.getD e.id [] ++ [o].filter (·.edgeId = e.id) := by
    rw [Std.TreeMap.getD_insert]
    by_cases same : o.edgeId = e.id
    · simp [same]
    · rw [if_neg fun equal => same (compare_eq_iff_eq.mp equal)]
      simp [same]
  unfold collect
  cases known : graph.edge o.edgeId with
  | none =>
    have other := DependencyGraph.edge_eq_none.mp known e member
    simp [other.symm]
  | some edge =>
    cases invalid : validateObservation graph edge o with
    | none => simpa only [invalid] using grouped c.byEdge
    | some error => simpa only [invalid] using grouped c.byEdge

theorem foldl_collect_byEdge {graph : DependencyGraph} {e : DependencyEdge}
    (member : e ∈ graph.edges) (os : List DependencyObservation) (c : Collected) :
    (os.foldl (collect graph) c).byEdge.getD e.id [] =
      c.byEdge.getD e.id [] ++ os.filter (·.edgeId = e.id) := by
  induction os generalizing c with
  | nil => simp
  | cons o rest ih =>
    rw [List.foldl_cons, ih, collect_byEdge member, List.append_assoc, ← List.filter_append]
    rfl

theorem mem_duplicates {edge : DependencyEdge} {os : List DependencyObservation}
    {d : DependencyObservationDiagnostic} (h : d ∈ duplicates edge os) : d.raw ∈ os := by
  match os with
  | [] => cases h
  | [_] => cases h
  | _ :: second :: _ =>
    obtain rfl := List.mem_singleton.mp h
    exact List.mem_cons_of_mem _ List.mem_cons_self

theorem duplicates_eq_nil {edge : DependencyEdge} {os : List DependencyObservation} :
    duplicates edge os = [] ↔ os.length ≤ 1 := by
  match os with
  | [] => simp [duplicates]
  | [_] => simp [duplicates]
  | _ :: _ :: _ => simp [duplicates]

theorem evaluateEdges_eq (unprintable : Char → Bool) (atRevision : EntityRevision)
    {edges : List DependencyEdge} {c : Collected} (distinct : (edges.map DependencyEdge.id).Nodup)
    (grouped : ∀ e ∈ edges, ∀ o ∈ c.byEdge.getD e.id [], o.edgeId = e.id) :
    evaluateEdges unprintable atRevision edges c =
      (edges.map fun e => edgeEvaluation unprintable atRevision e (c.byEdge.getD e.id [])
          (c.diagnostics.filter (·.raw.edgeId = e.id)),
        c.diagnostics ++ edges.flatMap fun e => duplicates e (c.byEdge.getD e.id [])) := by
  induction edges generalizing c with
  | nil => simp [evaluateEdges]
  | cons first rest ih =>
    rw [List.map_cons, List.nodup_cons] at distinct
    rw [List.forall_mem_cons] at grouped
    have apart (e : DependencyEdge) (member : e ∈ rest) : first.id ≠ e.id := by
      intro same
      exact distinct.1 (same ▸ List.mem_map_of_mem member)
    have kept (e : DependencyEdge) (member : e ∈ rest) :
        (c.byEdge.erase first.id).getD e.id [] = c.byEdge.getD e.id [] := by
      rw [Std.TreeMap.getD_erase, if_neg fun same => apart e member (compare_eq_iff_eq.mp same)]
    have foreign (e : DependencyEdge) (member : e ∈ rest) :
        (duplicates first (c.byEdge.getD first.id [])).filter (·.raw.edgeId = e.id) = [] := by
      rw [List.filter_eq_nil_iff]
      intro d duplicate same
      have own := grouped.1 d.raw (mem_duplicates duplicate)
      exact apart e member (own.symm.trans (of_decide_eq_true same))
    rw [evaluateEdges, ih distinct.2]
    · simp only [List.map_cons, List.flatMap_cons, List.append_assoc, Prod.mk.injEq,
        List.cons.injEq, true_and, List.filter_append]
      refine ⟨List.map_congr_left ?_, congrArg _ (congrArg _ (List.flatMap_congr ?_))⟩
      · intro e member
        rw [kept e member, foreign e member, List.append_nil]
      · intro e member
        rw [kept e member]
    · intro e member o observed
      rw [kept e member] at observed
      exact grouped.2 e member o observed

section Evaluated

variable (unprintable : Char → Bool) (graph : DependencyGraph)
  (observations : List DependencyObservation) (atRevision : EntityRevision)

def observationsOf (e : DependencyEdge) : List DependencyObservation :=
  (sortOn (DependencyObservation.key unprintable) observations).filter (·.edgeId = e.id)

def observationDiagnostics : List DependencyObservationDiagnostic :=
  (sortOn (DependencyObservation.key unprintable) observations).filterMap (diagnose graph)

theorem evaluateDependencies_eq :
    evaluateDependencies unprintable graph observations atRevision = .ok
      ⟨graph.edges.map fun e => edgeEvaluation unprintable atRevision e
          (observationsOf unprintable observations e)
          ((observationDiagnostics unprintable graph observations).filter (·.raw.edgeId = e.id)),
        sortOn (fun d => toLex (d.raw.edgeId, d.key unprintable))
          (observationDiagnostics unprintable graph observations ++
            graph.edges.flatMap fun e => duplicates e (observationsOf unprintable observations e))⟩ := by
  have initial (e : DependencyEdge) (member : e ∈ graph.edges) :
      ((sortOn (DependencyObservation.key unprintable) observations).foldl (collect graph)
        ⟨∅, []⟩).byEdge.getD e.id [] = observationsOf unprintable observations e := by
    rw [foldl_collect_byEdge member]
    simp [observationsOf]
  rw [evaluateDependencies, evaluateEdges_eq unprintable atRevision graph.admissible.edgesDistinct]
  · simp only [foldl_collect_diagnostics, List.nil_append]
    rw [List.map_congr_left fun e member => by rw [initial e member],
      List.flatMap_congr fun e member => by rw [initial e member]]
    rfl
  · intro e member o observed
    rw [initial e member] at observed
    simpa using (List.mem_filter.mp observed).2

theorem evaluateDependencies_perm {observations' : List DependencyObservation}
    (same : observations.Perm observations') :
    evaluateDependencies unprintable graph observations atRevision =
      evaluateDependencies unprintable graph observations' atRevision := by
  have ordered : sortOn (DependencyObservation.key unprintable) observations =
      sortOn (DependencyObservation.key unprintable) observations' :=
    sortOn_congr same fun _ _ _ _ equal => DependencyObservation.key_injective unprintable equal
  unfold evaluateDependencies
  rw [ordered]

end Evaluated

structure WellFormedFor (graph : DependencyGraph) (edge : DependencyEdge)
    (o : DependencyObservation) : Prop where
  revision : o.edgeRevision = edge.revision
  project : o.predecessor.projectId = graph.projectId
  predecessor : o.predecessor.workId = edge.predecessor
  waiverScope : ∀ w, o.waiver = some w → w.edgeId = edge.id ∧ w.edgeRevision = edge.revision ∧
    w.projectId = edge.projectId ∧ w.successor = edge.successor
  waiverWindow : ∀ w r, o.waiver = some w → w.revokedAt = some r → w.validFrom < r

def AcceptedClosure (edge : DependencyEdge) (o : DependencyObservation) : Prop :=
  ∃ identity proofGeneration, o.outcome = .closed (.accepted identity proofGeneration) ∧
    identity = o.predecessor ∧ identity.workId = edge.predecessor

def ActiveWaiver (atRevision : EntityRevision) (o : DependencyObservation) : Prop :=
  ∃ w, o.waiver = some w ∧ w.validFrom ≤ atRevision ∧ ∀ r, w.revokedAt = some r → atRevision < r

/-- Everything one observation has to be in order to satisfy its edge. -/
structure Satisfies (graph : DependencyGraph) (edge : DependencyEdge) (atRevision : EntityRevision)
    (o : DependencyObservation) : Prop where
  wellFormed : WellFormedFor graph edge o
  readable : ∀ d, o.outcome ≠ .unreadable d
  sound : ∀ d, o.outcome ≠ .corrupt d
  current : ∀ d, o.outcome ≠ .stale d
  basis : AcceptedClosure edge o ∨ ActiveWaiver atRevision o

theorem EdgeWaiver.scopeMatches_iff {w : EdgeWaiver} {edge : DependencyEdge} :
    w.scopeMatches edge = true ↔ w.edgeId = edge.id ∧ w.edgeRevision = edge.revision ∧
      w.projectId = edge.projectId ∧ w.successor = edge.successor := by
  simp [scopeMatches, and_assoc]

theorem EdgeWaiver.validityError_eq_none {w : EdgeWaiver} :
    w.validityError = none ↔ ∀ r, w.revokedAt = some r → w.validFrom < r := by
  unfold validityError
  cases w.revokedAt with
  | none => simp
  | some r => simp

theorem EdgeWaiver.appliesTo_iff {w : EdgeWaiver} {edge : DependencyEdge} {atRevision : EntityRevision} :
    w.appliesTo edge atRevision = true ↔ w.scopeMatches edge = true ∧ w.validFrom ≤ atRevision ∧
      ∀ r, w.revokedAt = some r → atRevision < r := by
  unfold appliesTo scopeMatches
  cases w.revokedAt with
  | none => simp [and_assoc]
  | some r => simp [and_assoc]

theorem validateObservation_eq_none {graph : DependencyGraph} {edge : DependencyEdge}
    {o : DependencyObservation} : validateObservation graph edge o = none ↔ WellFormedFor graph edge o := by
  unfold validateObservation
  constructor
  · intro h
    split_ifs at h with revision project predecessor
    have named := And.intro (not_not.mp project) (not_not.mp predecessor)
    cases waived : o.waiver with
    | none => exact ⟨not_not.mp revision, named.1, named.2, by simp [waived], by simp [waived]⟩
    | some w =>
      simp only [waived] at h
      split_ifs at h with scope
      refine ⟨not_not.mp revision, named.1, named.2, ?_, ?_⟩
      · rintro w' same
        cases waived.symm.trans same
        exact EdgeWaiver.scopeMatches_iff.mp (by simpa using scope)
      · rintro w' r same revoked
        cases waived.symm.trans same
        exact EdgeWaiver.validityError_eq_none.mp h r revoked
  · intro h
    rw [if_neg (not_not.mpr h.revision), if_neg (not_not.mpr h.project), if_neg (not_not.mpr h.predecessor)]
    cases waived : o.waiver with
    | none => rfl
    | some w =>
      have scope := EdgeWaiver.scopeMatches_iff.mpr (h.waiverScope w waived)
      simp only [scope, Bool.true_eq_false, if_false]
      exact EdgeWaiver.validityError_eq_none.mpr fun r => h.waiverWindow w r waived

theorem evaluateWaiver_isSatisfied {graph : DependencyGraph} {edge : DependencyEdge}
    {o : DependencyObservation} {atRevision : EntityRevision} (h : WellFormedFor graph edge o) :
    (evaluateWaiver edge o atRevision).isSatisfied = true ↔ ActiveWaiver atRevision o := by
  unfold evaluateWaiver ActiveWaiver
  cases waived : o.waiver with
  | none => simp [EdgeSatisfaction.isSatisfied]
  | some w =>
    have scope := EdgeWaiver.scopeMatches_iff.mpr (h.waiverScope w waived)
    by_cases applies : w.appliesTo edge atRevision = true
    · simpa [applies, EdgeSatisfaction.isSatisfied] using (EdgeWaiver.appliesTo_iff.mp applies).2
    · have inactive := fun active => applies (EdgeWaiver.appliesTo_iff.mpr ⟨scope, active⟩)
      simpa [applies, EdgeSatisfaction.isSatisfied] using inactive

theorem evaluateEdge_isSatisfied {graph : DependencyGraph} {edge : DependencyEdge}
    {o : DependencyObservation} {atRevision : EntityRevision} (h : WellFormedFor graph edge o) :
    (evaluateEdge edge o atRevision).isSatisfied = true ↔ Satisfies graph edge atRevision o := by
  have waiver := @evaluateWaiver_isSatisfied graph edge o atRevision h
  constructor
  · intro satisfied
    unfold evaluateEdge at satisfied
    split at satisfied
    · cases satisfied
    · cases satisfied
    · cases satisfied
    · rename_i identity proofGeneration closed
      refine ⟨h, by simp [closed], by simp [closed], by simp [closed], ?_⟩
      split_ifs at satisfied with own
      · exact .inl ⟨identity, proofGeneration, closed, own⟩
      · exact .inr (waiver.mp satisfied)
    · rename_i unreadable corrupt stale _
      exact ⟨h, unreadable, corrupt, stale, .inr (waiver.mp satisfied)⟩
  · rintro ⟨_, readable, sound, current, basis⟩
    unfold evaluateEdge
    split
    · rename_i d outcome
      exact absurd outcome (readable d)
    · rename_i d outcome
      exact absurd outcome (sound d)
    · rename_i d outcome
      exact absurd outcome (current d)
    · rename_i identity proofGeneration closed
      by_cases own : identity = o.predecessor ∧ identity.workId = edge.predecessor
      · rw [if_pos own]
        rfl
      · rw [if_neg own]
        rcases basis with ⟨identity', proofGeneration', closed', own'⟩ | active
        · cases closed.symm.trans closed'
          exact absurd own' own
        · exact waiver.mpr active
    · rename_i _ _ _ other
      rcases basis with ⟨identity, proofGeneration, closed, _⟩ | active
      · exact absurd closed (other identity proofGeneration)
      · exact waiver.mpr active

theorem diagnose_eq_none {graph : DependencyGraph} {o : DependencyObservation} :
    diagnose graph o = none ↔ ∃ e ∈ graph.edges, e.id = o.edgeId ∧ WellFormedFor graph e o := by
  unfold diagnose
  cases known : graph.edge o.edgeId with
  | none =>
    have unknown := DependencyGraph.edge_eq_none.mp known
    simp only [reduceCtorEq, false_iff]
    rintro ⟨e, member, named, _⟩
    exact unknown e member named
  | some edge =>
    obtain ⟨member, named⟩ := DependencyGraph.edge_eq_some.mp known
    simp only [Option.map_eq_none_iff, validateObservation_eq_none]
    constructor
    · exact fun h => ⟨edge, member, named, h⟩
    · rintro ⟨e, member', named', h⟩
      rwa [DependencyGraph.edge_unique member member' (named.trans named'.symm)]

theorem edgeEvaluation_isSatisfied {unprintable : Char → Bool} {atRevision : EntityRevision}
    {e : DependencyEdge} {os : List DependencyObservation} (single : os.length ≤ 1) :
    (edgeEvaluation unprintable atRevision e os []).satisfaction.isSatisfied = true ↔
      ∃ o, os = [o] ∧ (evaluateEdge e o atRevision).isSatisfied = true := by
  match os with
  | [] => simp [edgeEvaluation, EdgeSatisfaction.isSatisfied]
  | [o] => simp [edgeEvaluation, duplicates, sortOn]
  | _ :: _ :: _ => simp at single

theorem observationDiagnostics_eq_nil {unprintable : Char → Bool} {graph : DependencyGraph}
    {observations : List DependencyObservation} :
    observationDiagnostics unprintable graph observations = [] ↔
      ∀ o ∈ observations, ∃ e ∈ graph.edges, e.id = o.edgeId ∧ WellFormedFor graph e o := by
  simp only [observationDiagnostics, List.filterMap_eq_nil_iff, mem_sortOn, diagnose_eq_none]

theorem observationsOf_eq_singleton {unprintable : Char → Bool}
    {observations : List DependencyObservation} {e : DependencyEdge} {o : DependencyObservation} :
    observationsOf unprintable observations e = [o] ↔
      observations.filter (·.edgeId = e.id) = [o] := by
  have same := (sortOn_perm (DependencyObservation.key unprintable) observations).filter
    (·.edgeId = e.id)
  constructor
  · intro h
    exact List.perm_singleton.mp ((h ▸ same : List.Perm [o] _).symm)
  · intro h
    exact List.perm_singleton.mp (h ▸ same)

theorem satisfied_iff (unprintable : Char → Bool) (graph : DependencyGraph)
    (observations : List DependencyObservation) (atRevision : EntityRevision)
    {evaluation : DependencyEvaluation}
    (evaluated : evaluateDependencies unprintable graph observations atRevision = .ok evaluation) :
    evaluation.satisfied = true ↔
      (∀ o ∈ observations, ∃ e ∈ graph.edges, e.id = o.edgeId) ∧
      ∀ e ∈ graph.edges, ∃ o, observations.filter (·.edgeId = e.id) = [o] ∧
        Satisfies graph e atRevision o := by
  rw [evaluateDependencies_eq, Except.ok.injEq] at evaluated
  subst evaluated
  simp only [DependencyEvaluation.satisfied, Bool.and_eq_true, List.isEmpty_iff, sortOn_eq_nil,
    List.append_eq_nil_iff, List.flatMap_eq_nil_iff, duplicates_eq_nil, List.all_eq_true,
    List.forall_mem_map]
  constructor
  · rintro ⟨⟨clean, single⟩, satisfied⟩
    have wellFormed := observationDiagnostics_eq_nil.mp clean
    refine ⟨?_, ?_⟩
    · intro o observed
      obtain ⟨e, member, named, _⟩ := wellFormed o observed
      exact ⟨e, member, named⟩
    · intro e member
      have met := satisfied e member
      rw [clean, List.filter_nil, edgeEvaluation_isSatisfied (single e member)] at met
      obtain ⟨o, only, met⟩ := met
      have only := observationsOf_eq_singleton.mp only
      have own : o ∈ observations.filter (·.edgeId = e.id) := only ▸ List.mem_singleton_self o
      obtain ⟨observed, named⟩ := List.mem_filter.mp own
      obtain ⟨e', member', named', fits⟩ := wellFormed o observed
      have same := DependencyGraph.edge_unique member' member
        (named'.trans (of_decide_eq_true named))
      exact ⟨o, only, (evaluateEdge_isSatisfied (same ▸ fits)).mp met⟩
  · rintro ⟨known, satisfied⟩
    have clean : observationDiagnostics unprintable graph observations = [] := by
      refine observationDiagnostics_eq_nil.mpr ?_
      intro o observed
      obtain ⟨e, member, named⟩ := known o observed
      obtain ⟨o', only, met⟩ := satisfied e member
      have own : o ∈ observations.filter (·.edgeId = e.id) :=
        List.mem_filter.mpr ⟨observed, decide_eq_true named.symm⟩
      rw [only, List.mem_singleton] at own
      exact ⟨e, member, named, own ▸ met.wellFormed⟩
    have single (e : DependencyEdge) (member : e ∈ graph.edges) :
        ∃ o, observationsOf unprintable observations e = [o] ∧ Satisfies graph e atRevision o := by
      obtain ⟨o, only, met⟩ := satisfied e member
      exact ⟨o, observationsOf_eq_singleton.mpr only, met⟩
    refine ⟨⟨clean, ?_⟩, ?_⟩
    · intro e member
      obtain ⟨o, only, _⟩ := single e member
      simp [only]
    · intro e member
      obtain ⟨o, only, met⟩ := single e member
      rw [clean, List.filter_nil, edgeEvaluation_isSatisfied (by simp [only])]
      exact ⟨o, only, (evaluateEdge_isSatisfied met.wellFormed).mpr met⟩

/-- Evaluation fails closed, and the observation order is irrelevant to its whole result. -/
theorem evaluateDependencies_fails_closed (unprintable : Char → Bool) (graph : DependencyGraph)
    (observations : List DependencyObservation) (atRevision : EntityRevision) :
    ∃ evaluation, evaluateDependencies unprintable graph observations atRevision = .ok evaluation ∧
      (evaluation.satisfied = true ↔
        (∀ o ∈ observations, ∃ e ∈ graph.edges, e.id = o.edgeId) ∧
        ∀ e ∈ graph.edges, ∃ o, observations.filter (·.edgeId = e.id) = [o] ∧
          Satisfies graph e atRevision o) ∧
      ∀ observations', observations.Perm observations' →
        evaluateDependencies unprintable graph observations' atRevision = .ok evaluation := by
  have evaluated := evaluateDependencies_eq unprintable graph observations atRevision
  refine ⟨_, evaluated, satisfied_iff _ _ _ _ evaluated, ?_⟩
  intro observations' same
  rw [← evaluateDependencies_perm unprintable graph observations atRevision same, evaluated]

end Boreal.Dependencies
