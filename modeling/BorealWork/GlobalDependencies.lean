/- Dependencies between the items of the global manager: one new edge against the edges that are there,
and a whole list of edges at once. -/
import BorealWork.BusinessTime
import BorealWork.Library.Arcs

namespace Boreal.GlobalManager
open Arcs Drain

inductive GlobalManagerDomainError
  | invalidIdentifier (value : String)
  | dependencyCycle
  deriving DecidableEq

def validateIdentifier (value : String) : Except GlobalManagerDomainError Unit :=
  refuse (isBlank value ∨ 255 < value.utf8ByteSize ∨ value.toList.any WorkModel.isControl)
    (.invalidIdentifier value)

def validateDependency (prerequisite dependent : String) (edges : List (String × String)) :
    Except GlobalManagerDomainError Unit := do
  validateIdentifier prerequisite
  validateIdentifier dependent
  refuse (prerequisite = dependent) .dependencyCycle
  refuse ((search edges prerequisite dependent).pending ≠ []) .dependencyCycle

def validateEdge (edge : String × String) : Except GlobalManagerDomainError Unit := do
  validateIdentifier edge.1
  validateIdentifier edge.2
  refuse (edge.1 = edge.2) .dependencyCycle

def validateDependencyGraph (edges : List (String × String)) : Except GlobalManagerDomainError Unit := do
  let indegree ← edges.foldlM (fun m edge => do
    validateEdge edge
    pure (enterArc m edge)) ∅
  let removed := removal edges indegree
  refuse (removed.visited.length ≠ removed.indegree.size) .dependencyCycle

section Acceptance

variable {edges : List (String × String)}

def Identified (edge : String × String) : Prop :=
  validateIdentifier edge.1 = .ok () ∧ validateIdentifier edge.2 = .ok ()

theorem validateEdge_eq_ok {edge : String × String} :
    validateEdge edge = .ok () ↔ Identified edge ∧ edge.1 ≠ edge.2 := by
  rw [validateEdge, check_eq_ok, check_eq_ok, refuse_eq_ok, Identified, and_assoc]

theorem validateDependencyGraph_eq_ok :
    validateDependencyGraph edges = .ok () ↔ (∀ edge ∈ edges, Identified edge) ∧ Acyclic edges := by
  have entered : ∀ m, edges.foldlM (fun m edge => do
      validateEdge edge
      pure (enterArc m edge)) ∅ = .ok m ↔
        (∀ edge ∈ edges, validateEdge edge = .ok ()) ∧ m = edges.foldl enterArc ∅ :=
    fun m => foldlM_checked
  rw [validateDependencyGraph, bind_eq_ok]
  simp only [entered, refuse_eq_ok, not_not]
  constructor
  · rintro ⟨m, ⟨checked, rfl⟩, all⟩
    exact ⟨fun edge member => (validateEdge_eq_ok.mp (checked edge member)).1, removal_iff.mp all⟩
  · rintro ⟨identified, acyclic⟩
    refine ⟨_, ⟨fun edge member => validateEdge_eq_ok.mpr ⟨identified edge member, ?_⟩, rfl⟩,
      removal_iff.mpr acyclic⟩
    intro own
    apply acyclic edge.1
    exact .single (show (edge.1, edge.1) ∈ edges from (Prod.ext rfl own : (edge.1, edge.1) = edge) ▸ member)

theorem validateDependency_eq_ok {prerequisite dependent : String} :
    validateDependency prerequisite dependent edges = .ok () ↔
      Identified (prerequisite, dependent) ∧
        ¬ Relation.ReflTransGen (Leads edges) dependent prerequisite := by
  rw [validateDependency, check_eq_ok, check_eq_ok, check_eq_ok, refuse_eq_ok, refuse_eq_ok, not_not,
    search_iff, Identified, and_assoc]
  refine and_congr_right fun _ => and_congr_right fun _ => and_iff_right_of_imp ?_
  rintro unreachable rfl
  exact unreachable .refl

end Acceptance

/-- Against a list that is accepted, a new edge is accepted exactly when the list with it is; and a list
of identified edges is accepted exactly when it is acyclic, however often an edge is listed. -/
theorem dependencyEdges_exact (edges : List (String × String)) :
    (validateDependencyGraph edges = .ok () ↔ (∀ edge ∈ edges, Identified edge) ∧ Acyclic edges) ∧
    (validateDependencyGraph edges = .ok () → ∀ prerequisite dependent extended,
      extended.Perm ((prerequisite, dependent) :: edges) →
        (validateDependency prerequisite dependent edges = .ok () ↔
          validateDependencyGraph extended = .ok ())) := by
  refine ⟨validateDependencyGraph_eq_ok, fun valid prerequisite dependent extended perm => ?_⟩
  obtain ⟨identified, acyclic⟩ := validateDependencyGraph_eq_ok.mp valid
  have all : (∀ edge ∈ extended, Identified edge) ↔ Identified (prerequisite, dependent) := by
    constructor
    · exact fun each => each _ (perm.symm.subset List.mem_cons_self)
    · intro new edge member
      rcases List.mem_cons.mp (perm.subset member) with rfl | old
      · exact new
      · exact identified edge old
  rw [validateDependency_eq_ok, validateDependencyGraph_eq_ok, all, acyclic_perm perm, acyclic_cons,
    and_iff_right acyclic]

theorem dependencyEdges_exact_repeated :
    validateDependencyGraph [("build", "release"), ("build", "release")] = .ok () ∧
      validateDependency "release" "build" [("build", "release"), ("build", "release")] ≠ .ok () := by
  have exact_ := dependencyEdges_exact [("build", "release"), ("build", "release")]
  have valid : validateDependencyGraph [("build", "release"), ("build", "release")] = .ok () := by
    refine exact_.1.mpr ⟨?_, fun a cycle => ?_⟩
    · intro edge member
      obtain rfl : edge = ("build", "release") := by simpa using member
      exact ⟨refuse_of_not (by decide), refuse_of_not (by decide)⟩
    · have only (x y : String) (leads : Leads [("build", "release"), ("build", "release")] x y) :
          x = "build" ∧ y = "release" := by
        simpa [Leads] using leads
      obtain ⟨b, first, -⟩ := Relation.TransGen.head'_iff.mp cycle
      obtain ⟨c, -, last⟩ := Relation.TransGen.tail'_iff.mp cycle
      have source := (only a b first).1
      have target := (only c a last).2
      exact absurd (source.symm.trans target) (by decide)
  refine ⟨valid, fun accepted => ?_⟩
  have extended := (exact_.2 valid "release" "build" _ (.refl _)).mp accepted
  have acyclic := (dependencyEdges_exact _).1.mp extended
  apply acyclic.2 "build"
  exact .head (b := "release") (by simp [Leads]) (.single (by simp [Leads]))

theorem blank_identifier_refused :
    Acyclic [(" ", "release")] ∧ validateDependencyGraph [(" ", "release")] ≠ .ok () := by
  refine ⟨fun a cycle => ?_, ?_⟩
  · obtain ⟨b, first, -⟩ := Relation.TransGen.head'_iff.mp cycle
    obtain ⟨c, -, last⟩ := Relation.TransGen.tail'_iff.mp cycle
    have source := (Prod.mk.inj (List.mem_singleton.mp first)).1
    have target := (Prod.mk.inj (List.mem_singleton.mp last)).2
    exact absurd (source.symm.trans target) (by decide)
  · intro valid
    have identified := (validateDependencyGraph_eq_ok.mp valid).1 _ List.mem_cons_self
    exact refuse_eq_ok.mp identified.1 (.inl (by decide))

end Boreal.GlobalManager
