/- The blocking diagnostics: which inputs are interpreted without any of them. -/
import BorealWork.AcceptanceJudgement

namespace Boreal.Acceptance
open Sorting

/-- No diagnostic of the list keeps the requirement set from being satisfied. -/
def Quiet (diagnostics : List AcceptanceDiagnostic) : Prop :=
  ∀ d ∈ diagnostics, d.isBlocking = false

section Quiet

variable {l l' : List AcceptanceDiagnostic}

@[simp] theorem quiet_nil : Quiet [] := List.forall_mem_nil _

@[simp] theorem quiet_singleton {d : AcceptanceDiagnostic} : Quiet [d] ↔ d.isBlocking = false :=
  List.forall_mem_singleton

@[simp] theorem quiet_append : Quiet (l ++ l') ↔ Quiet l ∧ Quiet l' := List.forall_mem_append

@[simp] theorem quiet_ite {p : Prop} [Decidable p] :
    Quiet (if p then l else l') ↔ (p → Quiet l) ∧ (¬ p → Quiet l') := by
  split
  case isTrue h => simp [h]
  case isFalse h => simp [h]

theorem quiet_flatMap {α : Type*} {as : List α} {f : α → List AcceptanceDiagnostic} :
    Quiet (as.flatMap f) ↔ ∀ a ∈ as, Quiet (f a) := List.forall_mem_flatMap

theorem quiet_map {α : Type*} {as : List α} {f : α → AcceptanceDiagnostic}
    (silent : ∀ a ∈ as, (f a).isBlocking = false) : Quiet (as.map f) :=
  List.forall_mem_map.mpr silent

theorem quiet_iff (i : AcceptanceInterpretation) :
    i.hasBlockingDeclarationIssue = false ↔ Quiet i.diagnostics := by
  simp only [AcceptanceInterpretation.hasBlockingDeclarationIssue, Quiet, List.any_eq_false,
    Bool.not_eq_true]

end Quiet

structure Stands (body : RequirementDeclarationBody) (input : AcceptanceInput) : Prop where
  addressed : Addressed body input
  reviewed : body.reference.kind = .review → body.reviewPolicy ≠ .notRequired

structure WellPosed (input : AcceptanceInput) : Prop where
  declared : input.declarations ≠ []
  present : ∀ d ∈ input.declarations, ∃ body, d = .present body ∧ Stands body input
  requirementsUnique : (input.declarations.map (·.reference.id)).Nodup
  evidenceUnique : (input.evidence.map EvidenceObservation.id).Nodup
  reviewsUnique : (input.reviews.map ReviewDecision.id).Nodup
  evidenceMatched : ∀ e ∈ input.evidence, ∀ body, .present body ∈ input.declarations →
    e.requirement.id = body.reference.id → e.requirement = body.reference
  evidenceDeclared : ∀ e ∈ input.evidence, e.subject = input.subject →
    ∃ d ∈ input.declarations, d.reference.id = e.requirement.id

section Loops

variable {input : AcceptanceInput}

theorem quiet_repeated {α : Type*} {name : String} {id : α → TypedId name}
    {report : TypedId name → AcceptanceDiagnostic} (blocks : ∀ i, (report i).isBlocking = true)
    {as : List α} {seen : Std.TreeSet (TypedId name)} :
    Quiet (repeated id report as seen) ↔ (as.map id).Nodup ∧ ∀ a ∈ as, id a ∉ seen := by
  induction as generalizing seen with
  | nil => simp [repeated]
  | cons a rest ih =>
    simp only [repeated, quiet_append, quiet_ite, quiet_singleton, blocks, quiet_nil, ih,
      List.map_cons, List.nodup_cons, List.mem_map, List.forall_mem_cons, Lookup.mem_insert,
      not_or, Std.TreeSet.contains_iff_mem]
    constructor
    · rintro ⟨⟨unseen, _⟩, nodup, fresh⟩
      refine ⟨⟨?_, nodup⟩, fun seen => Bool.noConfusion (unseen seen), fun b hb => (fresh b hb).2⟩
      rintro ⟨b, member, same⟩
      exact (fresh b member).1 same.symm
    · rintro ⟨⟨once, nodup⟩, unseen, fresh⟩
      refine ⟨⟨fun seen => absurd seen unseen, fun _ => trivial⟩, nodup, fun b hb => ?_⟩
      exact ⟨fun same => once ⟨b, hb, same.symm⟩, fresh b hb⟩

theorem quiet_unique {α : Type*} {name : String} {id : α → TypedId name}
    {report : TypedId name → AcceptanceDiagnostic} (blocks : ∀ i, (report i).isBlocking = true)
    {as : List α} : Quiet (repeated id report as ∅) ↔ (as.map id).Nodup := by
  rw [quiet_repeated blocks]
  exact and_iff_left fun a _ => Std.TreeSet.not_mem_emptyc

theorem quiet_subjectDiagnostics {d : RequirementDeclaration} :
    Quiet (subjectDiagnostics input d) ↔ ∀ body, d = .present body → Addressed body input := by
  cases d with
  | present body =>
    simp [subjectDiagnostics, Addressed, AcceptanceDiagnostic.isBlocking]
  | deleted expected => simp [subjectDiagnostics]
  | mismatched expected observed => simp [subjectDiagnostics]

theorem quiet_declarationDiagnostics {ds : List RequirementDeclaration} {seen : Std.TreeSet RequirementId} :
    Quiet (declarationDiagnostics input ds seen) ↔
      Quiet (repeated (·.reference.id) .duplicateRequirement ds seen) ∧
        ∀ d ∈ ds, Quiet (subjectDiagnostics input d) := by
  induction ds generalizing seen with
  | nil => simp [declarationDiagnostics, repeated]
  | cons d rest ih =>
    simp only [declarationDiagnostics, repeated, quiet_append, ih, List.forall_mem_cons]
    tauto

end Loops

section Declarations

variable {body : RequirementDeclarationBody} {input : AcceptanceInput}

theorem quiet_invalidatedDiagnostic (e : EvidenceObservation) : Quiet (invalidatedDiagnostic e) := by
  rw [invalidatedDiagnostic]
  cases e.disposition <;> simp [AcceptanceDiagnostic.isBlocking]

theorem quiet_rawDiagnostic (raw : RawRequirementState) : Quiet (rawDiagnostic raw) := by
  cases raw <;> simp [rawDiagnostic, AcceptanceDiagnostic.isBlocking]

theorem quiet_evidenceDiagnostics :
    Quiet (evidenceDiagnostics body input) ↔ mismatchedEvidence body input = [] := by
  have stale : Quiet ((sortOn EvidenceObservation.key (staleEvidence body input)).map fun e =>
      .staleEvidence e.id (staleReason input e)) := quiet_map fun _ _ => rfl
  have invalidated : Quiet ((sortOn EvidenceObservation.key (invalidatedEvidence body input)).flatMap
      invalidatedDiagnostic) := quiet_flatMap.mpr fun e _ => quiet_invalidatedDiagnostic e
  have irrelevant : Quiet ((sortOn EvidenceObservation.key (irrelevantEvidence body input)).map
      fun e => .irrelevantEvidence e.id (irrelevantReason body input e)) := quiet_map fun _ _ => rfl
  simp only [evidenceDiagnostics, quiet_append, stale, invalidated, irrelevant, true_and]
  cases last : (mismatchedEvidence body input).getLast? with
  | none => simpa using List.getLast?_eq_none_iff.mp last
  | some e =>
    refine iff_of_false (by simp [AcceptanceDiagnostic.isBlocking]) ?_
    exact List.ne_nil_of_mem (List.mem_of_getLast? last)

theorem quiet_interpretEvidence :
    Quiet (interpretEvidence body input).2 ↔ mismatchedEvidence body input = [] := by
  rw [← quiet_evidenceDiagnostics]
  simp only [interpretEvidence]
  split
  · simp [quiet_rawDiagnostic, AcceptanceDiagnostic.isBlocking]
  · split
    · rfl
    · split
      · rfl
      · split <;> rfl

theorem quiet_reviewState (r : ReviewDecision) : Quiet (reviewState body r).2 := by
  rw [reviewState]
  split
  · simp [AcceptanceDiagnostic.isBlocking]
  · split
    · simp [AcceptanceDiagnostic.isBlocking]
    · cases r.outcome <;> simp [AcceptanceDiagnostic.isBlocking]

theorem quiet_interpretReview : Quiet (interpretReview body input).2 := by
  simp only [interpretReview]
  split
  · exact quiet_append.mpr ⟨quiet_reviewState _, quiet_reviewState _⟩
  · split <;> exact quiet_nil

theorem quiet_interpretDeclaration : Quiet (interpretDeclaration body input).2 ↔
    (Addressed body input → body.reference.kind ≠ .review → mismatchedEvidence body input = []) := by
  by_cases here : Addressed body input
  · rw [interpretDeclaration_addressed here]
    split
    case isTrue review => simp [quiet_interpretReview, review]
    case isFalse other => simp [quiet_interpretEvidence, here, other]
  · rw [interpretDeclaration_unaddressed here]
    exact iff_of_true quiet_nil fun addressed => absurd addressed here

theorem quiet_assessDeclaration {d : RequirementDeclaration} :
    Quiet (assessDeclaration input d).2 ↔ ∃ body, d = .present body ∧
      (body.reference.kind = .review → body.reviewPolicy ≠ .notRequired) ∧
      (Addressed body input → body.reference.kind ≠ .review → mismatchedEvidence body input = []) := by
  cases d with
  | present body =>
    simp [assessDeclaration, assessmentFor, quiet_interpretDeclaration,
      AcceptanceDiagnostic.isBlocking, and_comm]
  | deleted expected => simp [assessDeclaration, AcceptanceDiagnostic.isBlocking]
  | mismatched expected observed => simp [assessDeclaration, AcceptanceDiagnostic.isBlocking]

theorem quiet_validateExceptionRecords : Quiet (validateExceptionRecords input) := by
  intro d member
  obtain ⟨x, _, reported⟩ := List.mem_filterMap.mp member
  obtain ⟨reason, _, rfl⟩ := Option.map_eq_some_iff.mp reported
  rfl

end Declarations

section Observations

variable {input : AcceptanceInput}

theorem quiet_observationDiagnostics (present : ∀ d ∈ input.declarations, ∃ body, d = .present body)
    (unique : (input.declarations.map (·.reference.id)).Nodup) (e : EvidenceObservation) :
    Quiet (observationDiagnostics input e) ↔
      (∀ body, .present body ∈ input.declarations → e.requirement.id = body.reference.id →
        e.requirement = body.reference) ∧
      (e.subject = input.subject → ∃ d ∈ input.declarations, d.reference.id = e.requirement.id) := by
  rw [observationDiagnostics]
  cases found : input.declarations.find? (·.reference.id = e.requirement.id) with
  | none =>
    have absent (d : RequirementDeclaration) (member : d ∈ input.declarations) :
        d.reference.id ≠ e.requirement.id := by
      simpa using List.find?_eq_none.mp found d member
    constructor
    · intro quiet
      refine ⟨fun body member same => absurd same.symm (absent _ member), fun here => ?_⟩
      simp [here, AcceptanceDiagnostic.isBlocking] at quiet
    · rintro ⟨_, declared⟩
      simp only
      rw [if_neg]
      · exact quiet_singleton.mpr rfl
      · intro here
        obtain ⟨d, member, same⟩ := declared here
        exact absent d member same
  | some d =>
    have member := List.mem_of_find?_eq_some found
    have same : d.reference.id = e.requirement.id := by simpa using List.find?_some found
    obtain ⟨body, rfl⟩ := present d member
    simp only [quiet_ite, quiet_singleton, quiet_nil, AcceptanceDiagnostic.isBlocking]
    constructor
    · rintro ⟨matched, _⟩
      refine ⟨fun other declared alike => ?_, fun _ => ⟨_, member, same⟩⟩
      have one : RequirementDeclaration.present other = .present body :=
        List.inj_on_of_nodup_map unique declared member (alike.symm.trans same.symm)
      rw [RequirementDeclaration.present.injEq] at one
      rw [one]
      by_contra differs
      exact Bool.noConfusion (matched (Ne.symm differs))
    · rintro ⟨matched, _⟩
      exact ⟨fun differs => absurd (matched body member same.symm).symm differs, fun _ => trivial⟩

end Observations

theorem wellPosed_iff (input : AcceptanceInput) :
    (interpretAcceptance input).hasBlockingDeclarationIssue = false ↔ WellPosed input := by
  rw [quiet_iff]
  simp only [interpretAcceptance, quiet_append, quiet_ite, quiet_singleton, quiet_nil,
    quiet_declarationDiagnostics, quiet_subjectDiagnostics, quiet_validateExceptionRecords,
    quiet_flatMap, List.forall_mem_map, quiet_assessDeclaration, and_true]
  rw [quiet_unique fun _ => rfl, quiet_unique fun _ => rfl, quiet_unique fun _ => rfl]
  constructor
  · rintro ⟨⟨⟨⟨⟨⟨declared, _⟩, requirements, addressed⟩, evidence⟩, reviews⟩, assessed⟩, observed⟩
    have present (d : RequirementDeclaration) (member : d ∈ input.declarations) :
        ∃ body, d = .present body := by
      obtain ⟨body, here, _⟩ := assessed d member
      exact ⟨body, here⟩
    refine ⟨fun empty => Bool.noConfusion (declared empty), ?_, requirements, evidence, reviews, ?_, ?_⟩
    · intro d member
      obtain ⟨body, here, reviewed, _⟩ := assessed d member
      exact ⟨body, here, addressed d member body here, reviewed⟩
    · intro e member
      exact ((quiet_observationDiagnostics present requirements e).mp (observed e member)).1
    · intro e member
      exact ((quiet_observationDiagnostics present requirements e).mp (observed e member)).2
  · intro posed
    have present (d : RequirementDeclaration) (member : d ∈ input.declarations) :
        ∃ body, d = .present body := by
      obtain ⟨body, here, _⟩ := posed.present d member
      exact ⟨body, here⟩
    refine ⟨⟨⟨⟨⟨⟨fun empty => absurd empty posed.declared, fun _ => trivial⟩,
      posed.requirementsUnique, ?_⟩, posed.evidenceUnique⟩, posed.reviewsUnique⟩, ?_⟩, ?_⟩
    · rintro _ member body rfl
      obtain ⟨_, same, stands⟩ := posed.present _ member
      cases same
      exact stands.addressed
    · intro d member
      obtain ⟨body, rfl, stands⟩ := posed.present d member
      refine ⟨body, rfl, stands.reviewed, fun _ _ => ?_⟩
      rw [List.eq_nil_iff_forall_not_mem]
      intro e mismatched
      obtain ⟨observed, same, differs⟩ := mem_mismatchedEvidence.mp mismatched
      exact differs (posed.evidenceMatched e observed body member same)
    · intro e member
      exact (quiet_observationDiagnostics present posed.requirementsUnique e).mpr
        ⟨posed.evidenceMatched e member, posed.evidenceDeclared e member⟩

end Boreal.Acceptance
