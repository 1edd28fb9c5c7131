/- Closeout readiness: what a ready subject has, requirement by requirement, and which exceptions
are passed over. -/
import BorealWork.AcceptanceDiagnosis

namespace Boreal.Acceptance
open Sorting

/-- The requirement is proved, or its failure is answered for by the chosen exception. -/
def Met (body : RequirementDeclarationBody) (input : AcceptanceInput) : Prop :=
  Proved body input ∨ ∃ x, Excused body input x

structure Ready (input : AcceptanceInput) : Prop where
  wellPosed : WellPosed input
  met : ∀ body, .present body ∈ input.declarations → body.required = true → Met body input

section Assessments

variable {body : RequirementDeclarationBody} {input : AcceptanceInput}

theorem mem_requirements {a : RequirementAssessment} :
    a ∈ (interpretAcceptance input).requirements ↔
      ∃ d ∈ input.declarations, (assessDeclaration input d).1 = a := by
  simp [interpretAcceptance]

theorem assessDeclaration_present (body : RequirementDeclarationBody) (input : AcceptanceInput) :
    (assessDeclaration input (.present body)).1 =
      ⟨body.reference, body.purpose, body.required, (interpretDeclaration body input).1,
        (effectiveState body input (interpretDeclaration body input).1).1,
        (effectiveState body input (interpretDeclaration body input).1).2⟩ := rfl

theorem assessDeclaration_satisfied (required : body.required = true) :
    (assessDeclaration input (.present body)).1.effective.isSatisfied = true ↔ Met body input := by
  rw [assessDeclaration_present]
  rcases effectiveState_cases input required with
    ⟨proved, effective⟩ | ⟨x, excused, effective⟩ | ⟨unproved, unexcused, effective⟩
  · rw [effective]
    exact iff_of_true rfl (.inl proved)
  · rw [effective]
    exact iff_of_true rfl (.inr ⟨x, excused⟩)
  · rw [effective]
    refine iff_of_false (by simp [EffectiveRequirementState.isSatisfied]) ?_
    rintro (proved | excused)
    · exact unproved proved
    · exact unexcused excused

theorem requiredSatisfied_iff (input : AcceptanceInput) :
    (interpretAcceptance input).requiredSatisfied = true ↔ Ready input := by
  rw [AcceptanceInterpretation.requiredSatisfied, Bool.and_eq_true, Bool.not_eq_true',
    wellPosed_iff, List.all_eq_true]
  simp only [List.mem_filter, mem_requirements]
  constructor
  · rintro ⟨posed, satisfied⟩
    refine ⟨posed, fun body member required => ?_⟩
    exact (assessDeclaration_satisfied required).mp
      (satisfied _ ⟨⟨_, member, rfl⟩, required⟩)
  · intro ready
    refine ⟨ready.wellPosed, ?_⟩
    rintro a ⟨⟨d, member, rfl⟩, required⟩
    obtain ⟨body, rfl, _⟩ := ready.wellPosed.present d member
    exact (assessDeclaration_satisfied required).mpr (ready.met body member required)

theorem buildCloseout_isReady {requirements : List RequirementAssessment} (container : Bool)
    (satisfied : (requirements.filter (·.required)).all (·.effective.isSatisfied) = true) :
    (buildCloseout requirements container).isReady = true := by
  have purpose (p : RequirementPurpose) :
      (requirements.filter fun r => r.purpose = p && r.required).all
        (·.effective.isSatisfied) = true := by
    rw [List.all_eq_true] at satisfied ⊢
    intro a member
    rw [List.mem_filter, Bool.and_eq_true] at member
    exact satisfied a (List.mem_filter.mpr ⟨member.1, member.2.2⟩)
  simp only [buildCloseout]
  split
  · rw [CloseoutAssessment.isReady, purpose, purpose, Bool.and_self]
  · rw [CloseoutAssessment.isReady, purpose, purpose, Bool.and_self]

theorem closeoutReady_eq (input : AcceptanceInput) : (interpretAcceptance input).closeoutReady =
    (interpretAcceptance input).requiredSatisfied := by
  rw [AcceptanceInterpretation.closeoutReady]
  cases satisfied : (interpretAcceptance input).requiredSatisfied with
  | false => rfl
  | true =>
    rw [Bool.true_and]
    rw [AcceptanceInterpretation.requiredSatisfied, Bool.and_eq_true] at satisfied
    exact buildCloseout_isReady _ satisfied.2

theorem closeoutReady_iff (input : AcceptanceInput) :
    (interpretAcceptance input).closeoutReady = true ↔ Ready input := by
  rw [closeoutReady_eq, requiredSatisfied_iff]

end Assessments

namespace Fixture

def taskSubject : AcceptanceSubject :=
  let attempt : AttemptIdentity := ⟨⟨"attempt-1"⟩, ⟨4⟩⟩
  ⟨⟨⟨⟨"project-1"⟩, ⟨"task-1"⟩, ⟨7⟩⟩, ⟨3⟩, some attempt, some ⟨"source-1"⟩, some ⟨"config-1"⟩,
    ⟨⟨"reviewed"⟩, "1", ⟨"sha256:profile"⟩⟩, "policy-1"⟩, .taskAttempt attempt⟩

def reference (id gate : String) (kind : GateKind) : RequirementReference :=
  ⟨⟨id⟩, ⟨gate⟩, kind, taskSubject.proof.profile, ⟨"sha256:decl-" ++ id⟩⟩

def declaration (r : RequirementReference) : RequirementDeclarationBody :=
  ⟨r, taskSubject, .taskProof, true, {"exit_status"},
    if r.kind = .review then .independent else .notRequired⟩

def observation (subject : AcceptanceSubject) (r : RequirementReference) (id : String)
    (observedAt : ℕ) (result : EvidenceResult) : EvidenceObservation :=
  ⟨⟨id⟩, r, subject, ⟨observedAt⟩, result, .current, {"exit_status"}, some ⟨"sha256:artifact"⟩, true⟩

def review (r : RequirementReference) (reviewer : String) : ReviewDecision :=
  ⟨⟨"review-1"⟩, r, taskSubject, ⟨"submission-1"⟩, ⟨reviewer⟩, .reviewer, ⟨"agent-1"⟩, .approved, ⟨4⟩⟩

def exception (r : RequirementReference) (id : String) (revoked : Bool) : ForceException :=
  ⟨⟨id⟩, r, taskSubject, .operator, "bounded risk", none, revoked⟩

def verify : RequirementReference := reference "verify" "verification" .verification
def approval : RequirementReference := reference "review" "independent-review" .review
def checkpoint : RequirementReference := reference "checkpoint" "checkpoint" .checkpoint

/-- One requirement of each kind: proved, approved, and excused after a failure. -/
def readyInput : AcceptanceInput where
  subject := taskSubject
  currentSubmissionId := ⟨"submission-1"⟩
  declarations := [verify, approval, checkpoint].map fun r => .present (declaration r)
  evidence := [observation taskSubject verify "verified" 10 .passed,
    observation taskSubject checkpoint "failed" 3 (.failed .nonZeroExit)]
  reviews := [review approval "reviewer-1"]
  exceptions := [exception checkpoint "EX-17" false]
  evaluatedAt := ⟨100⟩

def shadowedInput : AcceptanceInput :=
  { readyInput with
    declarations := [.present (declaration checkpoint)]
    evidence := [observation taskSubject checkpoint "failed" 3 (.failed .nonZeroExit)]
    reviews := []
    exceptions := [exception checkpoint "EX-17" false, exception checkpoint "EX-18" true] }

end Fixture

section Soundness

structure ProvenBy (body : RequirementDeclarationBody) (input : AcceptanceInput)
    (e : EvidenceObservation) : Prop where
  gate : body.reference.kind ≠ .review
  supplied : e ∈ input.evidence
  exact : e.requirement = body.reference ∧ e.subject = input.subject ∧ e.disposition = .current
  latest : ∀ o ∈ input.evidence, o.requirement = body.reference → o.subject = input.subject →
    o.disposition = .current → o.key ≤ e.key
  proves : Proves body e

structure ApprovedBy (body : RequirementDeclarationBody) (input : AcceptanceInput)
    (r : ReviewDecision) : Prop where
  gate : body.reference.kind = .review
  supplied : r ∈ input.reviews
  exact : r.requirement = body.reference ∧ r.subject = input.subject ∧
    r.submissionId = input.currentSubmissionId
  latest : ∀ o ∈ input.reviews, o.requirement = body.reference → o.subject = input.subject →
    o.submissionId = input.currentSubmissionId → o.key ≤ r.key
  approved : r.outcome = .approved
  independent : Independent body r

structure ExcusedBy (body : RequirementDeclarationBody) (input : AcceptanceInput)
    (x : ForceException) : Prop where
  supplied : x ∈ input.exceptions
  inScope : x.requirement = body.reference ∧ x.subject = input.subject
  valid : x.Valid input
  failure : Exceptionable body input

inductive Justified (body : RequirementDeclarationBody) (input : AcceptanceInput) :
    EffectiveRequirementState → Prop
  | evidence {e : EvidenceObservation} : ProvenBy body input e → Justified body input .satisfied
  | review {r : ReviewDecision} : ApprovedBy body input r → Justified body input .satisfied
  | exception {x : ForceException} :
      ExcusedBy body input x → Justified body input (.satisfiedByException x.id)

variable {body : RequirementDeclarationBody} {input : AcceptanceInput}

theorem LatestEvidence.provenBy {e : EvidenceObservation} (gate : body.reference.kind ≠ .review)
    (latest : LatestEvidence body input e) (proves : Proves body e) : ProvenBy body input e := by
  obtain ⟨supplied, exact⟩ := mem_exactEvidence.mp latest.mem
  refine ⟨gate, supplied, exact, ?_, proves⟩
  intro o member requirement subject current
  exact latest.le o (mem_exactEvidence.mpr ⟨member, requirement, subject, current⟩)

theorem LatestReview.approvedBy {r : ReviewDecision} (gate : body.reference.kind = .review)
    (latest : LatestReview body input r) (independent : Independent body r)
    (approved : r.outcome = .approved) : ApprovedBy body input r := by
  obtain ⟨supplied, exact⟩ := mem_exactReviews.mp latest.mem
  refine ⟨gate, supplied, exact, ?_, approved, independent⟩
  intro o member requirement subject submission
  exact latest.le o (mem_exactReviews.mpr ⟨member, requirement, subject, submission⟩)

theorem Proved.justified (proved : Proved body input) : Justified body input .satisfied := by
  obtain ⟨_, state⟩ := proved
  by_cases gate : body.reference.kind = .review
  · rw [if_pos gate] at state
    obtain ⟨r, latest, independent, approved⟩ := state
    exact .review (latest.approvedBy gate independent approved)
  · rw [if_neg gate] at state
    obtain ⟨e, latest, proves⟩ := state
    exact .evidence (latest.provenBy gate proves)

theorem Excused.excusedBy {x : ForceException} (excused : Excused body input x) :
    ExcusedBy body input x := by
  obtain ⟨failure, chosen, valid⟩ := excused
  obtain ⟨supplied, inScope⟩ := mem_scopedExceptions.mp chosen.mem
  exact ⟨supplied, inScope, valid, failure⟩

theorem Met.justified (met : Met body input) (required : body.required = true) :
    Justified body input (assessDeclaration input (.present body)).1.effective ∧
      ((assessDeclaration input (.present body)).1.raw.isUnsatisfied = false ∨
        exceptionAppliesToRaw (assessDeclaration input (.present body)).1.raw = true) := by
  rw [assessDeclaration_present]
  rcases effectiveState_cases input required with
    ⟨proved, effective⟩ | ⟨x, excused, effective⟩ | ⟨unproved, unexcused, _⟩
  · rw [effective]
    exact ⟨proved.justified, .inl (interpretDeclaration_proved.mpr proved)⟩
  · rw [effective]
    exact ⟨.exception excused.excusedBy, .inr (interpretDeclaration_excepted.mpr excused.1)⟩
  · exact (met.elim unproved unexcused).elim

/-- A subject is reported ready for closeout only on a well posed input, each required item of
which is declared for exactly this subject and justified; a raw state other than a proof or an
exceptionable failure never comes through. -/
theorem closeoutReady_sound (input : AcceptanceInput)
    (ready : (interpretAcceptance input).closeoutReady = true) :
    WellPosed input ∧ ∀ a ∈ (interpretAcceptance input).requirements, a.required = true →
      ∃ body, .present body ∈ input.declarations ∧ body.reference = a.reference ∧
        body.subject = input.subject ∧ Justified body input a.effective ∧
        (a.raw.isUnsatisfied = false ∨ exceptionAppliesToRaw a.raw = true) := by
  obtain ⟨posed, met⟩ := (closeoutReady_iff input).mp ready
  refine ⟨posed, fun a member required => ?_⟩
  obtain ⟨d, declared, rfl⟩ := mem_requirements.mp member
  obtain ⟨body, rfl, stands⟩ := posed.present d declared
  exact ⟨body, declared, rfl, stands.addressed.1, (met body declared required).justified required⟩

theorem closeoutReady_sound_readyInput : WellPosed Fixture.readyInput :=
  (closeoutReady_sound Fixture.readyInput (by decide)).1

end Soundness

section Exceptions

variable {body : RequirementDeclarationBody} {input : AcceptanceInput}

def ValidExceptionsApply (input : AcceptanceInput) : Prop :=
  ∀ a ∈ (interpretAcceptance input).requirements, a.required = true →
    exceptionAppliesToRaw a.raw = true →
    (∃ x ∈ input.exceptions, x.requirement = a.reference ∧ x.subject = input.subject ∧
      x.Valid input) →
    ∃ id, a.effective = .satisfiedByException id

theorem present_of_excepted {d : RequirementDeclaration}
    (applies : exceptionAppliesToRaw (assessDeclaration input d).1.raw = true) :
    ∃ body, d = .present body ∧ Exceptionable body input := by
  cases d with
  | present body => exact ⟨body, rfl, interpretDeclaration_excepted.mp applies⟩
  | deleted expected => cases applies
  | mismatched expected observed => cases applies

theorem satisfiedByException_iff (required : body.required = true) (failure : Exceptionable body input) :
    (∃ id, (assessDeclaration input (.present body)).1.effective = .satisfiedByException id) ↔
      ∃ x, ChosenException body input x ∧ x.Valid input := by
  rw [assessDeclaration_present]
  rcases effectiveState_cases input required with
    ⟨proved, _⟩ | ⟨x, excused, effective⟩ | ⟨_, unexcused, effective⟩
  · exact absurd proved failure.not_proved
  · rw [effective]
    exact iff_of_true ⟨x.id, rfl⟩ ⟨x, excused.2⟩
  · rw [effective]
    refine iff_of_false (fun ⟨id, state⟩ => (by cases state)) ?_
    rintro ⟨x, chosen⟩
    exact unexcused ⟨x, failure, chosen⟩

/-- The exception is selected by its id before its validity is looked at: the valid ones apply
exactly where the greatest id among the exceptions in scope is a valid one's. -/
theorem validExceptionsApply_iff (input : AcceptanceInput) :
    ValidExceptionsApply input ↔
      ∀ body, .present body ∈ input.declarations → body.required = true → Exceptionable body input →
        (∃ x ∈ scopedExceptions body input, x.Valid input) →
        ∀ x, ChosenException body input x → x.Valid input := by
  constructor
  · intro applied body declared required failure covered x chosen
    obtain ⟨y, inScope, valid⟩ := covered
    obtain ⟨supplied, requirement, subject⟩ := mem_scopedExceptions.mp inScope
    have satisfied := applied (assessDeclaration input (.present body)).1
      (mem_requirements.mpr ⟨_, declared, rfl⟩) required
      (interpretDeclaration_excepted.mpr failure) ⟨y, supplied, requirement, subject, valid⟩
    obtain ⟨z, chosen', valid'⟩ := (satisfiedByException_iff required failure).mp satisfied
    rwa [chosen.unique chosen']
  · intro valid a member required applies covered
    obtain ⟨d, declared, rfl⟩ := mem_requirements.mp member
    obtain ⟨body, rfl, failure⟩ := present_of_excepted applies
    obtain ⟨y, supplied, requirement, subject, valid'⟩ := covered
    have inScope : y ∈ scopedExceptions body input :=
      mem_scopedExceptions.mpr ⟨supplied, requirement, subject⟩
    obtain ⟨x, chosen⟩ := exists_lastGreatest ForceException.id (List.ne_nil_of_mem inScope)
    exact (satisfiedByException_iff required failure).mpr
      ⟨x, chosen, valid body declared required failure ⟨y, inScope, valid'⟩ x chosen⟩

theorem not_validExceptionsApply_revoked : ¬ ValidExceptionsApply Fixture.shadowedInput := by
  intro applied
  obtain ⟨id, effective⟩ := applied
    (assessDeclaration Fixture.shadowedInput (.present (Fixture.declaration Fixture.checkpoint))).1
    (mem_requirements.mpr ⟨_, List.mem_singleton.mpr rfl, rfl⟩) rfl (by decide)
    ⟨Fixture.exception Fixture.checkpoint "EX-17" false, List.mem_cons_self, rfl, rfl,
      ⟨rfl, by decide, rfl, fun expiry given => (by cases given)⟩⟩
  have unsatisfied : (assessDeclaration Fixture.shadowedInput
      (.present (Fixture.declaration Fixture.checkpoint))).1.effective = .unsatisfied := by
    decide
  rw [unsatisfied] at effective
  cases effective

end Exceptions

end Boreal.Acceptance
