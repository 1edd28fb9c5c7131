/- What decides the state of one requirement: the latest exact observation or review, or, where the
raw state allows it, the operator exception with the greatest id. -/
import BorealWork.Acceptance

namespace Boreal.Acceptance
open Sorting

section Candidates

variable {body : RequirementDeclarationBody} {input : AcceptanceInput}

def exactFor (body : RequirementDeclarationBody) (subject : AcceptanceSubject)
    (e : EvidenceObservation) : Bool :=
  e.requirement = body.reference && e.subject = subject && e.disposition = .current

def staleFor (body : RequirementDeclarationBody) (subject : AcceptanceSubject)
    (e : EvidenceObservation) : Bool :=
  e.requirement = body.reference && e.subject ≠ subject && e.subject.sameWorkAndAttempt subject

def exactReviewFor (body : RequirementDeclarationBody) (subject : AcceptanceSubject)
    (submission : SubmissionId) (r : ReviewDecision) : Bool :=
  r.requirement = body.reference && r.subject = subject && r.submissionId = submission

theorem exactEvidence_eq (body : RequirementDeclarationBody) (input : AcceptanceInput) :
    exactEvidence body input = input.evidence.filter (exactFor body input.subject) := by
  simp only [exactEvidence, matchingEvidence, candidateEvidence, List.filter_filter]
  apply List.filter_congr
  intro e _
  by_cases same : e.requirement = body.reference
  · simp [exactFor, same]
  · simp [exactFor, same]

theorem staleEvidence_eq (body : RequirementDeclarationBody) (input : AcceptanceInput) :
    staleEvidence body input = input.evidence.filter (staleFor body input.subject) := by
  simp only [staleEvidence, matchingEvidence, candidateEvidence, List.filter_filter]
  apply List.filter_congr
  intro e _
  by_cases same : e.requirement = body.reference
  · simp [staleFor, same]
  · simp [staleFor, same]

theorem exactReviews_eq (body : RequirementDeclarationBody) (input : AcceptanceInput) :
    exactReviews body input =
      input.reviews.filter (exactReviewFor body input.subject input.currentSubmissionId) := by
  simp only [exactReviews, matchingReviews, List.filter_filter]
  apply List.filter_congr
  intro r _
  by_cases same : r.requirement = body.reference
  · simp [exactReviewFor, same]
  · simp [exactReviewFor, same]

theorem mem_exactEvidence {e : EvidenceObservation} : e ∈ exactEvidence body input ↔
    e ∈ input.evidence ∧ e.requirement = body.reference ∧ e.subject = input.subject ∧
      e.disposition = .current := by
  simp only [exactEvidence_eq, exactFor, List.mem_filter, Bool.and_eq_true, decide_eq_true_eq, and_assoc]

theorem mem_mismatchedEvidence {e : EvidenceObservation} : e ∈ mismatchedEvidence body input ↔
    e ∈ input.evidence ∧ e.requirement.id = body.reference.id ∧
      e.requirement ≠ body.reference := by
  simp only [mismatchedEvidence, candidateEvidence, List.mem_filter, decide_eq_true_eq, and_assoc]

theorem mem_exactReviews {r : ReviewDecision} : r ∈ exactReviews body input ↔
    r ∈ input.reviews ∧ r.requirement = body.reference ∧ r.subject = input.subject ∧
      r.submissionId = input.currentSubmissionId := by
  simp only [exactReviews_eq, exactReviewFor, List.mem_filter, Bool.and_eq_true, decide_eq_true_eq,
    and_assoc]

theorem mem_scopedExceptions {x : ForceException} : x ∈ scopedExceptions body input ↔
    x ∈ input.exceptions ∧ x.requirement = body.reference ∧ x.subject = input.subject := by
  simp only [scopedExceptions, List.mem_filter, decide_eq_true_eq, Bool.and_eq_true]

end Candidates

section Judgement

variable (body : RequirementDeclarationBody) (input : AcceptanceInput)

/-- The declaration is about the assessed subject and its purpose fits the subject's context. -/
def Addressed : Prop :=
  body.subject = input.subject ∧ purposeMatchesSubject body.purpose body.subject = true

def Proves (e : EvidenceObservation) : Prop :=
  e.result = .passed ∧ body.requiredObservables ⊆ e.observables ∧ e.artifactDigest.isSome = true ∧
    (body.reference.kind = .verification → e.attested = true)

def Independent (r : ReviewDecision) : Prop :=
  r.reviewerId ≠ r.attemptActorId ∧ reviewIsAuthorized r body.reviewPolicy = true

abbrev LatestEvidence (e : EvidenceObservation) : Prop :=
  LastGreatest EvidenceObservation.key (exactEvidence body input) e

abbrev LatestReview (r : ReviewDecision) : Prop :=
  LastGreatest ReviewDecision.key (exactReviews body input) r

def EvidenceProves : Prop := ∃ e, LatestEvidence body input e ∧ Proves body e

/-- The latest exact observation does not prove the requirement, or only older work was seen. -/
def EvidenceFails : Prop :=
  (∃ e, LatestEvidence body input e ∧ ¬ Proves body e) ∨
    (exactEvidence body input = [] ∧ staleEvidence body input ≠ [])

def ReviewApproves : Prop :=
  ∃ r, LatestReview body input r ∧ Independent body r ∧ r.outcome = .approved

def ReviewRefuses : Prop :=
  ∃ r, LatestReview body input r ∧ Independent body r ∧
    (r.outcome = .rejected ∨ r.outcome = .returned ∨ r.outcome = .revoked)

def Proved : Prop :=
  Addressed body input ∧
    if body.reference.kind = .review then ReviewApproves body input else EvidenceProves body input

/-- The failures that an operator exception may answer for. -/
def Exceptionable : Prop :=
  Addressed body input ∧
    if body.reference.kind = .review then ReviewRefuses body input else EvidenceFails body input

end Judgement

structure ForceException.Valid (x : ForceException) (input : AcceptanceInput) : Prop where
  operator : x.actorRole = .operator
  commented : isBlank x.comment = false
  unrevoked : x.revoked = false
  unexpired : ∀ expiry ∈ x.expiresAt, input.evaluatedAt < expiry

section RawStates

variable {body : RequirementDeclarationBody} {input : AcceptanceInput}

theorem unsatisfied_of_excepted {raw : RawRequirementState}
    (applies : exceptionAppliesToRaw raw = true) : raw.isUnsatisfied = true := by
  cases raw with
  | review state => cases state with
    | approved id => cases applies
    | _ => rfl
  | passed id => cases applies
  | _ => rfl

theorem provesRequirement_iff {e : EvidenceObservation} (passed : e.result = .passed) :
    provesRequirement body e = true ↔ Proves body e := by
  simp only [provesRequirement, Proves, passed, true_and, Bool.and_eq_true, Bool.or_eq_true,
    decide_eq_true_eq, and_assoc, ne_eq, imp_iff_not_or]

theorem exactState_proved (e : EvidenceObservation) :
    (exactState body e).isUnsatisfied = false ↔ Proves body e := by
  rw [exactState]
  cases passed : e.result with
  | passed =>
    rw [← provesRequirement_iff passed]
    cases provesRequirement body e <;> simp [RawRequirementState.isUnsatisfied]
  | _ => simp [Proves, passed, RawRequirementState.isUnsatisfied]

theorem exactState_excepted (e : EvidenceObservation) :
    exceptionAppliesToRaw (exactState body e) = true ↔ ¬ Proves body e := by
  rw [exactState]
  cases passed : e.result with
  | passed =>
    rw [← provesRequirement_iff passed]
    cases provesRequirement body e <;> simp [exceptionAppliesToRaw]
  | _ => simp [Proves, passed, exceptionAppliesToRaw]

theorem interpretEvidence_cases (body : RequirementDeclarationBody) (input : AcceptanceInput) :
    (∃ e, LatestEvidence body input e ∧ (interpretEvidence body input).1 = exactState body e) ∨
    (exactEvidence body input = [] ∧ staleEvidence body input ≠ [] ∧
      ∃ id reason, (interpretEvidence body input).1 = .stale id reason) ∨
    (exactEvidence body input = [] ∧ staleEvidence body input = [] ∧
      (interpretEvidence body input).1.isUnsatisfied = true ∧
      exceptionAppliesToRaw (interpretEvidence body input).1 = false) := by
  simp only [interpretEvidence, getLast?_sortOn]
  cases exact : maxBy EvidenceObservation.key (exactEvidence body input) with
  | some e => exact .inl ⟨e, maxBy_spec exact, rfl⟩
  | none =>
    right
    cases older : maxBy EvidenceObservation.key (staleEvidence body input) with
    | some e =>
      refine .inl ⟨maxBy_eq_none.mp exact, ?_, e.id, staleReason input e, rfl⟩
      exact (maxBy_spec older).ne_nil
    | none =>
      refine .inr ⟨maxBy_eq_none.mp exact, maxBy_eq_none.mp older, ?_⟩
      cases maxBy EvidenceObservation.key (irrelevantEvidence body input) with
      | some e => exact ⟨rfl, rfl⟩
      | none =>
        simp only
        split
        · exact ⟨rfl, rfl⟩
        · exact ⟨rfl, rfl⟩

theorem interpretEvidence_proved :
    (interpretEvidence body input).1.isUnsatisfied = false ↔ EvidenceProves body input := by
  rw [EvidenceProves]
  rcases interpretEvidence_cases body input with
    ⟨e, latest, state⟩ | ⟨none, _, id, reason, state⟩ | ⟨none, _, unsatisfied, _⟩
  · rw [state, exactState_proved, latest.exists_iff]
  · rw [state]
    exact iff_of_false (by simp [RawRequirementState.isUnsatisfied]) (not_exists_lastGreatest none)
  · exact iff_of_false (by simp [unsatisfied]) (not_exists_lastGreatest none)

theorem interpretEvidence_excepted :
    exceptionAppliesToRaw (interpretEvidence body input).1 = true ↔ EvidenceFails body input := by
  rw [EvidenceFails]
  rcases interpretEvidence_cases body input with
    ⟨e, latest, state⟩ | ⟨none, some, id, reason, state⟩ | ⟨none, nothing, _, applies⟩
  · rw [state, exactState_excepted, latest.exists_iff]
    exact (or_iff_left fun older => latest.ne_nil older.1).symm
  · rw [state]
    exact iff_of_true rfl (.inr ⟨none, some⟩)
  · refine iff_of_false (by simp [applies]) (not_or.mpr ⟨not_exists_lastGreatest none, ?_⟩)
    exact fun older => older.2 nothing

theorem reviewState_approved (r : ReviewDecision) :
    (RawRequirementState.review (reviewState body r).1).isUnsatisfied = false ↔
      Independent body r ∧ r.outcome = .approved := by
  rw [reviewState]
  by_cases self : r.reviewerId = r.attemptActorId
  · simp [self, Independent, RawRequirementState.isUnsatisfied]
  · by_cases authorized : reviewIsAuthorized r body.reviewPolicy = true
    · cases outcome : r.outcome <;>
        simp [self, authorized, Independent, RawRequirementState.isUnsatisfied]
    · simp [self, authorized, Independent, RawRequirementState.isUnsatisfied]

theorem reviewState_refused (r : ReviewDecision) :
    exceptionAppliesToRaw (.review (reviewState body r).1) = true ↔ Independent body r ∧
      (r.outcome = .rejected ∨ r.outcome = .returned ∨ r.outcome = .revoked) := by
  rw [reviewState]
  by_cases self : r.reviewerId = r.attemptActorId
  · simp [self, Independent, exceptionAppliesToRaw]
  · by_cases authorized : reviewIsAuthorized r body.reviewPolicy = true
    · cases outcome : r.outcome <;> simp [self, authorized, Independent, exceptionAppliesToRaw]
    · simp [self, authorized, Independent, exceptionAppliesToRaw]

theorem interpretReview_cases (body : RequirementDeclarationBody) (input : AcceptanceInput) :
    (∃ r, LatestReview body input r ∧
      (interpretReview body input).1 = .review (reviewState body r).1) ∨
    (exactReviews body input = [] ∧ (interpretReview body input).1.isUnsatisfied = true ∧
      exceptionAppliesToRaw (interpretReview body input).1 = false) := by
  simp only [interpretReview, getLast?_sortOn]
  cases exact : maxBy ReviewDecision.key (exactReviews body input) with
  | some r => exact .inl ⟨r, maxBy_spec exact, rfl⟩
  | none =>
    refine .inr ⟨maxBy_eq_none.mp exact, ?_⟩
    cases (irrelevantReviews body input).getLast? with
    | some r => exact ⟨rfl, rfl⟩
    | none => exact ⟨rfl, rfl⟩

theorem interpretReview_proved :
    (interpretReview body input).1.isUnsatisfied = false ↔ ReviewApproves body input := by
  rw [ReviewApproves]
  rcases interpretReview_cases body input with ⟨r, latest, state⟩ | ⟨none, unsatisfied, _⟩
  · rw [state, reviewState_approved, latest.exists_iff]
  · exact iff_of_false (by simp [unsatisfied]) (not_exists_lastGreatest none)

theorem interpretReview_excepted :
    exceptionAppliesToRaw (interpretReview body input).1 = true ↔ ReviewRefuses body input := by
  rw [ReviewRefuses]
  rcases interpretReview_cases body input with ⟨r, latest, state⟩ | ⟨none, _, applies⟩
  · rw [state, reviewState_refused, latest.exists_iff]
  · exact iff_of_false (by simp [applies]) (not_exists_lastGreatest none)

theorem interpretDeclaration_unaddressed (elsewhere : ¬ Addressed body input) :
    interpretDeclaration body input = (.declaration .wrongSubject, []) := by
  rw [interpretDeclaration, if_pos]
  by_cases subject : body.subject = input.subject
  · right
    exact Bool.eq_false_iff.mpr fun matched => elsewhere ⟨subject, matched⟩
  · exact .inl subject

theorem interpretDeclaration_addressed (here : Addressed body input) :
    interpretDeclaration body input =
      if body.reference.kind = .review then interpretReview body input
      else interpretEvidence body input := by
  rw [interpretDeclaration, if_neg]
  rintro (subject | purpose)
  · exact subject here.1
  · rw [here.2] at purpose
    cases purpose

theorem interpretDeclaration_proved :
    (interpretDeclaration body input).1.isUnsatisfied = false ↔ Proved body input := by
  by_cases here : Addressed body input
  · rw [interpretDeclaration_addressed here, Proved]
    split
    · rw [interpretReview_proved, and_iff_right here]
    · rw [interpretEvidence_proved, and_iff_right here]
  · rw [interpretDeclaration_unaddressed here]
    exact iff_of_false (by simp [RawRequirementState.isUnsatisfied]) fun proved => here proved.1

theorem interpretDeclaration_excepted :
    exceptionAppliesToRaw (interpretDeclaration body input).1 = true ↔
      Exceptionable body input := by
  by_cases here : Addressed body input
  · rw [interpretDeclaration_addressed here, Exceptionable]
    split
    · rw [interpretReview_excepted, and_iff_right here]
    · rw [interpretEvidence_excepted, and_iff_right here]
  · rw [interpretDeclaration_unaddressed here]
    exact iff_of_false (by simp [exceptionAppliesToRaw]) fun failed => here failed.1

theorem Exceptionable.not_proved (failed : Exceptionable body input) : ¬ Proved body input := by
  rw [← interpretDeclaration_excepted] at failed
  rw [← interpretDeclaration_proved, unsatisfied_of_excepted failed]
  exact Bool.noConfusion

end RawStates

section EffectiveStates

variable {body : RequirementDeclarationBody} {input : AcceptanceInput}

theorem getD_findSome? {α β : Type} {f : α → Option β} {l : List α} {b : β}
    (same : ∀ a ∈ l, ∀ found, f a = some found → found = b) : b = (l.findSome? f).getD b := by
  cases first : l.findSome? f with
  | none => rfl
  | some found =>
    obtain ⟨a, member, value⟩ := List.exists_of_findSome?_eq_some first
    exact (same a member found value).symm

theorem exceptionIsValid_iff {x : ForceException} :
    exceptionIsValid input x = true ↔ x.Valid input ∧ x.subject = input.subject := by
  simp only [exceptionIsValid, Bool.and_eq_true, decide_eq_true_eq, Bool.not_eq_true']
  constructor
  · rintro ⟨⟨⟨⟨⟨operator, commented⟩, unrevoked⟩, unexpired⟩, _⟩, subject⟩
    refine ⟨⟨operator, commented, unrevoked, ?_⟩, subject⟩
    intro expiry given
    rw [Option.mem_def] at given
    simpa [given] using unexpired
  · rintro ⟨valid, subject⟩
    refine ⟨⟨⟨⟨⟨valid.operator, valid.commented⟩, valid.unrevoked⟩, ?_⟩, ?_⟩, subject⟩
    · cases given : x.expiresAt with
      | none => rfl
      | some expiry => simpa using valid.unexpired expiry given
    · refine getD_findSome? fun d _ reference same => ?_
      cases d with
      | present body =>
        simp only [Option.ite_none_right_eq_some, Option.some.injEq] at same
        exact same.2.symm.trans same.1
      | deleted expected => cases same
      | mismatched expected observed => cases same

abbrev ChosenException (body : RequirementDeclarationBody) (input : AcceptanceInput)
    (x : ForceException) : Prop :=
  LastGreatest ForceException.id (scopedExceptions body input) x

/-- A failure is answered for by the chosen exception, and only by that one. -/
def Excused (body : RequirementDeclarationBody) (input : AcceptanceInput) (x : ForceException) :
    Prop :=
  Exceptionable body input ∧ ChosenException body input x ∧ x.Valid input

theorem effectiveState_cases (input : AcceptanceInput) (required : body.required = true) :
    (Proved body input ∧
      effectiveState body input (interpretDeclaration body input).1 = (.satisfied, none)) ∨
    (∃ x, Excused body input x ∧ effectiveState body input (interpretDeclaration body input).1 =
      (.satisfiedByException x.id, some x.id)) ∨
    (¬ Proved body input ∧ (¬ ∃ x, Excused body input x) ∧
      effectiveState body input (interpretDeclaration body input).1 = (.unsatisfied, none)) := by
  simp only [effectiveState, required, Bool.not_true, Bool.false_eq_true, if_false, chosenException]
  by_cases proved : Proved body input
  · have satisfied := interpretDeclaration_proved.mpr proved
    left
    refine ⟨proved, ?_⟩
    cases maxBy ForceException.id (scopedExceptions body input) with
    | none => simp [satisfied]
    | some x => simp [satisfied]
  · have unsatisfied : (interpretDeclaration body input).1.isUnsatisfied = true := by
      rw [← Bool.not_eq_false, interpretDeclaration_proved]
      exact proved
    right
    simp only [unsatisfied, Bool.true_and, if_true]
    cases chosen : maxBy ForceException.id (scopedExceptions body input) with
    | none =>
      refine .inr ⟨proved, ?_, rfl⟩
      rintro ⟨x, _, greatest, _⟩
      exact greatest.ne_nil (maxBy_eq_none.mp chosen)
    | some x =>
      have greatest := maxBy_spec chosen
      have applies : (exceptionIsValid input x &&
          exceptionAppliesToRaw (interpretDeclaration body input).1) = true ↔
            x.Valid input ∧ Exceptionable body input := by
        rw [Bool.and_eq_true, exceptionIsValid_iff, interpretDeclaration_excepted,
          and_iff_left (mem_scopedExceptions.mp greatest.mem).2.2]
      simp only
      by_cases excused : x.Valid input ∧ Exceptionable body input
      · rw [if_pos (applies.mpr excused)]
        exact .inl ⟨x, ⟨excused.2, greatest, excused.1⟩, rfl⟩
      · rw [if_neg (mt applies.mp excused)]
        refine .inr ⟨proved, ?_, rfl⟩
        rintro ⟨y, failed, greatest', valid⟩
        rw [greatest'.unique greatest] at valid
        exact excused ⟨valid, failed⟩

end EffectiveStates

end Boreal.Acceptance
