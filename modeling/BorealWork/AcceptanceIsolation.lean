/- Inputs that are judged alike: a foreign observation beside the subject's own, and the same items
in another order. -/
import BorealWork.AcceptanceReadiness

namespace Boreal.Acceptance
open Sorting

/-- For every declaration the two inputs offer the same latest items, exception and instant. -/
structure JudgedAlike (input input' : AcceptanceInput) : Prop where
  subject : input.subject = input'.subject
  evaluatedAt : input.evaluatedAt = input'.evaluatedAt
  evidence : ∀ body, maxBy EvidenceObservation.key (exactEvidence body input) =
    maxBy EvidenceObservation.key (exactEvidence body input')
  stale : ∀ body, staleEvidence body input = [] ↔ staleEvidence body input' = []
  reviews : ∀ body, maxBy ReviewDecision.key (exactReviews body input) =
    maxBy ReviewDecision.key (exactReviews body input')
  exceptions : ∀ body, chosenException body input = chosenException body input'

namespace JudgedAlike

variable {input input' : AcceptanceInput} (alike : JudgedAlike input input')
  (body : RequirementDeclarationBody)
include alike

theorem symm : JudgedAlike input' input where
  subject := alike.subject.symm
  evaluatedAt := alike.evaluatedAt.symm
  evidence body := (alike.evidence body).symm
  stale body := (alike.stale body).symm
  reviews body := (alike.reviews body).symm
  exceptions body := (alike.exceptions body).symm

theorem addressed : Addressed body input ↔ Addressed body input' := by
  rw [Addressed, Addressed, alike.subject]

theorem latestEvidence (e : EvidenceObservation) :
    LatestEvidence body input e ↔ LatestEvidence body input' e := by
  rw [LatestEvidence, LatestEvidence, ← maxBy_eq_some, ← maxBy_eq_some, alike.evidence]

theorem latestReview (r : ReviewDecision) : LatestReview body input r ↔ LatestReview body input' r := by
  rw [LatestReview, LatestReview, ← maxBy_eq_some, ← maxBy_eq_some, alike.reviews]

theorem noneExact : exactEvidence body input = [] ↔ exactEvidence body input' = [] := by
  rw [← @maxBy_eq_none _ _ _ EvidenceObservation.key, alike.evidence, maxBy_eq_none]

theorem proved : Proved body input ↔ Proved body input' := by
  simp only [Proved, ReviewApproves, EvidenceProves, alike.addressed, alike.latestEvidence,
    alike.latestReview]

theorem exceptionable : Exceptionable body input ↔ Exceptionable body input' := by
  simp only [Exceptionable, ReviewRefuses, EvidenceFails, alike.addressed, alike.latestEvidence,
    alike.latestReview, alike.noneExact, ne_eq, alike.stale]

theorem valid (x : ForceException) : x.Valid input ↔ x.Valid input' :=
  ⟨fun h => { h with unexpired := alike.evaluatedAt ▸ h.unexpired },
    fun h => { h with unexpired := alike.evaluatedAt ▸ h.unexpired }⟩

theorem excused (x : ForceException) : Excused body input x ↔ Excused body input' x := by
  have chosen := alike.exceptions body
  rw [Excused, Excused, alike.exceptionable, alike.valid, ChosenException, ChosenException,
    ← maxBy_eq_some, ← maxBy_eq_some]
  rw [chosenException, chosenException] at chosen
  rw [chosen]

theorem met : Met body input ↔ Met body input' := by
  simp only [Met, alike.proved, alike.excused]

theorem effective (d : RequirementDeclaration) :
    (assessDeclaration input d).1.effective = (assessDeclaration input' d).1.effective := by
  cases d with
  | present body =>
    have unsatisfied : (interpretDeclaration body input).1.isUnsatisfied =
        (interpretDeclaration body input').1.isUnsatisfied := by
      rw [← Bool.not_inj_iff, Bool.eq_iff_iff, Bool.not_eq_true', Bool.not_eq_true',
        interpretDeclaration_proved, interpretDeclaration_proved, alike.proved]
    have applies : exceptionAppliesToRaw (interpretDeclaration body input).1 =
        exceptionAppliesToRaw (interpretDeclaration body input').1 := by
      rw [Bool.eq_iff_iff, interpretDeclaration_excepted, interpretDeclaration_excepted,
        alike.exceptionable]
    have valid (x : ForceException) : exceptionIsValid input x = exceptionIsValid input' x := by
      rw [Bool.eq_iff_iff, exceptionIsValid_iff, exceptionIsValid_iff, alike.valid, alike.subject]
    simp only [assessDeclaration_present, effectiveState, alike.exceptions, unsatisfied, applies, valid]
  | deleted expected => rfl
  | mismatched expected observed => rfl

end JudgedAlike

structure SameOutcome (input input' : AcceptanceInput) : Prop where
  effective : (interpretAcceptance input).requirements.map (fun a => (a.reference, a.effective)) =
    (interpretAcceptance input').requirements.map fun a => (a.reference, a.effective)
  requiredSatisfied : (interpretAcceptance input).requiredSatisfied =
    (interpretAcceptance input').requiredSatisfied
  closeoutReady : (interpretAcceptance input).closeoutReady =
    (interpretAcceptance input').closeoutReady

theorem requiredSatisfied_congr {input input' : AcceptanceInput} :
    (interpretAcceptance input).requiredSatisfied = (interpretAcceptance input').requiredSatisfied ↔
      (Ready input ↔ Ready input') := by
  rw [Bool.eq_iff_iff, requiredSatisfied_iff, requiredSatisfied_iff]

theorem assessDeclaration_reference (input : AcceptanceInput) (d : RequirementDeclaration) :
    (assessDeclaration input d).1.reference = d.reference := by
  cases d <;> rfl

theorem effective_list (input : AcceptanceInput) :
    (interpretAcceptance input).requirements.map (fun a => (a.reference, a.effective)) =
      input.declarations.map fun d => (d.reference, (assessDeclaration input d).1.effective) := by
  simp only [interpretAcceptance, List.map_map]
  exact List.map_congr_left fun d _ =>
    Prod.ext (assessDeclaration_reference input d) rfl

section Foreign

variable {input : AcceptanceInput} {front back : List EvidenceObservation} {e : EvidenceObservation}

def AcceptanceInput.withEvidence (input : AcceptanceInput) (evidence : List EvidenceObservation) :
    AcceptanceInput := { input with evidence }

def Foreign (input : AcceptanceInput) (e : EvidenceObservation) : Prop :=
  e.subject.projectId ≠ input.subject.projectId ∨ e.subject.workId ≠ input.subject.workId

theorem Foreign.subject_ne (foreign : Foreign input e) : e.subject ≠ input.subject := by
  intro same
  rw [Foreign, same] at foreign
  exact foreign.elim (· rfl) (· rfl)

theorem Foreign.not_sameWork (foreign : Foreign input e) :
    e.subject.sameWorkAndAttempt input.subject = false := by
  rcases foreign with project | work
  · simp [AcceptanceSubject.sameWorkAndAttempt, project]
  · simp [AcceptanceSubject.sameWorkAndAttempt, work]

theorem filter_insert {p : EvidenceObservation → Bool} (out : p e = false) :
    (front ++ e :: back).filter p = (front ++ back).filter p := by
  rw [List.filter_append, List.filter_append, List.filter_cons_of_neg (Bool.eq_false_iff.mp out)]

theorem Foreign.judgedAlike (foreign : Foreign input e) (split : input.evidence = front ++ back) :
    JudgedAlike input (input.withEvidence (front ++ e :: back)) := by
  refine ⟨rfl, rfl, fun body => ?_, fun body => ?_, fun body => rfl, fun body => rfl⟩
  · have out : exactFor body input.subject e = false := by simp [exactFor, foreign.subject_ne]
    rw [exactEvidence_eq, exactEvidence_eq, AcceptanceInput.withEvidence, filter_insert out, split]
  · have out : staleFor body input.subject e = false := by simp [staleFor, foreign.not_sameWork]
    rw [staleEvidence_eq, staleEvidence_eq, AcceptanceInput.withEvidence, filter_insert out, split]

def Matched (input : AcceptanceInput) (e : EvidenceObservation) : Prop :=
  ∀ body, .present body ∈ input.declarations → e.requirement.id = body.reference.id →
    e.requirement = body.reference

theorem Foreign.wellPosed_iff (foreign : Foreign input e) (split : input.evidence = front ++ back)
    (fresh : e.id ∉ input.evidence.map EvidenceObservation.id) :
    WellPosed (input.withEvidence (front ++ e :: back)) ↔ WellPosed input ∧ Matched input e := by
  have inserted : (front ++ e :: back).Perm (e :: input.evidence) := by
    rw [split]
    exact List.perm_middle
  constructor
  · intro posed
    have unique := (inserted.map EvidenceObservation.id).nodup posed.evidenceUnique
    have present (d : RequirementDeclaration) (member : d ∈ input.declarations) :
        ∃ body, d = .present body ∧ Stands body input := by
      obtain ⟨body, here, stands⟩ := posed.present d member
      exact ⟨body, here, stands.addressed, stands.reviewed⟩
    refine ⟨⟨posed.declared, present, posed.requirementsUnique, (List.nodup_cons.mp unique).2,
      posed.reviewsUnique, ?_, ?_⟩, ?_⟩
    · exact fun o member => posed.evidenceMatched o (inserted.mem_iff.mpr (.tail _ member))
    · exact fun o member => posed.evidenceDeclared o (inserted.mem_iff.mpr (.tail _ member))
    · exact posed.evidenceMatched e (inserted.mem_iff.mpr (.head _))
  · rintro ⟨posed, matched⟩
    have unique : ((e :: input.evidence).map EvidenceObservation.id).Nodup :=
      List.nodup_cons.mpr ⟨fresh, posed.evidenceUnique⟩
    refine ⟨posed.declared, ?_, posed.requirementsUnique,
      (inserted.symm.map EvidenceObservation.id).nodup unique, posed.reviewsUnique, ?_, ?_⟩
    · intro d member
      obtain ⟨body, here, stands⟩ := posed.present d member
      exact ⟨body, here, stands.addressed, stands.reviewed⟩
    · intro o member
      rcases List.mem_cons.mp (inserted.mem_iff.mp member) with rfl | member
      · exact matched
      · exact posed.evidenceMatched o member
    · intro o member here
      rcases List.mem_cons.mp (inserted.mem_iff.mp member) with rfl | member
      · exact absurd here foreign.subject_ne
      · exact posed.evidenceDeclared o member here

theorem Foreign.ready_iff (foreign : Foreign input e) (split : input.evidence = front ++ back)
    (fresh : e.id ∉ input.evidence.map EvidenceObservation.id) :
    Ready (input.withEvidence (front ++ e :: back)) ↔ Ready input ∧ Matched input e := by
  have alike := foreign.judgedAlike split
  constructor
  · rintro ⟨posed, met⟩
    obtain ⟨posed', matched⟩ := (foreign.wellPosed_iff split fresh).mp posed
    exact ⟨⟨posed', fun body member required => (alike.met body).mpr (met body member required)⟩, matched⟩
  · rintro ⟨⟨posed, met⟩, matched⟩
    exact ⟨(foreign.wellPosed_iff split fresh).mpr ⟨posed, matched⟩,
      fun body member required => (alike.met body).mp (met body member required)⟩

theorem Foreign.effective (foreign : Foreign input e) (split : input.evidence = front ++ back) :
    (interpretAcceptance input).requirements.map (fun a => (a.reference, a.effective)) =
      (interpretAcceptance (input.withEvidence (front ++ e :: back))).requirements.map
        fun a => (a.reference, a.effective) := by
  rw [effective_list, effective_list]
  apply List.map_congr_left
  intro d _
  exact Prod.ext rfl ((foreign.judgedAlike split).effective d)

/-- A foreign observation leaves the outcome of a ready input alone exactly when it agrees with the
declaration under its requirement id; the mismatch is reported without a look at its subject. -/
theorem foreign_sameOutcome_iff (input : AcceptanceInput) (e : EvidenceObservation)
    (front back : List EvidenceObservation) (split : input.evidence = front ++ back)
    (fresh : e.id ∉ input.evidence.map EvidenceObservation.id) (foreign : Foreign input e) :
    SameOutcome input (input.withEvidence (front ++ e :: back)) ↔
      Matched input e ∨ ¬ Ready input := by
  have verdict : (interpretAcceptance input).requiredSatisfied =
      (interpretAcceptance (input.withEvidence (front ++ e :: back))).requiredSatisfied ↔
        Matched input e ∨ ¬ Ready input := by
    rw [requiredSatisfied_congr, foreign.ready_iff split fresh]
    tauto
  constructor
  · intro same
    exact verdict.mp same.requiredSatisfied
  · intro condition
    have satisfied := verdict.mpr condition
    refine ⟨foreign.effective split, satisfied, ?_⟩
    rw [closeoutReady_eq, closeoutReady_eq, satisfied]

def Fixture.stray : EvidenceObservation :=
  let elsewhere : AcceptanceSubject :=
    { taskSubject with proof.entity.workId := ⟨"other-task"⟩ }
  observation elsewhere { verify with gateId := ⟨"other-gate"⟩ } "stray" 99 .passed

theorem foreign_sameOutcome_iff_stray :
    SameOutcome Fixture.readyInput
        (Fixture.readyInput.withEvidence (Fixture.stray :: Fixture.readyInput.evidence)) ↔
      Matched Fixture.readyInput Fixture.stray ∨ ¬ Ready Fixture.readyInput :=
  foreign_sameOutcome_iff Fixture.readyInput Fixture.stray [] Fixture.readyInput.evidence rfl
    (by decide) (.inr (by decide))

theorem not_sameOutcome_stray :
    Fixture.stray.id ∉ Fixture.readyInput.evidence.map EvidenceObservation.id ∧
      Foreign Fixture.readyInput Fixture.stray ∧
      ¬ SameOutcome Fixture.readyInput
        (Fixture.readyInput.withEvidence (Fixture.stray :: Fixture.readyInput.evidence)) := by
  refine ⟨by decide, .inr (by decide), fun same => ?_⟩
  have before : (interpretAcceptance Fixture.readyInput).requiredSatisfied = true := by
    decide
  have after : (interpretAcceptance (Fixture.readyInput.withEvidence
      (Fixture.stray :: Fixture.readyInput.evidence))).requiredSatisfied = false := by
    decide
  rw [same.requiredSatisfied, after] at before
  cases before

end Foreign

section Reordering

variable {input input' : AcceptanceInput}

/-- The same items for the same subject and instant, in another order. -/
structure Reordered (input input' : AcceptanceInput) : Prop where
  subject : input.subject = input'.subject
  currentSubmissionId : input.currentSubmissionId = input'.currentSubmissionId
  evaluatedAt : input.evaluatedAt = input'.evaluatedAt
  declarations : input.declarations.Perm input'.declarations
  evidence : input.evidence.Perm input'.evidence
  reviews : input.reviews.Perm input'.reviews
  exceptions : input.exceptions.Perm input'.exceptions

structure DistinctIds (input : AcceptanceInput) : Prop where
  declarations : (input.declarations.map (·.reference.id)).Nodup
  evidence : (input.evidence.map EvidenceObservation.id).Nodup
  reviews : (input.reviews.map ReviewDecision.id).Nodup
  exceptions : (input.exceptions.map ForceException.id).Nodup

theorem Reordered.symm (h : Reordered input input') : Reordered input' input where
  subject := h.subject.symm
  currentSubmissionId := h.currentSubmissionId.symm
  evaluatedAt := h.evaluatedAt.symm
  declarations := h.declarations.symm
  evidence := h.evidence.symm
  reviews := h.reviews.symm
  exceptions := h.exceptions.symm

theorem Reordered.judgedAlike (h : Reordered input input') (distinct : DistinctIds input) :
    JudgedAlike input input' := by
  refine ⟨h.subject, h.evaluatedAt, fun body => ?_, fun body => ?_, fun body => ?_, fun body => ?_⟩
  · rw [exactEvidence_eq, exactEvidence_eq, ← h.subject]
    refine maxBy_perm (h.evidence.filter _) fun a ha b hb same => ?_
    exact List.inj_on_of_nodup_map distinct.evidence (List.mem_filter.mp ha).1
      (List.mem_filter.mp hb).1 (Prod.mk.inj same).2
  · rw [staleEvidence_eq, staleEvidence_eq, ← h.subject]
    have perm := h.evidence.filter (staleFor body input.subject)
    constructor
    · intro none
      exact List.nil_perm.mp (none ▸ perm)
    · intro none
      exact List.perm_nil.mp (none ▸ perm)
  · rw [exactReviews_eq, exactReviews_eq, ← h.subject, ← h.currentSubmissionId]
    refine maxBy_perm (h.reviews.filter _) fun a ha b hb same => ?_
    exact List.inj_on_of_nodup_map distinct.reviews (List.mem_filter.mp ha).1
      (List.mem_filter.mp hb).1 (Prod.mk.inj same).2
  · rw [chosenException, chosenException, scopedExceptions, scopedExceptions, ← h.subject]
    refine maxBy_perm (h.exceptions.filter _) fun a ha b hb same => ?_
    exact List.inj_on_of_nodup_map distinct.exceptions (List.mem_filter.mp ha).1
      (List.mem_filter.mp hb).1 same

theorem Reordered.wellPosed (h : Reordered input input') (posed : WellPosed input) : WellPosed input' := by
  refine ⟨?_, ?_, (h.declarations.map _).nodup posed.requirementsUnique,
    (h.evidence.map _).nodup posed.evidenceUnique, (h.reviews.map _).nodup posed.reviewsUnique,
    ?_, ?_⟩
  · intro none
    exact posed.declared (List.perm_nil.mp (none ▸ h.declarations))
  · intro d member
    obtain ⟨body, here, stands⟩ := posed.present d (h.declarations.mem_iff.mpr member)
    refine ⟨body, here, ?_, stands.reviewed⟩
    exact ⟨h.subject ▸ stands.addressed.1, stands.addressed.2⟩
  · intro e member body declared
    exact posed.evidenceMatched e (h.evidence.mem_iff.mpr member) body
      (h.declarations.mem_iff.mpr declared)
  · intro e member here
    obtain ⟨d, declared, same⟩ := posed.evidenceDeclared e (h.evidence.mem_iff.mpr member)
      (here.trans h.subject.symm)
    exact ⟨d, h.declarations.mem_iff.mp declared, same⟩

theorem Reordered.ready (h : Reordered input input') (alike : JudgedAlike input input')
    (ready : Ready input) : Ready input' where
  wellPosed := h.wellPosed ready.wellPosed
  met body declared required :=
    (alike.met body).mp (ready.met body (h.declarations.mem_iff.mpr declared) required)

theorem assessment_effective (input : AcceptanceInput) (id : RequirementId) :
    ((interpretAcceptance input).assessment id).map (·.effective) =
      (input.declarations.find? (·.reference.id = id)).map fun d =>
        (assessDeclaration input d).1.effective := by
  simp only [AcceptanceInterpretation.assessment, interpretAcceptance, List.map_map,
    List.find?_map, Option.map_map, Function.comp_def, assessDeclaration_reference]

/-- Reordering the declarations, the evidence, the reviews and the exceptions, all under distinct
ids, keeps the effective state of every requirement and both verdicts. -/
theorem reordered_sameOutcome (input input' : AcceptanceInput) (h : Reordered input input')
    (distinct : DistinctIds input) :
    ((interpretAcceptance input).requirements.map fun a => (a.reference, a.effective)).Perm
        ((interpretAcceptance input').requirements.map fun a => (a.reference, a.effective)) ∧
      (∀ id, ((interpretAcceptance input).assessment id).map (·.effective) =
        ((interpretAcceptance input').assessment id).map (·.effective)) ∧
      (interpretAcceptance input).requiredSatisfied =
        (interpretAcceptance input').requiredSatisfied ∧
      (interpretAcceptance input).closeoutReady = (interpretAcceptance input').closeoutReady := by
  have alike := h.judgedAlike distinct
  have effective (d : RequirementDeclaration) : (assessDeclaration input d).1.effective =
      (assessDeclaration input' d).1.effective := alike.effective d
  have satisfied : (interpretAcceptance input).requiredSatisfied =
      (interpretAcceptance input').requiredSatisfied :=
    requiredSatisfied_congr.mpr ⟨h.ready alike, h.symm.ready alike.symm⟩
  refine ⟨?_, fun id => ?_, satisfied, ?_⟩
  · rw [effective_list, effective_list]
    simp only [effective]
    exact h.declarations.map _
  · rw [assessment_effective, assessment_effective,
      Lookup.find?_perm h.declarations distinct.declarations id]
    simp only [effective]
  · rw [closeoutReady_eq, closeoutReady_eq, satisfied]

def Fixture.reversedInput : AcceptanceInput :=
  { readyInput with
    declarations := readyInput.declarations.reverse
    evidence := readyInput.evidence.reverse }

theorem reordered_sameOutcome_reversed :
    (interpretAcceptance Fixture.readyInput).closeoutReady =
      (interpretAcceptance Fixture.reversedInput).closeoutReady :=
  (reordered_sameOutcome Fixture.readyInput Fixture.reversedInput
    ⟨rfl, rfl, rfl, (List.reverse_perm _).symm, (List.reverse_perm _).symm, .refl _, .refl _⟩
    ⟨by decide, by decide, by decide, by decide⟩).2.2.2

end Reordering

end Boreal.Acceptance
