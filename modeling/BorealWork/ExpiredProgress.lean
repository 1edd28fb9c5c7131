/- Attempt progress under an expiry review: which actions the policy still allows once the lease or
the hard budget of the attempt has elapsed. -/
import BorealWork.ClaimPermission

namespace Boreal.Actions
open Decision Status Sorting Checks

variable {facts : DecisionInputs} {input : ActionEvaluationInput} {action : ActionKind}

/-- The steps by which an attempt advances. -/
def progressActions : List ActionKind := [.acceptAttempt, .startAttempt, .checkpoint, .submit]

def progressAction : AttemptPhase → Option ActionKind
  | .claimed => some .acceptAttempt
  | .accepted => some .startAttempt
  | .running => some .submit
  | _ => none

/-- Everything but the status and the phase lets the owner of the attempt take the step. -/
structure Unobstructed (facts : DecisionInputs) (action : ActionKind) : Prop where
  live : facts.availability = .live
  level : facts.integrity.level = .valid
  valid : facts.validate = .ok ()
  owner : ∃ authority, facts.authority = .present authority ∧
    authority.projectId = facts.subject.projectId ∧ authority.actorId.value ≠ "" ∧
    authority.role ∈ [ActorRole.agent, ActorRole.operator] ∧
    delegationBroken authority.principal = false ∧ authority.sessionId ≠ none ∧
    (∀ session ∈ ownerSession facts, authority.sessionId = some session) ∧
    currentAttemptActor facts = some authority.actorId
  proven : isProofBound action = true → facts.execution.asPresent.any (·.proof.isBound) = true
  unheld : ∀ holds ∈ facts.holds.asPresent, ∀ hold ∈ holds.holds, Lifted facts hold
  permitted : ∀ permission ∈ mappedPermission action,
    permission ∈ facts.permittedActions.allowed ∧
      ∀ denied ∈ facts.permittedActions.denied, denied.action ≠ permission

theorem permissionDenial_eq_none : permissionDenial facts action = none ↔
    ∀ permission ∈ mappedPermission action, permission ∈ facts.permittedActions.allowed ∧
      ∀ denied ∈ facts.permittedActions.denied, denied.action ≠ permission := by
  rw [permissionDenial]
  cases mappedPermission action with
  | none => simp
  | some permission => simp

theorem proofDenial_eq_none (progress : action ∈ progressActions) : proofDenial facts action = none ↔
    (isProofBound action = true → facts.execution.asPresent.any (·.proof.isBound) = true) := by
  have other : action ≠ .attachEvidence := by
    intro attach
    rw [attach] at progress
    exact absurd progress (by decide)
  rw [proofDenial, refuseIf_eq_none]
  simp [other]

theorem healthDenial_progress (progress : action ∈ progressActions) :
    healthDenial facts (descriptor input action) (descriptor input action).request = none ↔
      facts.availability = .live ∧ facts.integrity.level = .valid ∧ facts.validate = .ok () := by
  have same : (descriptor input action).request.action = action := rfl
  have writes : (descriptor input action).readOnly = false := by
    change isReadOnly action = false
    revert progress
    cases action <;> decide
  have plain : isRecoveryAction action = false ∧ action ≠ .repair ∧ action ≠ .recover := by
    revert progress
    cases action <;> decide
  obtain ⟨ordinary, unrepaired, unrecovered⟩ := plain
  rw [healthDenial_eq_none, writes, same, ordinary]
  cases facts.integrity.level with
  | valid => simp [unrepaired]
  | degraded => simp
  | quarantined => simp [unrepaired, unrecovered]

theorem roleDenial_progress (progress : action ∈ progressActions) {authority : ActorAuthorityInput} :
    roleDenial (descriptor input action) authority = none ↔
      authority.role ∈ [ActorRole.agent, ActorRole.operator] ∧
        delegationBroken authority.principal = false := by
  have roles : (descriptor input action).requiredRoles = [.agent, .operator] := by
    change requiredRoles input.facts action = _
    revert progress
    cases action <;> first | exact fun _ => rfl | exact fun h => absurd h (by decide)
  rw [roleDenial, Option.or_eq_none_iff, refuseIf_eq_none, refuseIf_eq_none, roles, Bool.not_eq_true]
  refine and_congr_left fun _ => ?_
  rw [not_and, not_not]
  exact forall_prop_of_true (List.cons_ne_nil _ _)

theorem ownerDenial_progress (progress : action ∈ progressActions) {authority : ActorAuthorityInput} :
    ownerDenial facts action authority = none ↔ authority.sessionId ≠ none ∧
      (∀ session ∈ ownerSession facts, authority.sessionId = some session) ∧
      currentAttemptActor facts = some authority.actorId := by
  have owned : requiresAttemptOwner action = true ∧ actionRequiresSession action = true := by
    revert progress
    cases action <;> decide
  rw [ownerDenial_eq_none, owned.1, owned.2]
  simp only [forall_const]
  exact and_left_comm

theorem statusDenial_expired (progress : action ∈ progressActions) {actorId : ActorId} :
    statusDenial facts .expiredReview action actorId = none ↔
      ∃ execution, facts.execution.asPresent = some execution ∧
        progressAction execution.phase = some action := by
  simp only [progressActions, List.mem_cons, List.not_mem_nil, or_false] at progress
  cases present : facts.execution.asPresent with
  | none => rcases progress with rfl | rfl | rfl | rfl <;>
      simp [statusDenial, phaseDenial, progressDenial, present]
  | some execution =>
    rcases progress with rfl | rfl | rfl | rfl <;> cases phase : execution.phase <;>
      simp [statusDenial, phaseDenial, progressDenial, progressAction, present, phase]

theorem allows_expired (progress : action ∈ progressActions) (expired : input.status = .expiredReview) :
    (evaluateActions input).allows action = true ↔ Unobstructed input.facts action ∧
      ∃ execution, input.facts.execution.asPresent = some execution ∧
        progressAction execution.phase = some action := by
  have holdBound : isHoldCompatible action = false := by
    revert progress
    cases action <;> decide
  rw [evaluateActions_allows, ownDenial_eq_none, expired]
  simp only [authority_eq_ok, healthDenial_progress progress, roleDenial_progress progress,
    proofDenial_eq_none progress, ownerDenial_progress progress, holdDenial_eq_none holdBound,
    activeHold_eq_none, permissionDenial_eq_none, statusDenial_expired progress]
  constructor
  · intro ⟨authority, ⟨given, project, named⟩, ⟨live, level, valid⟩, ⟨role, delegation⟩, proven,
      ⟨session, owner, actor⟩, unheld, permitted, phase⟩
    exact ⟨⟨live, level, valid, ⟨authority, given, project, named, role, delegation, session, owner,
      actor⟩, proven, unheld, permitted⟩, phase⟩
  · intro ⟨⟨live, level, valid, ⟨authority, given, project, named, role, delegation, session, owner,
      actor⟩, proven, unheld, permitted⟩, phase⟩
    exact ⟨authority, ⟨given, project, named⟩, ⟨live, level, valid⟩, ⟨role, delegation⟩, proven,
      ⟨session, owner, actor⟩, unheld, permitted, phase⟩

theorem progressAction_mem {phase : AttemptPhase} (next : progressAction phase = some action) :
    action ∈ progressActions := by
  cases phase with
  | claimed | accepted | running =>
    cases next
    decide
  | _ => cases next

def pairedActions (context : StatusContext) (facts : DecisionInputs) : ActionDecision :=
  evaluateActions ⟨facts, (evaluateCanonicalStatus context facts).displayStatus,
    (evaluateCanonicalStatus context facts).reasonCodes⟩

/-- No step of the attempt is allowed. -/
def Stopped (context : StatusContext) (facts : DecisionInputs) : Prop :=
  ∀ action ∈ progressActions, (pairedActions context facts).allows action = false

/-- The step that the phase waits for, if any, is obstructed by something other than the status. -/
def Obstructed (facts : DecisionInputs) : Prop :=
  ∀ execution, facts.execution.asPresent = some execution →
    ∀ action, progressAction execution.phase = some action → ¬ Unobstructed facts action

/-- An expired attempt is kept from its next step exactly where something other than the expiry
obstructs that step. -/
theorem expired_progress_iff (context : StatusContext) (facts : DecisionInputs)
    (expired : (evaluateCanonicalStatus context facts).displayStatus = .expiredReview) :
    Stopped context facts ↔ Obstructed facts := by
  constructor
  · intro stopped execution present action next unobstructed
    have progress := progressAction_mem next
    have allowed : (pairedActions context facts).allows action = true :=
      (allows_expired progress expired).mpr ⟨unobstructed, execution, present, next⟩
    exact Bool.noConfusion ((stopped action progress).symm.trans allowed)
  · intro obstructed action progress
    rw [← Bool.not_eq_true]
    intro allowed
    obtain ⟨unobstructed, execution, present, next⟩ := (allows_expired progress expired).mp allowed
    exact obstructed execution present action next unobstructed

/-- An attempt of the builder whose lease has run out. -/
def elapsedContext (phase : AttemptPhase) : StatusContext :=
  { readyContext with
    currentAttempt := some ⟨⟨"publish"⟩, ⟨"first"⟩, ⟨"builder"⟩, some ⟨"session"⟩, ⟨1⟩, phase,
      ⟨10⟩, ⟨50⟩, ⟨200⟩⟩ }

def elapsedFacts (phase : AttemptPhase) : DecisionInputs :=
  { readyFacts with
    execution := .present ⟨⟨⟨"first"⟩, ⟨1⟩⟩, ⟨"builder"⟩, some ⟨"session"⟩, phase, ⟨10⟩, ⟨50⟩, ⟨200⟩,
      { readyProof with attempt := some ⟨⟨"first"⟩, ⟨1⟩⟩ }⟩ }

theorem expired_progress_verifying : Stopped (elapsedContext .verifying) (elapsedFacts .verifying) :=
  (expired_progress_iff (elapsedContext .verifying) (elapsedFacts .verifying)
    (by decide)).mpr fun _ present _ next => by cases present; cases next

abbrev Escapes (phase : AttemptPhase) (action : ActionKind) : Prop :=
  DecisionApi.validateContext (elapsedContext phase) (elapsedFacts phase) = .ok () ∧
  (evaluateCanonicalStatus (elapsedContext phase) (elapsedFacts phase)).displayStatus =
    .expiredReview ∧
  (pairedActions (elapsedContext phase) (elapsedFacts phase)).allows action = true

theorem expired_progress_allowed :
    (Escapes .claimed .acceptAttempt ∧ ¬ Stopped (elapsedContext .claimed) (elapsedFacts .claimed)) ∧
    Escapes .accepted .startAttempt ∧ Escapes .running .submit := by
  have escapes : Escapes .claimed .acceptAttempt ∧ Escapes .accepted .startAttempt ∧
      Escapes .running .submit := by decide
  refine ⟨⟨escapes.1, fun stopped => ?_⟩, escapes.2⟩
  have refused := stopped .acceptAttempt (by decide)
  exact Bool.noConfusion (refused.symm.trans escapes.1.2.2)

end Boreal.Actions
