/- The action layer never widens the status layer: what an allowed claim says about the context and
the facts that were paired. -/
import BorealWork.DecisionApi

namespace Boreal.DecisionApi
open Decision Status Status.StatusContext Actions Sorting Checks

variable {context : StatusContext} {facts : DecisionInputs} {view : DecisionActionView}

theorem require_eq_ok {condition : Prop} [Decidable condition] {field : DecisionContextMismatch}
    {done : Unit} : require condition field = .ok done ↔ condition := by
  rw [require]
  by_cases met : condition
  · simp [met]
  · simp [met]

theorem presentFact_eq_ok {α : Type} {fact : Fact α} {kind : FactKind} {value : α} :
    presentFact fact kind = .ok value ↔ fact.asPresent = some value := by
  rw [presentFact]
  cases fact.asPresent with
  | none => simp
  | some present => simp

structure Bound (context : StatusContext) (facts : DecisionInputs) : Prop where
  subject : context.work.projectId = facts.subject.projectId ∧ context.work.id = facts.subject.workId
  revision : context.projectRevision = facts.snapshotRevision
  clock : context.asOf = facts.clock.evaluatedAt
  policy : context.work.dispatchPolicy = facts.dispatchPolicy
  timing : context.schedule = facts.clock.timing.schedule ∧
    context.activationAt = facts.clock.timing.cycleActivationAt ∧
    context.retryNotBefore = facts.clock.timing.retryNotBefore
  lifecycle : ∃ lifecycle, facts.lifecycle.asPresent = some lifecycle ∧
    lifecycle.identity = facts.subject ∧ lifecycle.lifecycle = context.work.lifecycle
  actor : ∃ authority, facts.authority.asPresent = some authority ∧
    authority.projectId = facts.subject.projectId ∧ authority.actorId = context.actor.actorId ∧
    authority.role = context.actor.role
  requirements : ∃ requirements, facts.requirements.asPresent = some requirements ∧
    (requirements.proof.profile.profileId = context.work.acceptanceProfile.id ∧
      requirements.proof.profile.version = context.work.acceptanceProfile.version) ∧
    sameGates (declaredGates requirements) context.work.acceptanceProfile.gates = true ∧
    sameGates (declaredGates requirements) context.gates = true
  dependencies : validateDependencies context facts = .ok ()
  execution : sameCurrentAttempt context.currentAttempt facts facts.subject.workId = true

theorem bound_of_validateContext (valid : validateContext context facts = .ok ()) :
    Bound context facts := by
  simp only [validateContext, Drain.bind_eq_ok, require_eq_ok, presentFact_eq_ok, exists_const] at valid
  obtain ⟨subject, revision, clock, policy, timing, lifecycle, given, same, authority, acting, actor,
    requirements, pinned, profile, gates, _, dependencies, execution⟩ := valid
  exact ⟨subject, revision, clock, policy, timing, ⟨lifecycle, given, same⟩, ⟨authority, acting, actor⟩,
    ⟨requirements, pinned, profile, gates⟩, dependencies, execution⟩

theorem evaluateDecisionActions_bound (evaluated : evaluateDecisionActions context facts = .ok view) :
    Bound context facts ∧ view.actions = evaluateActions
      ⟨facts, (evaluateCanonicalStatus context facts).displayStatus,
        (evaluateCanonicalStatus context facts).reasonCodes⟩ := by
  simp only [evaluateDecisionActions, Drain.bind_eq_ok, pure, Except.pure, Except.ok.injEq] at evaluated
  obtain ⟨_, valid, rfl⟩ := evaluated
  exact ⟨bound_of_validateContext valid, rfl⟩

theorem Bound.prerequisite (bound : Bound context facts) {item : Status.WorkItem}
    (member : item ∈ context.prerequisites) :
    ∃ dependencies, facts.dependencies.asPresent = some dependencies ∧
      ∃ edge ∈ dependencies.edges, edge.predecessor.projectId = item.projectId ∧
        edge.predecessor.workId = item.id := by
  have same := bound.dependencies
  rw [validateDependencies] at same
  cases given : facts.dependencies.asPresent with
  | none =>
    rw [given] at same
    have absent := require_eq_ok.mp same
    rw [absent] at member
    exact absurd member List.not_mem_nil
  | some dependencies =>
    rw [given] at same
    have keys := require_eq_ok.mp same
    have key : prerequisiteKey item ∈ sortOn id (context.prerequisites.map prerequisiteKey) :=
      mem_sortOn.mpr (List.mem_map_of_mem member)
    rw [← keys, mem_sortOn] at key
    obtain ⟨edge, listed, equal⟩ := List.mem_map.mp key
    rw [predecessorKey, prerequisiteKey, toLex_inj, Prod.mk.injEq] at equal
    exact ⟨dependencies, rfl, edge, listed, equal⟩

theorem isTerminal_of_isHistorical {phase : AttemptPhase}
    (historical : isHistorical phase = true) : phase.isTerminal = true := by
  cases phase <;> first | rfl | cases historical

theorem Bound.execution_eq_none (bound : Bound context facts)
    (unattempted : ∀ current ∈ context.currentAttempt,
      isHistorical current.phase = true) : facts.execution.asPresent = none := by
  have same := bound.execution
  have ended : context.currentAttempt.filter (!·.phase.isTerminal) = none := by
    rw [Option.filter_eq_none_iff]
    intro current given
    rw [isTerminal_of_isHistorical (unattempted current given)]
    exact Bool.false_ne_true
  rw [sameCurrentAttempt, ended, Bool.and_eq_true] at same
  cases present : facts.execution.asPresent with
  | none => rfl
  | some execution =>
    rw [present] at same
    exact absurd same.2 Bool.false_ne_true

theorem validate_eq_ok :
    facts.validate = .ok () ↔ ∀ diagnostic ∈ facts.diagnostics, facts.isBlocking diagnostic = false := by
  have clean : facts.diagnostics.filter facts.isBlocking = [] ↔
      ∀ diagnostic ∈ facts.diagnostics, facts.isBlocking diagnostic = false := by
    simp [List.filter_eq_nil_iff]
  rw [← clean]
  simp only [DecisionInputs.validate]
  split_ifs with blocked
  · exact iff_of_true rfl blocked
  · exact iff_of_false nofun blocked

theorem findings_of_valid (valid : facts.validate = .ok ()) (level : facts.integrity.level = .valid) :
    facts.integrity.diagnostics = [] := by
  by_contra found
  have reported : .contradictory .lifecycle facts.workSubject .integrityLevelMismatch ∈
      facts.diagnostics := by
    simp [DecisionInputs.diagnostics, DecisionInputs.structuralDiagnostics,
      DecisionInputs.integrityDiagnostics, reportIf, level, found]
  exact Bool.noConfusion (validate_eq_ok.mp valid _ reported)

/-- What the policy has checked before it allows a claim. -/
structure Admitted (facts : DecisionInputs) (status : DerivedStatus) : Prop where
  live : facts.availability = .live
  level : facts.integrity.level = .valid
  valid : facts.validate = .ok ()
  role : ∃ authority, facts.authority.asPresent = some authority ∧
    authority.role ∈ requiredRoles facts .claim
  unheld : ∀ holds ∈ facts.holds.asPresent, ∀ hold ∈ holds.holds, Lifted facts hold
  ready : status = .ready

theorem statusDenial_claim {status : DerivedStatus} {actorId : ActorId}
    (free : statusDenial facts status .claim actorId = none) : status = .ready := by
  rw [statusDenial] at free
  split_ifs at free
  rw [statusIn, refuseIf_eq_none, not_not, List.mem_singleton] at free
  exact free

theorem admitted_of_allows {input : ActionEvaluationInput}
    (allowed : (evaluateActions input).allows .claim = true) : Admitted input.facts input.status := by
  obtain ⟨authority, authorized, health, role, _, _, held, _, status⟩ :=
    ownDenial_eq_none.mp (evaluateActions_allows.mp allowed)
  obtain ⟨live, quarantined, degraded, valid⟩ := healthDenial_eq_none.mp health rfl
  refine ⟨live, ?_, valid nofun, ⟨authority, ?_, ?_⟩, activeHold_eq_none.mp
    ((holdDenial_eq_none rfl).mp held), statusDenial_claim status⟩
  · cases level : input.facts.integrity.level with
    | valid => rfl
    | degraded => exact absurd (degraded level) Bool.false_ne_true
    | quarantined =>
      rcases quarantined level with h | h
      · cases h
      · cases h
  · rw [(authority_eq_ok.mp authorized).1]
    rfl
  · rw [roleDenial, Option.or_eq_none_iff, refuseIf_eq_none, not_and_or, not_not, not_not] at role
    rcases role.1 with none_required | listed
    · change requiredRoles input.facts .claim = [] at none_required
      rw [requiredRoles] at none_required
      split_ifs at none_required
    · exact listed

/-- What stands behind an allowed claim: the evaluator offers it for the same work, nothing under
way or held stands against it, every prerequisite row is settled, and no finding is left. -/
structure Permitted (context : StatusContext) (facts : DecisionInputs) : Prop where
  offered : (evaluateCanonicalStatus context facts).claimableForActor = true
  subject : (evaluateCanonicalStatus context facts).workId = facts.subject.workId
  ready : (evaluateCanonicalStatus context facts).displayStatus = .ready
  claimable : Claimable context facts
  unattempted : facts.execution.asPresent = none
  unheld : ∀ holds ∈ facts.holds.asPresent, ∀ hold ∈ holds.holds, hold.active = false
  settled : ∀ item ∈ context.prerequisites,
    ∃ dependencies, facts.dependencies.asPresent = some dependencies ∧
      ∃ edge ∈ dependencies.edges, edge.predecessor.projectId = item.projectId ∧
        edge.predecessor.workId = item.id ∧ (edge.outcome = .closed ∨ edge.waiver.isSome = true)
  sound : facts.integrity.level = .valid ∧ facts.integrity.diagnostics = []
  role : ∃ authority, facts.authority.asPresent = some authority ∧
    authority.actorId = context.actor.actorId ∧ authority.role = context.actor.role

theorem permittedRole_of_bound (bound : Bound context facts) {status : DerivedStatus}
    (admitted : Admitted facts status) : PermittedRole context.work context.actor := by
  obtain ⟨authority, given, listed⟩ := admitted.role
  obtain ⟨actor, acting, _, _, role⟩ := bound.actor
  cases given.symm.trans acting
  rw [requiredRoles, ← bound.policy] at listed
  rw [PermittedRole, ← role]
  split_ifs at listed ⊢
  · exact List.mem_singleton.mp listed
  · exact List.mem_singleton.mp listed

/-- An allowed claim is always a claim that the status evaluator offers. -/
theorem evaluateDecisionActions_claim (context : StatusContext) (facts : DecisionInputs)
    (view : DecisionActionView) (evaluated : evaluateDecisionActions context facts = .ok view)
    (allowed : view.actions.allows .claim = true) : Permitted context facts := by
  obtain ⟨bound, actions⟩ := evaluateDecisionActions_bound evaluated
  rw [actions] at allowed
  have admitted := admitted_of_allows allowed
  have ready : (context.primaryDecision (some facts)).status = .ready := admitted.ready
  have dispatchable := primaryDecision_ready.mp ready
  have claimable := dispatchable.claimable (permittedRole_of_bound bound admitted)
  obtain ⟨actor, acting, _, named, role⟩ := bound.actor
  refine ⟨(evaluateCanonicalStatus_claimable context facts).mpr claimable, bound.subject.2, ready,
    claimable, bound.execution_eq_none claimable.unattempted, ?_, ?_,
    ⟨admitted.level, findings_of_valid admitted.valid admitted.level⟩, ⟨actor, acting, named, role⟩⟩
  · intro holds given hold member
    exact (admitted.unheld holds given hold member).2.2
  · intro item member
    obtain ⟨dependencies, given, edge, listed, project, work⟩ := bound.prerequisite member
    have met := claimable.prerequisites
    rw [PrerequisitesMet, Option.bind_some, given] at met
    exact ⟨dependencies, given, edge, listed, project, work, met edge listed⟩

theorem evaluateDecisionActions_claim_ready : Permitted readyContext readyFacts :=
  evaluateDecisionActions_claim readyContext readyFacts
    ⟨evaluateCanonicalStatus readyContext readyFacts, evaluateActions ⟨readyFacts, .ready, [.eligible]⟩⟩
    (by decide +kernel) (by decide +kernel)

theorem evaluateDecisionActions_claim_early :
    ∃ view, evaluateDecisionActions laterDateContext readyFacts = .ok view ∧
      view.actions.allows .claim = true ∧ laterDateContext.businessAvailable = false :=
  ⟨⟨evaluateCanonicalStatus laterDateContext readyFacts,
    evaluateActions ⟨readyFacts, .ready, [.eligible]⟩⟩, by decide +kernel⟩

end Boreal.DecisionApi
