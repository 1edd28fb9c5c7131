/- What an allowed action says about its request and its snapshot: the chain of denials turned into
the record of everything that it has passed. -/
import BorealWork.Actions
import BorealWork.Claimability

namespace Boreal.Actions
open Decision Status Checks

variable {facts : DecisionInputs} {request : ActionRequest} {input : ActionEvaluationInput}

theorem authority_eq_ok {authority : ActorAuthorityInput} : Actions.authority facts = .ok authority ↔
    facts.authority = .present authority ∧ authority.projectId = facts.subject.projectId ∧
      authority.actorId.value ≠ "" := by
  rw [Actions.authority]
  cases facts.authority with
  | present given =>
    simp only [Fact.present.injEq]
    constructor
    · intro accepted
      split_ifs at accepted with refused
      cases accepted
      rw [not_or, not_not] at refused
      exact ⟨rfl, refused⟩
    · intro ⟨same, project, named⟩
      subst same
      rw [if_neg (not_or.mpr ⟨not_not.mpr project, named⟩)]
  | absent diagnostic => simp
  | unreadable diagnostic => simp
  | stale diagnostic => simp
  | failed diagnostic => simp

theorem denyReason_eq_none {descriptor : ActionDescriptor} :
    denyReason input descriptor request = none ↔
      ∃ authority, Actions.authority input.facts = .ok authority ∧
        bindingDenial input.facts descriptor request = none ∧
        healthDenial input.facts descriptor request = none ∧
        roleDenial descriptor authority = none ∧ proofDenial input.facts request.action = none ∧
        ownerDenial input.facts request.action authority = none ∧
        holdDenial input.facts request.action = none ∧
        permissionDenial input.facts request.action = none ∧
        statusDenial input.facts input.status request.action authority.actorId = none := by
  rw [denyReason]
  cases Actions.authority input.facts with
  | error reason => simp
  | ok authority => simp [Option.or_eq_none_iff]

theorem evaluateAction_allowed {allowed : ActionDescriptor} :
    evaluateAction input request = .allowed allowed ↔
      denyReason input (descriptor input request.action) request = none ∧
        allowed = descriptor input request.action := by
  rw [evaluateAction]
  cases denyReason input (descriptor input request.action) request with
  | some reason => simp
  | none => simp [eq_comm]

theorem bindingDenial_eq_none {descriptor : ActionDescriptor} :
    bindingDenial facts descriptor request = none ↔
      (request.action = descriptor.action ∧ request.target.projectId = facts.subject.projectId ∧
        request.target.workId = facts.subject.workId) ∧
      request.target.revision = facts.subject.revision ∧
      request.expectedProjectRevision = facts.snapshotRevision ∧
      (actionRequiresProof request.action = true →
        request.expectedProofRevision = descriptor.expectedProofRevision) ∧
      (actionRequiresAttempt request.action = true → request.attempt = descriptor.attempt) := by
  simp only [bindingDenial, Option.or_eq_none_iff, refuseIf_eq_none, not_or, not_and, not_not]
  refine and_congr_right fun _ => and_congr_right fun _ => and_congr_right fun _ =>
    and_congr_left fun _ => ?_
  exact ⟨fun h asked => not_not.mp fun other => h other asked, fun h other asked => other (h asked)⟩

theorem healthDenial_eq_none {descriptor : ActionDescriptor} :
    healthDenial facts descriptor request = none ↔ (descriptor.readOnly = false →
      facts.availability = .live ∧
      (facts.integrity.level = .quarantined → request.action = .repair ∨ request.action = .recover) ∧
      (facts.integrity.level = .degraded → isRecoveryAction request.action = true) ∧
      (request.action ≠ .repair → facts.validate = .ok ())) := by
  simp only [healthDenial, Option.or_eq_none_iff, refuseIf_eq_none]
  cases descriptor.readOnly with
  | true => simp
  | false =>
    simp only [true_and, not_and, not_not, Bool.not_eq_false, forall_const, and_true]
    refine and_congr_right fun _ => and_congr ?_ (and_congr_right fun _ => ?_)
    · exact forall_congr' fun _ => or_iff_not_imp_left.symm
    · exact ⟨fun h other => not_not.mp fun invalid => other (h invalid),
        fun h invalid => not_not.mp fun other => invalid (h other)⟩

/-- The hold concerns this work and is not in force. -/
def Lifted (facts : DecisionInputs) (hold : HoldInput) : Prop :=
  hold.scope.projectId = facts.subject.projectId ∧ hold.scope.workId = facts.subject.workId ∧
    hold.active = false

theorem selectHold_eq_none {holds : List HoldInput} {selected : Option HoldInput} :
    selectHold facts holds selected = .ok none ↔
      selected = none ∧ ∀ hold ∈ holds, Lifted facts hold := by
  induction holds generalizing selected with
  | nil => simp [selectHold]
  | cons hold rest ih =>
    rw [selectHold, List.forall_mem_cons, Lifted]
    by_cases foreign : hold.scope.projectId ≠ facts.subject.projectId ∨
        hold.scope.workId ≠ facts.subject.workId
    · rw [if_pos foreign]
      refine iff_of_false nofun fun ⟨_, ⟨project, work, _⟩, _⟩ => ?_
      rcases foreign with h | h
      · exact h project
      · exact h work
    rw [if_neg foreign]
    rw [not_or, not_not, not_not] at foreign
    cases active : hold.active with
    | true =>
      refine iff_of_false ?_ fun ⟨_, ⟨_, _, inactive⟩, _⟩ => Bool.true_eq_false_eq_False inactive
      split_ifs with stale least
      · exact nofun
      · rw [ih]
        exact fun ⟨absent, _⟩ => Option.some_ne_none hold absent
      · rw [ih]
        rintro ⟨rfl, _⟩
        exact least ⟨rfl, rfl⟩
    | false => simp [ih, foreign]

theorem activeHold_eq_none : activeHold facts = .ok none ↔
    ∀ holds ∈ facts.holds.asPresent, ∀ hold ∈ holds.holds, Lifted facts hold := by
  rw [activeHold]
  cases facts.holds.asPresent with
  | none => simp
  | some holds => simp [selectHold_eq_none]

theorem holdDenial_eq_none {action : ActionKind} (incompatible : isHoldCompatible action = false) :
    holdDenial facts action = none ↔ activeHold facts = .ok none := by
  rw [holdDenial]
  cases activeHold facts with
  | error reason => simp
  | ok selected =>
    cases selected with
    | none => simp
    | some hold => simp [incompatible]

theorem ownerDenial_eq_none {action : ActionKind} {authority : ActorAuthorityInput} :
    ownerDenial facts action authority = none ↔
      (requiresAttemptOwner action = true →
        ∀ session ∈ ownerSession facts, authority.sessionId = some session) ∧
      (actionRequiresSession action = true → authority.sessionId ≠ none) ∧
      (requiresAttemptOwner action = true → currentAttemptActor facts = some authority.actorId) := by
  simp only [ownerDenial, Option.or_eq_none_iff, refuseIf_eq_none, not_and, not_not]
  refine and_congr_left fun _ => forall_congr' fun _ => ?_
  cases ownerSession facts with
  | none => simp
  | some session => simp

section Decision

variable (input) in
theorem bindingDenial_own (action : ActionKind) :
    bindingDenial input.facts (descriptor input action) (descriptor input action).request = none :=
  bindingDenial_eq_none.mpr ⟨⟨rfl, rfl, rfl⟩, rfl, rfl, fun _ => rfl, fun _ => rfl⟩

def ownDenial (input : ActionEvaluationInput) (action : ActionKind) : Option ActionDenialReason :=
  denyReason input (descriptor input action) (descriptor input action).request

theorem foldl_recordAuthorization (actions : List ActionKind) (decision : ActionDecision) :
    (actions.foldl (fun decision action => recordAuthorization decision
      (evaluateAction input (descriptor input action).request)) decision).allowed =
      decision.allowed ++
        (actions.filter fun action => (ownDenial input action).isNone).map (descriptor input) := by
  induction actions generalizing decision with
  | nil => exact (List.append_nil _).symm
  | cons action rest ih =>
    rw [List.foldl_cons, ih, List.filter_cons]
    have own : (descriptor input action).request.action = action := rfl
    rw [evaluateAction, own]
    cases denial : ownDenial input action with
    | none =>
      rw [ownDenial] at denial
      rw [denial]
      simp [recordAuthorization]
    | some reason =>
      rw [ownDenial] at denial
      rw [denial]
      simp [recordAuthorization]

theorem evaluateActions_allows {action : ActionKind} :
    (evaluateActions input).allows action = true ↔ ownDenial input action = none := by
  rw [ActionDecision.allows, evaluateActions, foldl_recordAuthorization, List.nil_append,
    List.any_map, List.any_eq_true]
  constructor
  · intro ⟨other, member, same⟩
    have equal : other = action := of_decide_eq_true same
    subst equal
    exact Option.isNone_iff_eq_none.mp (List.mem_filter.mp member).2
  · intro free
    refine ⟨action, List.mem_filter.mpr ⟨mem_allActionKinds action, ?_⟩, decide_eq_true rfl⟩
    exact Option.isNone_iff_eq_none.mpr free

theorem ownDenial_eq_none {action : ActionKind} : ownDenial input action = none ↔
    ∃ authority, Actions.authority input.facts = .ok authority ∧
      healthDenial input.facts (descriptor input action) (descriptor input action).request = none ∧
      roleDenial (descriptor input action) authority = none ∧
      proofDenial input.facts action = none ∧ ownerDenial input.facts action authority = none ∧
      holdDenial input.facts action = none ∧ permissionDenial input.facts action = none ∧
      statusDenial input.facts input.status action authority.actorId = none := by
  rw [ownDenial, denyReason_eq_none]
  refine exists_congr fun authority => and_congr_right fun _ => ?_
  exact and_iff_right (bindingDenial_own input action)

end Decision

/-- The two snapshots differ in something that the class of the action binds: the project revision,
the entity revision, for proof actions the proof revision, for attempt actions the attempt or its
fence. -/
def Outdated (a b : DecisionInputs) (action : ActionKind) : Prop :=
  a.snapshotRevision ≠ b.snapshotRevision ∨ a.subject.revision ≠ b.subject.revision ∨
  (actionRequiresProof action = true ∧ currentProofRevision a ≠ currentProofRevision b) ∨
  (actionRequiresAttempt action = true ∧
    ((currentAttempt a).map (·.attemptId) ≠ (currentAttempt b).map (·.attemptId) ∨
      (currentAttempt a).map (·.fence) ≠ (currentAttempt b).map (·.fence)))

/-- What every allowed action that writes has passed. -/
structure Safe (facts : DecisionInputs) (action : ActionKind) : Prop where
  live : facts.availability = .live
  session : ∃ authority, facts.authority = .present authority ∧ authority.sessionId ≠ none
  valid : action ≠ .repair → facts.validate = .ok ()
  unquarantined : action ≠ .repair → action ≠ .recover → facts.integrity.level ≠ .quarantined
  unheld : isHoldCompatible action = false →
    ∀ holds ∈ facts.holds.asPresent, ∀ hold ∈ holds.holds, hold.active = false

theorem descriptor_refused {a b : ActionEvaluationInput} {action : ActionKind}
    (outdated : Outdated a.facts b.facts action) :
    denyReason b (descriptor b action) (descriptor a action).request ≠ none := by
  intro accepted
  obtain ⟨_, _, binding, _⟩ := denyReason_eq_none.mp accepted
  obtain ⟨_, entity, project, proof, attempt⟩ := bindingDenial_eq_none.mp binding
  rcases outdated with h | h | ⟨asked, h⟩ | ⟨asked, h⟩
  · exact h project
  · exact h entity
  · exact h (proof asked)
  · have same : currentAttempt a.facts = currentAttempt b.facts := attempt asked
    rw [same] at h
    rcases h with h | h
    · exact h rfl
    · exact h rfl

theorem safe_of_accepted {descriptor : ActionDescriptor} (writes : isReadOnly request.action = false)
    (bound : descriptor.readOnly = isReadOnly request.action)
    (accepted : denyReason input descriptor request = none) : Safe input.facts request.action := by
  obtain ⟨authority, authorized, _, health, _, _, owner, free, _⟩ := denyReason_eq_none.mp accepted
  obtain ⟨live, quarantine, _, valid⟩ := healthDenial_eq_none.mp health (bound.trans writes)
  obtain ⟨_, session, _⟩ := ownerDenial_eq_none.mp owner
  refine ⟨live, ⟨authority, (authority_eq_ok.mp authorized).1, session ?_⟩, valid, ?_, ?_⟩
  · rw [actionRequiresSession, writes]
    rfl
  · intro unrepaired unrecovered quarantined
    rcases quarantine quarantined with h | h
    · exact unrepaired h
    · exact unrecovered h
  · intro incompatible holds present hold member
    have lifted := activeHold_eq_none.mp ((holdDenial_eq_none incompatible).mp free)
    exact (lifted holds present hold member).2.2

/-- A request built from one snapshot is never allowed against an outdated one, and an action that
writes is allowed only on a safe snapshot. -/
theorem evaluateAction_safe :
    (∀ (a b : ActionEvaluationInput) (action : ActionKind), Outdated a.facts b.facts action →
      ∀ allowed, evaluateAction b (descriptor a action).request ≠ .allowed allowed) ∧
    ∀ (input : ActionEvaluationInput) (request : ActionRequest) (allowed : ActionDescriptor),
      evaluateAction input request = .allowed allowed → isReadOnly request.action = false →
        Safe input.facts request.action := by
  constructor
  · intro a b action outdated allowed authorized
    exact descriptor_refused outdated (evaluateAction_allowed.mp authorized).1
  · intro input request allowed authorized writes
    exact safe_of_accepted writes rfl (evaluateAction_allowed.mp authorized).1

def readyInput : ActionEvaluationInput := ⟨readyFacts, .ready, []⟩

/-- The same work after an edit. -/
def editedInput : ActionEvaluationInput :=
  ⟨{ readyFacts with subject := { readySubject with revision := ⟨2⟩ } }, .ready, []⟩

theorem evaluateAction_safe_claim :
    (∀ allowed, evaluateAction editedInput (descriptor readyInput .claim).request ≠ .allowed allowed) ∧
    Safe readyFacts .claim :=
  ⟨evaluateAction_safe.1 readyInput editedInput .claim (.inr (.inl (by decide))),
    evaluateAction_safe.2 readyInput (descriptor readyInput .claim).request
      (descriptor readyInput .claim) (by decide) rfl⟩

end Boreal.Actions
