/- The action policy: descriptors that bind a request to one snapshot, and the chain of denials that
every request goes through. -/
import BorealWork.StatusEvaluator

namespace Boreal.Actions
open Decision Status Sorting Checks

/-- The constructors stand in the stable descriptor order. -/
inductive ActionKind
  | inspect
  | readHistory
  | readOperation
  | «export»
  | publish
  | claim
  | acceptAttempt
  | startAttempt
  | checkpoint
  | attachEvidence
  | submit
  | requestReview
  | review
  | finishClose
  | close
  | stop
  | release
  | pausePolicy
  | resumePolicy
  | cancel
  | reopen
  | retry
  | revokeReview
  | revokeException
  | resolveHold
  | waiveDependency
  | forceGate
  | recover
  | reconcileResource
  | repair
  deriving DecidableEq

def allActionKinds : List ActionKind :=
  [.inspect, .readHistory, .readOperation, .export, .publish, .claim, .acceptAttempt, .startAttempt,
    .checkpoint, .attachEvidence, .submit, .requestReview, .review, .finishClose, .close, .stop,
    .release, .pausePolicy, .resumePolicy, .cancel, .reopen, .retry, .revokeReview, .revokeException,
    .resolveHold, .waiveDependency, .forceGate, .recover, .reconcileResource, .repair]

theorem mem_allActionKinds (action : ActionKind) : action ∈ allActionKinds := by
  cases action <;> decide

inductive ActionInputKind
  | expectedProjectRevision
  | expectedEntityRevision
  | expectedProofRevision
  | attemptId
  | fence
  | sessionId
  | operationId
  | confirmation
  | reason
  | comment
  | evidence
  | summary
  | reviewDecision
  | recoveryDisposition
  deriving DecidableEq

structure ActionRequest where
  action : ActionKind
  target : EntityIdentity
  expectedProjectRevision : Revision
  expectedProofRevision : Option ProofRevision
  attempt : Option AttemptIdentity
  deriving DecidableEq

structure ActionDescriptor where
  action : ActionKind
  target : EntityIdentity
  expectedProjectRevision : Revision
  expectedEntityRevision : EntityRevision
  expectedProofRevision : Option ProofRevision
  attempt : Option AttemptIdentity
  requiredRoles : List ActorRole
  requiredInputs : List ActionInputKind
  confirmation : Option String
  readOnly : Bool
  recovery : Bool
  deriving DecidableEq

def ActionDescriptor.request (descriptor : ActionDescriptor) : ActionRequest where
  action := descriptor.action
  target := descriptor.target
  expectedProjectRevision := descriptor.expectedProjectRevision
  expectedProofRevision := descriptor.expectedProofRevision
  attempt := descriptor.attempt

inductive ActionDenialReason
  | unauthenticated
  | scopeMismatch
  | invalidFacts
  | availabilityUnavailable (availability : Availability)
  | integrityQuarantined
  | integrityDegraded
  | roleDenied (required : List ActorRole) (observed : ActorRole)
  | delegationInvalid
  | policyDenied
  | statusDenied (status : DerivedStatus)
  | holdActive (code : HoldCode)
  | staleSnapshot (expected observed : Revision)
  | staleEntity (expected observed : EntityRevision)
  | staleProof (expected observed : Option ProofRevision)
  | missingAttempt
  | staleFence (expected observed : Option AttemptIdentity)
  | attemptOwnerMismatch
  | attemptPhaseDenied (phase : AttemptPhase)
  | missingSubmission
  | reviewNotIndependent
  | recoveryRequired
  | noActiveHold
  | actionNotApplicable
  deriving DecidableEq

structure DeniedAction where
  descriptor : ActionDescriptor
  reason : ActionDenialReason
  recovery : List ActionKind
  deriving DecidableEq

inductive ActionAuthorization
  | allowed (descriptor : ActionDescriptor)
  | denied (denied : DeniedAction)
  deriving DecidableEq

structure ActionDecision where
  allowed : List ActionDescriptor
  denied : List DeniedAction
  deriving DecidableEq

def ActionDecision.allows (decision : ActionDecision) (action : ActionKind) : Bool :=
  decision.allowed.any (·.action = action)

structure ActionEvaluationInput where
  facts : DecisionInputs
  status : DerivedStatus
  reasons : List ReasonCode

def isReadOnly : ActionKind → Bool
  | .inspect | .readHistory | .readOperation | .export => true
  | _ => false

def isRecoveryAction : ActionKind → Bool
  | .stop | .release | .resolveHold | .recover | .reconcileResource | .repair | .review
  | .revokeReview | .revokeException | .waiveDependency | .forceGate => true
  | _ => false

def actionRequiresAttempt : ActionKind → Bool
  | .acceptAttempt | .startAttempt | .checkpoint | .attachEvidence | .submit | .requestReview
  | .review | .finishClose | .close | .stop | .release | .recover | .reconcileResource => true
  | _ => false

def actionRequiresProof : ActionKind → Bool
  | .checkpoint | .attachEvidence | .submit | .requestReview | .review | .finishClose | .close
  | .forceGate | .revokeReview | .revokeException | .retry | .reopen | .waiveDependency => true
  | _ => false

def actionRequiresSession (action : ActionKind) : Bool := !isReadOnly action

def requiresAttemptOwner : ActionKind → Bool
  | .acceptAttempt | .startAttempt | .checkpoint | .attachEvidence | .submit | .requestReview
  | .finishClose | .close | .stop | .release => true
  | _ => false

/-- The actions that stay open under an active hold. -/
def isHoldCompatible : ActionKind → Bool
  | .inspect | .readHistory | .readOperation | .export | .stop | .release | .recover
  | .reconcileResource | .resolveHold | .repair | .review | .revokeReview | .revokeException
  | .waiveDependency | .forceGate => true
  | _ => false

def isProofBound : ActionKind → Bool
  | .startAttempt | .checkpoint | .attachEvidence | .submit => true
  | _ => false

def confirmationFor : ActionKind → Option String
  | .publish => some "Publish this work for execution?"
  | .finishClose => some "Submit the close intent for this exact proof context?"
  | .close => some "Finalize accepted closeout for this exact proof context?"
  | .stop => some "Request a safe stop and retain recovery history?"
  | .release => some "Release the current attempt without asserting success?"
  | .pausePolicy => some "Pause dispatch for this work item?"
  | .resumePolicy => some "Resume the previously configured dispatch policy?"
  | .cancel => some "Cancel this work item with an audited reason?"
  | .reopen => some "Reopen this terminal work item with an audited reason?"
  | .retry => some "Begin a new proof generation, preserving all prior results?"
  | .revokeReview => some "Revoke this exact review and invalidate its accepted outcome?"
  | .revokeException => some "Revoke this exception without deleting its history?"
  | .resolveHold => some "Resolve the named hold with an audited reason?"
  | .waiveDependency => some "Record a scoped dependency waiver?"
  | .forceGate => some "Record a scoped gate exception without altering evidence?"
  | .recover => some "Record or resolve the safe recovery disposition?"
  | .reconcileResource => some "Reconcile the external resource disposition?"
  | .repair => some "Repair or rebuild the affected projection?"
  | _ => none

def mappedPermission : ActionKind → Option PermittedAction
  | .inspect | .readHistory | .readOperation | .export => some .inspect
  | .claim => some .claim
  | .acceptAttempt => some .acceptAttempt
  | .startAttempt => some .resumeAttempt
  | .checkpoint | .attachEvidence => some .attachEvidence
  | .submit => some .submit
  | .requestReview | .review | .revokeReview => some .review
  | .finishClose | .close => some .finish
  | .release => some .release
  | .stop | .recover | .reconcileResource => some .recover
  | .resolveHold => some .resolveHold
  | .repair => some .repair
  | .publish | .pausePolicy | .resumePolicy | .cancel | .reopen | .retry | .revokeException
  | .waiveDependency | .forceGate => none

def requiredRoles (facts : DecisionInputs) : ActionKind → List ActorRole
  | .inspect | .readHistory | .readOperation | .export => []
  | .publish => [.publisher, .operator]
  | .claim => if facts.dispatchPolicy = .operatorOnly then [.operator] else [.agent]
  | .acceptAttempt | .startAttempt | .checkpoint | .attachEvidence | .submit | .requestReview
  | .finishClose | .close => [.agent, .operator]
  | .review | .revokeReview => [.reviewer, .operator]
  | .stop | .release | .recover => [.agent, .operator]
  | .pausePolicy | .resumePolicy | .cancel | .reopen | .retry | .revokeException | .resolveHold
  | .waiveDependency | .forceGate | .reconcileResource | .repair => [.operator]

section Reads

variable (facts : DecisionInputs)

def currentProofRevision : Option ProofRevision :=
  (facts.requirements.asPresent.map (·.proof.proofRevision)).or <|
  (facts.execution.asPresent.map (·.proof.proofRevision)).or <|
  (facts.submission.asPresent.map (·.proof.proofRevision)).or <|
  facts.review.asPresent.map (·.proof.proofRevision)

def currentAttempt : Option AttemptIdentity :=
  (facts.execution.asPresent.map (·.attempt)).or <|
  (facts.submission.asPresent.bind (·.proof.attempt)).or <|
  (facts.review.asPresent.bind (·.proof.attempt)).or <|
  facts.recovery.asPresent.map (·.attempt)

def currentAttemptActor : Option ActorId :=
  (facts.execution.asPresent.map (·.actorId)).or (facts.submission.asPresent.map (·.actorId))

def ownerSession : Option SessionId :=
  (facts.execution.asPresent.bind (·.sessionId)).or (facts.submission.asPresent.map (·.sessionId))

def unresolvedRecovery : Bool := facts.recovery.asPresent.any (·.unresolved)

def authority : Except ActionDenialReason ActorAuthorityInput :=
  match facts.authority with
  | .present authority =>
    if authority.projectId ≠ facts.subject.projectId ∨ authority.actorId.value = "" then
      .error .scopeMismatch
    else .ok authority
  | _ => .error .unauthenticated

def holdKey (hold : HoldInput) : HoldId ×ₗ HoldCode ×ₗ EntityRevision :=
  toLex (hold.id, toLex (hold.code, hold.entityRevision))

def selectHold : List HoldInput → Option HoldInput → Except ActionDenialReason (Option HoldInput)
  | [], selected => .ok selected
  | hold :: rest, selected =>
    if hold.scope.projectId ≠ facts.subject.projectId ∨
        hold.scope.workId ≠ facts.subject.workId then .error .scopeMismatch
    else if hold.active = true ∧ hold.entityRevision ≠ facts.subject.revision then
      .error (.staleEntity facts.subject.revision hold.entityRevision)
    else if hold.active = true ∧ selected.all (fun current => holdKey hold < holdKey current) = true then
      selectHold rest (some hold)
    else selectHold rest selected

def activeHold : Except ActionDenialReason (Option HoldInput) :=
  match facts.holds.asPresent with
  | none => .ok none
  | some holds => selectHold facts holds.holds none

end Reads

/-- What a confirmed action asks of its caller besides the confirmation. -/
def confirmationInputs (action : ActionKind) : List ActionInputKind :=
  if (confirmationFor action).isSome then
    .confirmation :: match action with
      | .cancel | .reopen | .retry | .revokeReview | .revokeException | .waiveDependency | .forceGate
      | .resolveHold => [.reason, .comment]
      | _ => []
  else []

def requiredInputs (facts : DecisionInputs) (action : ActionKind) : List ActionInputKind :=
  sortDedup ActionInputKind.ctorIdx <| List.flatten
    [[.expectedProjectRevision, .expectedEntityRevision],
      reportIf (actionRequiresProof action = true ∧ (currentProofRevision facts).isSome = true)
        .expectedProofRevision,
      if actionRequiresAttempt action then [.attemptId, .fence] else [],
      reportIf (isReadOnly action = false) .operationId,
      reportIf (actionRequiresSession action = true) .sessionId,
      confirmationInputs action,
      reportIf (action = .attachEvidence ∨ action = .submit) .evidence,
      reportIf (action = .finishClose ∨ action = .close) .summary,
      reportIf (action = .review) .reviewDecision,
      reportIf (action = .recover ∨ action = .reconcileResource) .recoveryDisposition]

def descriptor (input : ActionEvaluationInput) (action : ActionKind) : ActionDescriptor where
  action
  target := input.facts.subject
  expectedProjectRevision := input.facts.snapshotRevision
  expectedEntityRevision := input.facts.subject.revision
  expectedProofRevision := currentProofRevision input.facts
  attempt := currentAttempt input.facts
  requiredRoles := requiredRoles input.facts action
  requiredInputs := requiredInputs input.facts action
  confirmation := confirmationFor action
  readOnly := isReadOnly action
  recovery := isRecoveryAction action

section Denials

variable (facts : DecisionInputs) (descriptor : ActionDescriptor) (request : ActionRequest)

/-- The request must speak about this very snapshot, and as far as its class asks for it, about this
proof and this attempt. -/
def bindingDenial : Option ActionDenialReason :=
  (refuseIf (request.action ≠ descriptor.action ∨
      request.target.projectId ≠ facts.subject.projectId ∨
      request.target.workId ≠ facts.subject.workId) .scopeMismatch).or <|
  (refuseIf (request.target.revision ≠ facts.subject.revision)
    (.staleEntity facts.subject.revision request.target.revision)).or <|
  (refuseIf (request.expectedProjectRevision ≠ facts.snapshotRevision)
    (.staleSnapshot facts.snapshotRevision request.expectedProjectRevision)).or <|
  (refuseIf (request.expectedProofRevision ≠ descriptor.expectedProofRevision ∧
      actionRequiresProof request.action = true)
    (.staleProof descriptor.expectedProofRevision request.expectedProofRevision)).or <|
  refuseIf (actionRequiresAttempt request.action = true ∧ request.attempt ≠ descriptor.attempt)
    (if descriptor.attempt = none then .missingAttempt
    else .staleFence descriptor.attempt request.attempt)

def healthDenial : Option ActionDenialReason :=
  (refuseIf (facts.availability ≠ .live ∧ descriptor.readOnly = false)
    (.availabilityUnavailable facts.availability)).or <|
  (refuseIf (facts.integrity.level = .quarantined ∧ descriptor.readOnly = false ∧
    request.action ≠ .repair ∧ request.action ≠ .recover) .integrityQuarantined).or <|
  (refuseIf (facts.integrity.level = .degraded ∧ descriptor.readOnly = false ∧
    isRecoveryAction request.action = false) .integrityDegraded).or <|
  refuseIf (facts.validate ≠ .ok () ∧ descriptor.readOnly = false ∧ request.action ≠ .repair)
    .invalidFacts

def delegationBroken : PrincipalBinding → Bool
  | .authenticated _ => false
  | .delegated actorId delegationId delegatorId =>
    actorId.value = "" || delegationId.value = "" || delegatorId.value = ""

def roleDenial (authority : ActorAuthorityInput) : Option ActionDenialReason :=
  (refuseIf (descriptor.requiredRoles ≠ [] ∧ authority.role ∉ descriptor.requiredRoles)
    (.roleDenied descriptor.requiredRoles authority.role)).or <|
  refuseIf (delegationBroken authority.principal = true) .delegationInvalid

def proofDenial (action : ActionKind) : Option ActionDenialReason :=
  refuseIf (isProofBound action = true ∧
    facts.execution.asPresent.any (·.proof.isBound) = false ∧
    ¬ (action = .attachEvidence ∧ facts.submission.asPresent.any (·.proof.isBound) = true))
    .invalidFacts

def ownerDenial (action : ActionKind) (authority : ActorAuthorityInput) :
    Option ActionDenialReason :=
  (refuseIf (requiresAttemptOwner action = true ∧
    (ownerSession facts).any (fun session => authority.sessionId ≠ some session) = true)
    .attemptOwnerMismatch).or <|
  (refuseIf (actionRequiresSession action = true ∧ authority.sessionId = none) .policyDenied).or <|
  refuseIf (requiresAttemptOwner action = true ∧
    currentAttemptActor facts ≠ some authority.actorId) .attemptOwnerMismatch

def holdDenial (action : ActionKind) : Option ActionDenialReason :=
  match activeHold facts with
  | .error reason => some reason
  | .ok none => none
  | .ok (some hold) => refuseIf (isHoldCompatible action = false) (.holdActive hold.code)

def permissionDenial (action : ActionKind) : Option ActionDenialReason :=
  (mappedPermission action).bind fun permission =>
    refuseIf (permission ∉ facts.permittedActions.allowed ∨
      facts.permittedActions.denied.any (·.action = permission) = true) .policyDenied

end Denials

section StatusDenial

variable (facts : DecisionInputs) (status : DerivedStatus)

def phaseDenial (phases : List AttemptPhase) : Option ActionDenialReason :=
  match facts.execution.asPresent with
  | none => some .missingAttempt
  | some attempt => refuseIf (attempt.phase ∉ phases) (.attemptPhaseDenied attempt.phase)

def statusIn (statuses : List DerivedStatus) : Option ActionDenialReason :=
  refuseIf (status ∉ statuses) (.statusDenied status)

/-- Work under way: both the phase of the attempt and the status say so. -/
def progressDenial : Option ActionDenialReason :=
  match facts.execution.asPresent with
  | none => some .missingAttempt
  | some attempt =>
    refuseIf (¬ (attempt.phase ∈ [.running, .verifying] ∧
      status ∈ [.inProgress, .needsVerification])) (.attemptPhaseDenied attempt.phase)

def sharesSubmissionRoot : Bool :=
  facts.submission.asPresent.any fun submission =>
    facts.authority.asPresent.any fun authority => authority.authorityRoot = submission.authorityRoot

def reviewDenial (actorId : ActorId) : Option ActionDenialReason :=
  if status ∈ [.awaitingReview, .blocked] ∧ facts.submission.asPresent.isSome then
    refuseIf (currentAttemptActor facts = some actorId ∨ sharesSubmissionRoot facts = true ∨
      facts.review.asPresent.any (·.attemptActorId = actorId) = true) .reviewNotIndependent
  else some (.statusDenied status)

def isUnfavourable : ReviewOutcome → Bool
  | .rejected | .returned | .revoked => true
  | _ => false

def closesBlocked : Bool :=
  !facts.review.asPresent.any (fun review => isUnfavourable review.outcome) &&
    (facts.execution.asPresent.any (fun attempt =>
      attempt.phase = .running || attempt.phase = .verifying) ||
    facts.submission.asPresent.any (·.state = .sealed))

def statusDenial (action : ActionKind) (actorId : ActorId) : Option ActionDenialReason :=
  match action with
  | .inspect | .readHistory | .readOperation | .export => none
  | .publish => statusIn status [.draft]
  | .claim =>
    if facts.dispatchPolicy = .paused then some .policyDenied else statusIn status [.ready]
  | .acceptAttempt => phaseDenial facts [.claimed]
  | .startAttempt => phaseDenial facts [.accepted]
  | .attachEvidence =>
    if facts.submission.asPresent.isSome ∧
        status ∈ [.needsVerification, .awaitingReview, .blocked] then none
    else progressDenial facts status
  | .checkpoint => progressDenial facts status
  | .submit => phaseDenial facts [.running]
  | .requestReview =>
    if facts.submission.asPresent.isNone then some .missingSubmission
    else statusIn status [.awaitingReview]
  | .review => reviewDenial facts status actorId
  | .finishClose =>
    refuseIf (¬ (status ∈ [.inProgress, .needsVerification, .awaitingReview, .complete, .blocked] ∧
      (status ≠ .blocked ∨ closesBlocked facts = true))) (.statusDenied status)
  | .close =>
    if status = .complete then refuseIf (facts.submission.asPresent = none) .missingSubmission
    else some (.statusDenied status)
  | .stop =>
    refuseIf (facts.execution.asPresent = none ∧ unresolvedRecovery facts = false)
      .recoveryRequired
  | .release => refuseIf (facts.execution.asPresent = none) .missingAttempt
  | .pausePolicy | .cancel => refuseIf (status ∈ [.closed, .cancelled]) (.statusDenied status)
  | .resumePolicy => statusIn status [.paused, .retryWait]
  | .reopen => statusIn status [.closed, .cancelled]
  | .retry =>
    refuseIf (status ∈ [.closed, .cancelled, .draft] ∨ facts.execution.asPresent ≠ none ∨
      unresolvedRecovery facts = true) .recoveryRequired
  | .revokeReview =>
    if facts.submission.asPresent.isSome ∧ facts.review.asPresent.isSome then
      refuseIf (sharesSubmissionRoot facts = true) .reviewNotIndependent
    else some .missingSubmission
  | .revokeException => refuseIf (facts.requirements.asPresent = none) .invalidFacts
  | .resolveHold =>
    match activeHold facts with
    | .ok (some _) => none
    | _ => some .noActiveHold
  | .waiveDependency =>
    refuseIf (¬ (status ∈ [.queued, .blocked] ∧ facts.dependencies.asPresent.isSome))
      (.statusDenied status)
  | .forceGate =>
    refuseIf (¬ (status ∈ [.blocked, .needsVerification] ∧ facts.requirements.asPresent.isSome))
      (.statusDenied status)
  | .recover =>
    refuseIf (status ≠ .expiredReview ∧ unresolvedRecovery facts = false) .recoveryRequired
  | .reconcileResource => refuseIf (facts.recovery.asPresent = none) .recoveryRequired
  | .repair =>
    refuseIf (facts.integrity.level = .valid ∧ facts.validate = .ok ()) .actionNotApplicable

end StatusDenial

/-- The first denial along the chain. -/
def denyReason (input : ActionEvaluationInput) (descriptor : ActionDescriptor)
    (request : ActionRequest) : Option ActionDenialReason :=
  match authority input.facts with
  | .error reason => some reason
  | .ok authority =>
    (bindingDenial input.facts descriptor request).or <|
    (healthDenial input.facts descriptor request).or <|
    (roleDenial descriptor authority).or <|
    (proofDenial input.facts request.action).or <|
    (ownerDenial input.facts request.action authority).or <|
    (holdDenial input.facts request.action).or <|
    (permissionDenial input.facts request.action).or <|
    statusDenial input.facts input.status request.action authority.actorId

def routesFor (attempted : Bool) : ActionDenialReason → List ActionKind
  | .staleSnapshot _ _ | .staleEntity _ _ | .staleProof _ _ | .staleFence _ _
  | .availabilityUnavailable _ => [.inspect, .readOperation]
  | .integrityQuarantined | .integrityDegraded | .invalidFacts => [.inspect, .export, .repair]
  | .holdActive _ => [.inspect, .resolveHold] ++ reportIf (attempted = true) .stop
  | .statusDenied .blocked | .statusDenied .expiredReview | .recoveryRequired =>
    [.inspect, .readHistory, .recover] ++ reportIf (attempted = true) .stop
  | .roleDenied _ _ | .unauthenticated | .attemptPhaseDenied _ => [.inspect, .readHistory]
  | .missingSubmission => [.inspect, .attachEvidence]
  | .reviewNotIndependent => [.inspect, .requestReview]
  | .noActiveHold => [.inspect]
  | .policyDenied | .scopeMismatch | .delegationInvalid | .actionNotApplicable | .missingAttempt
  | .attemptOwnerMismatch | .statusDenied _ => []

def recoveryRoutes (input : ActionEvaluationInput) (action : ActionKind)
    (reason : ActionDenialReason) : List ActionKind :=
  sortDedup ActionKind.ctorIdx <|
    routesFor (currentAttempt input.facts).isSome reason ++
    reportIf (action ≠ .inspect ∧ isReadOnly action = true) .inspect

def evaluateAction (input : ActionEvaluationInput) (request : ActionRequest) :
    ActionAuthorization :=
  let descriptor := descriptor input request.action
  match denyReason input descriptor request with
  | some reason => .denied ⟨descriptor, reason, recoveryRoutes input request.action reason⟩
  | none => .allowed descriptor

def recordAuthorization (decision : ActionDecision) : ActionAuthorization → ActionDecision
  | .allowed descriptor => { decision with allowed := decision.allowed ++ [descriptor] }
  | .denied denied => { decision with denied := decision.denied ++ [denied] }

def evaluateActions (input : ActionEvaluationInput) : ActionDecision :=
  allActionKinds.foldl (fun decision action => recordAuthorization decision
    (evaluateAction input (descriptor input action).request)) ⟨[], []⟩

end Boreal.Actions
