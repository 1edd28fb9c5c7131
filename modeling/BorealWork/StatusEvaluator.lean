/- The status contract: one precedence pass over the work row, its attempt, its proof facts and the
clock, with every applicable reason collected beside the primary one. -/
import BorealWork.DecisionInputs
import BorealWork.Rollups
import BorealWork.WorkItems

namespace Boreal.Status
open Decision WorkModel TimePolicy Sorting Checks

inductive ReasonCode
  | terminalClosed
  | terminalCancelled
  | expiryReviewRequired
  | hardHold (reason : String)
  | notPublished
  | attemptUnaccepted
  | attemptActive
  | verificationRequired
  | reviewRequired
  | closeoutPending
  | prerequisiteOpen (id : WorkId)
  | paused
  | retryNotBefore (moment : TimestampMs)
  | scheduledStart (moment : TimestampMs)
  | externalWaitOpen (id : String)
  | eligible
  | operatorOnly
  | nonExecutableContainer
  | leaseElapsed
  | hardBudgetElapsed
  | gateOpen (id : GateId)
  | gateFailed (id : GateId)
  | gateMissing (id : GateId)
  | gateInvalid (id : GateId)
  | reviewRejected (id : GateId)
  | roleDenied
  | attemptSubjectMismatch
  | containerPlanning
  deriving DecidableEq

def ReasonCode.stableCode : ReasonCode → String
  | .terminalClosed => "terminal_closed"
  | .terminalCancelled => "terminal_cancelled"
  | .expiryReviewRequired => "expiry_review_required"
  | .hardHold reason => reason
  | .notPublished => "not_published"
  | .attemptUnaccepted => "attempt_unaccepted"
  | .attemptActive => "attempt_active"
  | .verificationRequired => "verification_required"
  | .reviewRequired => "review_required"
  | .closeoutPending => "closeout_pending"
  | .prerequisiteOpen id => "prerequisite_open(" ++ id.value ++ ")"
  | .paused => "paused"
  | .retryNotBefore moment => "retry_not_before(" ++ toString moment.value ++ ")"
  | .scheduledStart moment => "scheduled_start(" ++ toString moment.value ++ ")"
  | .externalWaitOpen id => "external_wait_open(" ++ id ++ ")"
  | .eligible => "eligible"
  | .operatorOnly => "operator_only"
  | .nonExecutableContainer => "non_executable_container"
  | .leaseElapsed => "lease_elapsed"
  | .hardBudgetElapsed => "hard_budget_elapsed"
  | .gateOpen id => "gate_open(" ++ id.value ++ ")"
  | .gateFailed id => "gate_failed(" ++ id.value ++ ")"
  | .gateMissing id => "gate_missing(" ++ id.value ++ ")"
  | .gateInvalid id => "gate_invalid(" ++ id.value ++ ")"
  | .reviewRejected id => "review_rejected(" ++ id.value ++ ")"
  | .roleDenied => "role_denied"
  | .attemptSubjectMismatch => "attempt_subject_mismatch"
  | .containerPlanning => "container_planning"

def sortReasons (reasons : List ReasonCode) : List ReasonCode :=
  sortDedup ReasonCode.stableCode reasons

/-- Interventions go before configuration faults. -/
def hardReasonPriority : ReasonCode → ℕ
  | .hardHold code =>
    if code = "integrity_quarantined" then 32
    else if code = "requirements_missing" then 33
    else 30
  | .reviewRejected _ => 31
  | .attemptSubjectMismatch => 32
  | .gateInvalid _ => 32
  | .gateMissing _ => 33
  | _ => 34

def selectHardReason (reasons : List ReasonCode) : Option ReasonCode :=
  reasons.argmin fun reason => toLex (hardReasonPriority reason, reason.stableCode)

inductive DomainAction
  | publishWork
  | claim
  | acceptAttempt
  | resumeAttempt
  | provideEvidence
  | requestReview
  | finishClose
  | waitForPrerequisite
  | resolveHold
  | resumePolicy
  | waitUntil
  | reviewExpiry
  | requestOperatorClaim
  deriving DecidableEq

structure GateRequirement where
  id : GateId
  kind : GateKind
  required : Bool
  state : GateState
  deriving DecidableEq

structure AcceptanceProfile where
  id : ProfileId
  version : String
  gates : List GateRequirement
  deriving DecidableEq

structure ActorContext where
  actorId : ActorId
  role : ActorRole
  deriving DecidableEq

/-- The work row with the columns that status reads besides its place in the hierarchy. -/
structure WorkItem extends Boreal.WorkItem where
  lifecycle : PersistedLifecycle
  dispatchPolicy : DispatchPolicy
  hardHolds : List ReasonCode
  acceptanceProfile : AcceptanceProfile
  deriving DecidableEq

inductive ExternalWaitPersistedState
  | open
  | resolved
  | cancelled
  | unknown
  deriving DecidableEq

structure ExternalWaitScopeInput where
  projectId : ProjectId
  waitId : String
  affectedWorkId : WorkId
  state : ExternalWaitPersistedState
  followUp : Option BusinessDate
  civilTimeSettingRevision : Option ℕ
  deriving DecidableEq

structure StatusContext where
  work : WorkItem
  prerequisites : List WorkItem
  currentAttempt : Option Attempt
  gates : List GateRequirement
  actor : ActorContext
  asOf : TimestampMs
  projectRevision : Revision
  retryNotBefore : Option TimestampMs
  schedule : Option WorkSchedule
  businessSchedule : Option BusinessSchedule
  businessScheduleRevision : Option ℕ
  businessScheduleSettingRevision : Option ℕ
  businessTime : Option BusinessTimeContext
  businessNotBeforeAt : Option TimestampMs
  businessScheduleNextChangeAt : Option TimestampMs
  externalWaitNextChangeAt : Option TimestampMs
  externalWaits : List ExternalWaitScopeInput
  activationAt : Option TimestampMs
  affectedDependents : List WorkId
  deriving DecidableEq

structure CurrentAttempt where
  attemptId : AttemptId
  fence : Fence
  phase : AttemptPhase
  deriving DecidableEq

structure StatusDecision where
  workId : WorkId
  projectRevision : Revision
  asOf : TimestampMs
  nextStatusChangeAt : Option TimestampMs
  dueToday : Bool
  overdue : Bool
  blockingExternalWaitIds : List String
  followUpDueWaitIds : List String
  displayStatus : DerivedStatus
  primaryReason : ReasonCode
  reasonCodes : List ReasonCode
  claimableForActor : Bool
  nextAction : Option DomainAction
  currentAttempt : Option CurrentAttempt
  gateGaps : List GateId
  affectedDependents : List WorkId
  deriving DecidableEq

structure PrimaryDecision where
  status : DerivedStatus
  claimable : Bool
  action : Option DomainAction
  reason : ReasonCode
  deriving DecidableEq

namespace StatusContext

variable (context : StatusContext) (facts : Option DecisionInputs)

def isHistorical : AttemptPhase → Bool
  | .failed | .released | .cancelled => true
  | _ => false

def attempt : Option Attempt :=
  context.currentAttempt.filter fun current => !isHistorical current.phase

def liveAttempt : Option Attempt := context.attempt.filter fun current => !current.phase.isTerminal

def expiry : Option ExpiryReason :=
  context.liveAttempt.bind fun current => current.expiryReason context.asOf

def durableRecovery : Option RecoveryInput :=
  (facts.bind (·.recovery.asPresent)).filter (·.unresolved)

def submitted : Bool :=
  (facts.bind (·.submission.asPresent)).any fun submission => submission.state = .sealed

def isExpiredPhase : AttemptPhase → Bool
  | .expiryPending | .expired => true
  | _ => false

def expiryPending : Bool :=
  (durableRecovery facts).any (·.reason = .expired) || context.expiry.isSome ||
    context.attempt.any fun current => isExpiredPhase current.phase

/-- A finished proof phase, in which open gates are worth reporting. -/
def isProofPhase : AttemptPhase → Bool
  | .verifying | .completed => true
  | _ => false

def terminal : Bool := context.work.lifecycle.isTerminal

def retryAt : Option TimestampMs := context.retryNotBefore.filter (context.asOf < ·)

def scheduleDecision : Option (Except TimePolicyError ScheduleDecision) :=
  context.schedule.map fun schedule => evaluateSchedule schedule context.asOf context.terminal

def isError {ε α : Type} : Except ε α → Bool
  | .error _ => true
  | .ok _ => false

def scheduleInvalid : Bool := context.scheduleDecision.any isError

def scheduleView : Option ScheduleDecision := context.scheduleDecision.bind Except.toOption

def workScheduleAt : Option TimestampMs :=
  if context.terminal then none
  else ((context.scheduleView.filter (·.scheduled)).bind fun _ =>
    context.schedule.bind (·.notBeforeAt)).filter (context.asOf < ·)

def futureActivationAt : Option TimestampMs :=
  if context.terminal then none else context.activationAt.filter (context.asOf < ·)

def scheduleNextChangeAt : Option TimestampMs := context.scheduleView.bind (·.nextChangeAt)

def scheduleHasLocalDates (schedule : BusinessSchedule) : Bool :=
  schedule.values.any (·.isLocalDate)

def scheduleRequiresProjectClock (schedule : BusinessSchedule) : Bool :=
  schedule.notBefore.any (·.isLocalDate)

/-- The schedule read against the instant alone, when no civil date is needed. -/
def instantScheduleView (schedule : BusinessSchedule) : BusinessScheduleView :=
  let notBefore := schedule.notBefore.bind BusinessDate.asInstant
  let due := schedule.due.bind BusinessDate.asInstant
  { available := notBefore.all (· ≤ context.asOf)
    dueToday := false
    overdue := !context.terminal && due.any (· ≤ context.asOf)
    nextChanges := ((notBefore.filter (context.asOf < ·)).toList ++
      (if context.terminal then none else due.filter (context.asOf < ·)).toList).map .instant }

def civilTimeMatches (businessTime : BusinessTimeContext) (settingRevision : Option ℕ) : Bool :=
  businessTime.asOf = context.asOf && businessTime.projectId = context.work.projectId &&
    settingRevision.all (· ≤ businessTime.settingRevision)

def evaluateBusiness (schedule : BusinessSchedule) : Except ModelError BusinessScheduleView := do
  schedule.validate
  if context.businessScheduleRevision = some 0 ∨ (context.businessScheduleRevision.isSome ∧
      scheduleHasLocalDates schedule ∧ context.businessScheduleSettingRevision = none) then
    .error (.invalidSchedule "revisioned date-only schedule is missing its setting revision")
  else match context.businessTime with
    | some businessTime =>
      if context.civilTimeMatches businessTime context.businessScheduleSettingRevision = false then
        .error (.invalidSchedule
          "business schedule context does not match the current project clock")
      else evaluateBusinessSchedule schedule businessTime context.terminal
    | none =>
      if scheduleRequiresProjectClock schedule then
        .error (.invalidSchedule
          "date-only not-before schedule requires a validated project civil-time context")
      else .ok (context.instantScheduleView schedule)

def businessDecision : Option (Except ModelError BusinessScheduleView) :=
  context.businessSchedule.map context.evaluateBusiness

def businessScheduleInvalid : Bool := context.businessDecision.any isError

def businessView : Option BusinessScheduleView := context.businessDecision.bind Except.toOption

def businessAvailable : Bool := context.businessView.all (·.available)

def declaredStart : BusinessDate → Option TimestampMs
  | .localDate _ => context.businessNotBeforeAt
  | value => value.asInstant

def futureBusinessNotBeforeAt : Option TimestampMs :=
  if context.businessAvailable || context.terminal then none
  else ((context.businessSchedule.bind (·.notBefore)).bind context.declaredStart).filter
    (context.asOf < ·)

def futureInstant (asOf : TimestampMs) :
    BusinessDateBoundary → Option TimestampMs
  | .instant moment => if asOf < moment then some moment else none
  | .localDateStart _ => none

def nextBusinessChangeAt : Option TimestampMs :=
  context.businessScheduleNextChangeAt.or (context.businessView.bind fun view =>
    (view.nextChanges.filterMap (futureInstant context.asOf)).min?)

def scheduledAt : Option TimestampMs :=
  (context.workScheduleAt.toList ++ context.futureActivationAt.toList ++
    context.futureBusinessNotBeforeAt.toList).min?

structure WaitVerdict where
  blocking : Bool
  followUpDue : Bool
  invalid : Bool
  deriving DecidableEq

def judgeFollowUp (wait : ExternalWaitScopeInput) (followUp : BusinessDate) : WaitVerdict :=
  if isError followUp.validate ∨ followUp.isLocalDate ≠ wait.civilTimeSettingRevision.isSome then
    ⟨true, false, true⟩
  else match context.businessTime with
    | some businessTime =>
      if context.civilTimeMatches businessTime wait.civilTimeSettingRevision = false then
        ⟨true, false, true⟩
      else ⟨true, match followUp with
        | .localDate date => date ≤ businessTime.civilDate
        | value => value.asInstant.any (· ≤ context.asOf), false⟩
    | none =>
      if followUp.isLocalDate then ⟨true, false, true⟩
      else ⟨true, followUp.asInstant.any (· ≤ context.asOf), false⟩

/-- A wait whose outcome is unknown keeps blocking, and is an intervention besides. -/
def judgeWait (wait : ExternalWaitScopeInput) : WaitVerdict :=
  if wait.projectId ≠ context.work.projectId then ⟨false, false, true⟩
  else match wait.state with
    | .resolved | .cancelled => ⟨false, false, false⟩
    | .unknown => ⟨true, false, true⟩
    | .open => match wait.followUp with
        | none => ⟨true, false, false⟩
        | some followUp => context.judgeFollowUp wait followUp

def scopedWaits : List ExternalWaitScopeInput :=
  context.externalWaits.filter (·.affectedWorkId = context.work.id)

def blockingExternalWaitIds : List String :=
  sortDedup id ((context.scopedWaits.filter (context.judgeWait · |>.blocking)).map (·.waitId))

def followUpDueWaitIds : List String :=
  sortDedup id ((context.scopedWaits.filter (context.judgeWait · |>.followUpDue)).map (·.waitId))

def externalWaitInvalid : Bool := context.scopedWaits.any (context.judgeWait · |>.invalid)

def exceptionSatisfies (gateId : GateId) : Bool :=
  facts.any fun facts => facts.requirements.asPresent.any fun requirements =>
    (requirements.requirements.find? (·.gateId = gateId)).any fun gate =>
      gate.exception.any fun exception =>
        exception.applies gate.state facts.subject.revision requirements.proof.proofRevision
          context.asOf

def reviewOutcomeCode : ReviewOutcome → Option String
  | .rejected => some "review_rejected"
  | .returned => some "review_returned"
  | .revoked => some "review_revoked"
  | _ => none

def isFailedReview (gate : GateRequirement) : Bool :=
  gate.required && gate.kind = .review && gate.state = .failed &&
    !context.exceptionSatisfies facts gate.id

def reviewHolds : List ReasonCode :=
  ((facts.bind (·.review.asPresent)).bind (reviewOutcomeCode ·.outcome)).toList.flatMap fun code =>
    reportIf (context.gates.any (context.isFailedReview facts) = true) (.hardHold code)

def attemptMismatch : Bool :=
  context.attempt.any fun current =>
    current.workId ≠ context.work.id || context.work.kind ≠ .task

/-- A declaration without a row, or with a row that disagrees, is a configuration fault. -/
def declarationReasons (declared : GateRequirement) : List ReasonCode :=
  match context.gates.find? (·.id = declared.id) with
  | none => reportIf (declared.required = true) (.gateMissing declared.id)
  | some actual =>
    reportIf (actual.kind ≠ declared.kind ∨ actual.required ≠ declared.required)
      (.gateInvalid declared.id)

def repeatedGateReasons : List ReasonCode :=
  scan (repeated GateRequirement.id fun gate => ReasonCode.gateInvalid gate.id) [] context.gates

def configurationReasons : List ReasonCode :=
  context.work.acceptanceProfile.gates.flatMap context.declarationReasons ++
    context.repeatedGateReasons

def isGap (gate : GateRequirement) : Bool :=
  gate.required && gate.state ≠ .satisfied && !context.exceptionSatisfies facts gate.id

def undeclaredGaps : List GateId :=
  (context.work.acceptanceProfile.gates.filter fun declared =>
    declared.required && declared.id ∉ context.gates.map (·.id)).map (·.id)

def gaps : List GateId :=
  sortDedup id ((context.gates.filter (context.isGap facts)).map (·.id) ++ context.undeclaredGaps)

def interventionReasons : List ReasonCode :=
  context.work.hardHolds ++
  reportIf (facts.any (fun facts => isError facts.validate) = true)
    (.hardHold "integrity_quarantined") ++
  reportIf ((durableRecovery facts).any (·.reason ≠ .expired) = true)
    (.hardHold "recovery_required") ++
  context.reviewHolds facts ++
  reportIf (context.scheduleInvalid = true) (.hardHold "schedule_invalid") ++
  reportIf (context.businessScheduleInvalid = true) (.hardHold "business_schedule_invalid") ++
  reportIf (context.externalWaitInvalid = true) (.hardHold "external_wait_invalid")

def rejectedReviews : List ReasonCode :=
  (context.gates.filter (context.isFailedReview facts)).map fun gate => .reviewRejected gate.id

def hardReasons : List ReasonCode :=
  context.interventionReasons facts ++
  reportIf (context.attemptMismatch = true) .attemptSubjectMismatch ++
  context.configurationReasons ++ context.rejectedReviews facts

/-- Accepted outcomes decide the prerequisites; without them the prerequisite rows do. -/
def openPrerequisites : List ReasonCode :=
  match facts.bind (·.dependencies.asPresent) with
  | some dependencies =>
    (dependencies.edges.filter fun edge => edge.outcome ≠ .closed && edge.waiver.isNone).map
      fun edge => .prerequisiteOpen edge.predecessor.workId
  | none =>
    (context.prerequisites.filter fun item => item.lifecycle ≠ .closed).map
      fun item => .prerequisiteOpen item.id

def prerequisiteReasons : List ReasonCode :=
  sortReasons (context.openPrerequisites facts ++
    context.blockingExternalWaitIds.map .externalWaitOpen)

def inProofPhase : Bool :=
  submitted facts || context.attempt.any fun current => isProofPhase current.phase

def gateReasons (gate : GateRequirement) : List ReasonCode :=
  match gate.state with
  | .open => reportIf (context.inProofPhase facts = true) (.gateOpen gate.id)
  | .failed => reportIf (context.isFailedReview facts gate = false) (.gateFailed gate.id)
  | .satisfied => []

def isConfiguration : ReasonCode → Bool
  | .gateMissing _ | .gateInvalid _ => true
  | _ => false

def policyReasons : List ReasonCode :=
  match context.work.dispatchPolicy with
  | .paused => [.paused]
  | .operatorOnly => [.operatorOnly]
  | .automatic => []

def attemptReasons : List ReasonCode :=
  context.attempt.toList.flatMap fun current =>
    reportIf (current.leaseDeadline ≤ context.asOf) .leaseElapsed ++
    reportIf (current.maxAttemptDeadline ≤ context.asOf) .hardBudgetElapsed ++
    match current.phase with
    | .claimed => [.attemptUnaccepted]
    | .accepted | .running => [.attemptActive]
    | _ => []

def secondaryReasons : List ReasonCode :=
  (context.gates.filter (·.required)).flatMap (context.gateReasons facts) ++
  context.work.hardHolds ++
  reportIf (context.attemptMismatch = true) .attemptSubjectMismatch ++
  (context.hardReasons facts).filter (fun reason => reason ∉ context.work.hardHolds &&
    reason ≠ .attemptSubjectMismatch && !isConfiguration reason) ++
  (context.hardReasons facts).filter isConfiguration ++
  context.prerequisiteReasons facts ++
  reportIf (context.work.lifecycle = .draft) .notPublished ++
  context.policyReasons ++
  reportIf (context.work.kind = .task ∧
    (context.actor.role = .reviewer ∨ context.actor.role = .publisher)) .roleDenied ++
  context.retryAt.toList.map .retryNotBefore ++
  context.scheduledAt.toList.map .scheduledStart ++
  reportIf (context.expiryPending facts = true) .expiryReviewRequired ++
  context.attemptReasons

def pending (status : DerivedStatus) (action : Option DomainAction) (reason : ReasonCode) :
    PrimaryDecision := ⟨status, false, action, reason⟩

def eligibility (work : WorkItem) (actor : ActorContext) : PrimaryDecision :=
  if work.dispatchPolicy = .operatorOnly then
    let allowed := decide (actor.role = .operator)
    ⟨.ready, allowed, some (if allowed then .claim else .requestOperatorClaim), .operatorOnly⟩
  else match actor.role with
    | .agent => ⟨.ready, true, some .claim, .eligible⟩
    | .operator => pending .ready none .roleDenied
    | _ => pending .ready (some .requestOperatorClaim) .roleDenied

/-- The kind of a gate, not its name, decides whether only reviews are missing. -/
def proofDecision (gates : List GateRequirement) (gaps : List GateId) : PrimaryDecision :=
  if gaps = [] then pending .complete (some .finishClose) .closeoutPending
  else if gaps.all (fun id => gates.any fun gate => gate.id = id && gate.kind = .review) then
    pending .awaitingReview (some .requestReview) .reviewRequired
  else pending .needsVerification (some .provideEvidence) .verificationRequired

def attemptDecision (current : Attempt) : PrimaryDecision :=
  match current.phase with
  | .claimed => pending .claimed (some .acceptAttempt) .attemptUnaccepted
  | .accepted | .running => pending .inProgress (some .resumeAttempt) .attemptActive
  | .verifying | .completed => proofDecision context.gates (context.gaps facts)
  -- The historical phases were filtered before; the expired ones went ahead of this branch.
  | _ => pending .expiredReview (some .reviewExpiry) .expiryReviewRequired

def hasFailedProof : Bool :=
  context.gates.any fun gate => gate.required && gate.state = .failed && gate.kind ≠ .review

/-- Work without an attempt and without a result: what keeps it from being dispatched. -/
def dispatchDecision : PrimaryDecision :=
  if context.work.dispatchPolicy = .paused then pending .paused (some .resumePolicy) .paused
  else match context.retryAt, context.scheduledAt, context.prerequisiteReasons facts with
    | some moment, _, _ => pending .retryWait (some .waitUntil) (.retryNotBefore moment)
    | none, some moment, _ => pending .scheduled (some .waitUntil) (.scheduledStart moment)
    | none, none, reason :: _ => pending .queued (some .waitForPrerequisite) reason
    | none, none, [] =>
      if context.work.kind ≠ .task then pending .queued none .containerPlanning
      else eligibility context.work context.actor

def publishedDecision : PrimaryDecision :=
  match context.attempt with
  | some current => context.attemptDecision facts current
  | none =>
    if submitted facts || context.hasFailedProof then
      proofDecision context.gates (context.gaps facts)
    else context.dispatchDecision facts

def primaryDecision : PrimaryDecision :=
  if context.work.lifecycle = .closed then pending .closed none .terminalClosed
  else if context.work.lifecycle = .cancelled then pending .cancelled none .terminalCancelled
  else if context.expiryPending facts then
    pending .expiredReview (some .reviewExpiry) .expiryReviewRequired
  else match selectHardReason (context.hardReasons facts) with
    | some reason => pending .blocked (some .resolveHold) reason
    | none =>
      if context.work.lifecycle = .draft then pending .draft (some .publishWork) .notPublished
      else context.publishedDecision facts

/-- The instants at which the decision may change. -/
def statusTimers : List TimestampMs :=
  context.liveAttempt.toList.flatMap (fun current =>
    [current.leaseDeadline, current.maxAttemptDeadline]) ++
  context.retryAt.toList ++ context.scheduledAt.toList ++ context.scheduleNextChangeAt.toList ++
  context.nextBusinessChangeAt.toList ++ context.externalWaitNextChangeAt.toList

def nextStatusChangeAt : Option TimestampMs :=
  if context.terminal || context.expiryPending facts then none
  else (context.statusTimers.filter (context.asOf < ·)).min?

end StatusContext

def evaluateStatusInner (context : StatusContext) (facts : Option DecisionInputs) :
    StatusDecision :=
  let primary := context.primaryDecision facts
  { workId := context.work.id
    projectRevision := context.projectRevision
    asOf := context.asOf
    nextStatusChangeAt := context.nextStatusChangeAt facts
    dueToday := context.businessView.any (·.dueToday)
    overdue := context.businessView.any (·.overdue)
    blockingExternalWaitIds := context.blockingExternalWaitIds
    followUpDueWaitIds := context.followUpDueWaitIds
    displayStatus := primary.status
    primaryReason := primary.reason
    reasonCodes := primary.reason ::
      sortReasons ((context.secondaryReasons facts).filter (· ≠ primary.reason))
    claimableForActor := primary.claimable
    nextAction := primary.action
    currentAttempt := context.attempt.map fun current =>
      ⟨current.attemptId, current.fence, current.phase⟩
    gateGaps := context.gaps facts
    affectedDependents := sortDedup id context.affectedDependents }

def evaluateStatus (context : StatusContext) : StatusDecision := evaluateStatusInner context none

def evaluateCanonicalStatus (context : StatusContext) (facts : DecisionInputs) : StatusDecision :=
  evaluateStatusInner context (some facts)

end Boreal.Status
