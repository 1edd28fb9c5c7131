/- The time policy: clock samples, attempt deadlines, lease renewal, schedules and retries, each a
function of an injected clock. -/
import BorealWork.Attempts
import BorealWork.Library.Drain
import BorealWork.Library.Sorting

namespace Boreal

structure WorkModel.WorkSchedule where
  notBeforeAt : Option TimestampMs
  dueAt : Option TimestampMs
  targetStartAt : Option TimestampMs
  targetEndAt : Option TimestampMs
  deriving DecidableEq

namespace TimePolicy
open Sorting WorkModel

inductive DeadlineKind
  | lease
  | hardBudget
  deriving DecidableEq

inductive TimePolicyError
  | timestampOverflow
  | deadlineNotAfterClaim (kind : DeadlineKind) (claimedAt deadline : TimestampMs)
  | invalidSchedule
  | invalidBackoffBounds
  | backoffOverflow
  | missingExpiryReason
  | renewalDeadlineNotAfterNow (asOf deadline : TimestampMs)
  | renewalShortensLease (previous candidate : TimestampMs)
  deriving DecidableEq

/-- Instants are 64-bit milliseconds. -/
def addTimestamp (timestamp : TimestampMs) (durationMs : ℕ) : Except TimePolicyError TimestampMs :=
  if timestamp.value + durationMs < 2 ^ 64 then .ok ⟨timestamp.value + durationMs⟩
  else .error .timestampOverflow

/-- A restart whose elapsed time was measured, or was lost. -/
structure RestartObservation where
  persistedAt : TimestampMs
  monotonicElapsedMs : Option ℕ
  deriving DecidableEq

structure PolicyClock where
  observedAt : TimestampMs
  previousObservedAt : Option TimestampMs
  restart : Option RestartObservation
  deriving DecidableEq

inductive ClockValidity
  | trusted
  | backwardDiscontinuity (previous observed : TimestampMs)
  | unvalidatedRestart (persisted observed : TimestampMs)
  deriving DecidableEq

def ClockValidity.allowsMutation : ClockValidity → Bool
  | .trusted => true
  | _ => false

def ClockValidity.needsReconciliation (validity : ClockValidity) : Bool := !validity.allowsMutation

structure ClockView where
  observedAt : TimestampMs
  effectiveAt : TimestampMs
  validity : ClockValidity
  deriving DecidableEq

/-- A sample taken before the previous one counts as the previous one, and is not trusted. -/
def PolicyClock.afterPrevious (clock : PolicyClock) : TimestampMs × ClockValidity :=
  match clock.previousObservedAt with
  | none => (clock.observedAt, .trusted)
  | some previous =>
    if clock.observedAt < previous then
      (previous, .backwardDiscontinuity previous clock.observedAt)
    else (clock.observedAt, .trusted)

/-- A restart never turns the clock back, and only a measured one keeps it trusted. -/
def afterRestart (observedAt effectiveAt : TimestampMs) (validity : ClockValidity) :
    Option RestartObservation → Except TimePolicyError ClockView
  | none => .ok ⟨observedAt, effectiveAt, validity⟩
  | some ⟨persistedAt, none⟩ =>
    .ok ⟨observedAt, max effectiveAt persistedAt, .unvalidatedRestart persistedAt observedAt⟩
  | some ⟨persistedAt, some elapsed⟩ => match addTimestamp persistedAt elapsed with
      | .error error => .error error
      | .ok monotonicAt =>
        .ok ⟨observedAt, max (max effectiveAt persistedAt) monotonicAt, validity⟩

def PolicyClock.resolve (clock : PolicyClock) : Except TimePolicyError ClockView :=
  afterRestart clock.observedAt clock.afterPrevious.1 clock.afterPrevious.2 clock.restart

section Attempt

structure AttemptWindow where
  claimedAt : TimestampMs
  leaseDeadline : TimestampMs
  hardDeadline : TimestampMs
  leaseAfterClaim : claimedAt < leaseDeadline
  hardAfterClaim : claimedAt < hardDeadline

namespace AttemptWindow

def new (claimedAt leaseDeadline hardDeadline : TimestampMs) :
    Except TimePolicyError AttemptWindow :=
  if lease : leaseDeadline ≤ claimedAt then
    .error (.deadlineNotAfterClaim .lease claimedAt leaseDeadline)
  else if hard : hardDeadline ≤ claimedAt then
    .error (.deadlineNotAfterClaim .hardBudget claimedAt hardDeadline)
  else .ok ⟨claimedAt, leaseDeadline, hardDeadline, not_le.mp lease, not_le.mp hard⟩

def fromAttempt (attempt : Attempt) : Except TimePolicyError AttemptWindow :=
  new attempt.claimedAt attempt.leaseDeadline attempt.maxAttemptDeadline

variable (window : AttemptWindow) (asOf : TimestampMs)

def leaseElapsed : Bool := window.leaseDeadline ≤ asOf

def hardBudgetElapsed : Bool := window.hardDeadline ≤ asOf

def expiryReason : Option ExpiryReason :=
  match window.leaseElapsed asOf, window.hardBudgetElapsed asOf with
  | false, false => none
  | true, false => some .leaseElapsed
  | false, true => some .hardBudgetElapsed
  | true, true =>
    if window.leaseDeadline < window.hardDeadline then some .leaseElapsed
    else some .hardBudgetElapsed

def futureDeadlines : List TimestampMs :=
  [window.leaseDeadline, window.hardDeadline].filter (asOf < ·)

end AttemptWindow

inductive RecoveryState
  | none
  | pending
  deriving DecidableEq

structure AttemptSnapshot where
  attempt : Attempt
  current : Bool
  recovery : RecoveryState
  retainedExpiryReason : Option ExpiryReason
  deriving DecidableEq

namespace AttemptSnapshot

variable (snapshot : AttemptSnapshot)

def isExecuting : AttemptPhase → Bool
  | .claimed | .accepted | .running | .verifying => true
  | _ => false

def isExpiring : AttemptPhase → Bool
  | .expiryPending | .expired => true
  | _ => false

def timingIsApplicable : Bool :=
  if snapshot.current then isExecuting snapshot.attempt.phase || isExpiring snapshot.attempt.phase
  else snapshot.recovery = .pending

def ownsExecution : Bool := snapshot.current && isExecuting snapshot.attempt.phase

def phaseRequiresReview : Bool := snapshot.current && isExpiring snapshot.attempt.phase

end AttemptSnapshot

structure AuthorityToken where
  attemptId : AttemptId
  fence : Fence
  deriving DecidableEq

inductive AuthorityDecision
  | notRequested
  | authorized
  | staleAttempt
  | staleFence
  | historicalAttempt
  | terminalAttempt
  | leaseElapsed
  | hardBudgetElapsed
  | clockDiscontinuity
  | clockBeforeClaim
  deriving DecidableEq

structure AttemptTimeDecision where
  current : Bool
  executionOwned : Bool
  leaseElapsed : Bool
  hardBudgetElapsed : Bool
  expired : Bool
  expiryReason : Option ExpiryReason
  reviewRequired : Bool
  authority : AuthorityDecision
  nextReevaluationAt : Option TimestampMs
  deriving DecidableEq

/-- The first obstacle to the presented authority. -/
def decideAuthority (snapshot : AttemptSnapshot) (clock : ClockView) (window : AttemptWindow)
    (hardBudgetElapsed leaseElapsed : Bool) : Option AuthorityToken → AuthorityDecision
  | none => .notRequested
  | some token =>
    if snapshot.current = false then .historicalAttempt
    else if clock.effectiveAt < window.claimedAt then .clockBeforeClaim
    else if token.attemptId ≠ snapshot.attempt.attemptId then .staleAttempt
    else if token.fence ≠ snapshot.attempt.fence then .staleFence
    else if snapshot.ownsExecution = false then .terminalAttempt
    else if clock.validity.allowsMutation = false then .clockDiscontinuity
    else if hardBudgetElapsed then .hardBudgetElapsed
    else if leaseElapsed then .leaseElapsed
    else .authorized

section Snapshot

variable (snapshot : AttemptSnapshot) (window : AttemptWindow) (asOf : TimestampMs)

def AttemptSnapshot.leaseElapsed : Bool := snapshot.timingIsApplicable && window.leaseElapsed asOf

def AttemptSnapshot.hardBudgetElapsed : Bool :=
  snapshot.timingIsApplicable && window.hardBudgetElapsed asOf

def AttemptSnapshot.reviewRequired : Bool :=
  decide (snapshot.recovery = .pending) || snapshot.phaseRequiresReview

def AttemptSnapshot.expired : Bool :=
  snapshot.timingIsApplicable && (snapshot.leaseElapsed window asOf ||
    snapshot.hardBudgetElapsed window asOf || snapshot.reviewRequired)

/-- The retained trigger goes before the one that the deadlines give. -/
def AttemptSnapshot.expiryReason : Option ExpiryReason :=
  snapshot.retainedExpiryReason.or (window.expiryReason asOf)

end Snapshot

def decideAttempt (snapshot : AttemptSnapshot) (clock : ClockView) (window : AttemptWindow)
    (presented : Option AuthorityToken) : AttemptTimeDecision :=
  let leaseElapsed := snapshot.leaseElapsed window clock.effectiveAt
  let hardBudgetElapsed := snapshot.hardBudgetElapsed window clock.effectiveAt
  let expired := snapshot.expired window clock.effectiveAt
  { current := snapshot.current
    executionOwned := snapshot.ownsExecution
    leaseElapsed
    hardBudgetElapsed
    expired
    expiryReason := if expired then snapshot.expiryReason window clock.effectiveAt else none
    reviewRequired := snapshot.reviewRequired
    authority := decideAuthority snapshot clock window hardBudgetElapsed leaseElapsed presented
    nextReevaluationAt :=
      if snapshot.timingIsApplicable && !clock.validity.needsReconciliation && !expired &&
          !snapshot.reviewRequired then (window.futureDeadlines clock.effectiveAt).min?
      else none }

def evaluateAttempt (snapshot : AttemptSnapshot) (clock : PolicyClock)
    (presented : Option AuthorityToken) : Except TimePolicyError AttemptTimeDecision := do
  let clock ← clock.resolve
  let window ← AttemptWindow.fromAttempt snapshot.attempt
  if snapshot.expired window clock.effectiveAt = true ∧
      snapshot.expiryReason window clock.effectiveAt = none then
    .error .missingExpiryReason
  else .ok (decideAttempt snapshot clock window presented)

structure LeaseRenewal where
  previousLeaseDeadline : TimestampMs
  newLeaseDeadline : TimestampMs
  hardDeadline : TimestampMs
  deriving DecidableEq

inductive RenewalError
  | authority (decision : AuthorityDecision)
  | time (error : TimePolicyError)
  deriving DecidableEq

def renewLease (snapshot : AttemptSnapshot) (token : AuthorityToken) (clock : PolicyClock)
    (leaseTtlMs : ℕ) : Except RenewalError LeaseRenewal := do
  let decision ← (evaluateAttempt snapshot clock (some token)).mapError .time
  if decision.authority ≠ .authorized then .error (.authority decision.authority)
  else do
    let clock ← clock.resolve.mapError .time
    let window ← (AttemptWindow.fromAttempt snapshot.attempt).mapError .time
    let newLeaseDeadline ← (addTimestamp clock.effectiveAt leaseTtlMs).mapError .time
    if newLeaseDeadline ≤ clock.effectiveAt then
      .error (.time (.renewalDeadlineNotAfterNow clock.effectiveAt newLeaseDeadline))
    else if newLeaseDeadline < window.leaseDeadline then
      .error (.time (.renewalShortensLease window.leaseDeadline newLeaseDeadline))
    else .ok ⟨window.leaseDeadline, newLeaseDeadline, window.hardDeadline⟩

end Attempt

structure ScheduleDecision where
  eligible : Bool
  scheduled : Bool
  overdue : Bool
  nextChangeAt : Option TimestampMs
  deriving DecidableEq

/-- Whether the target window is empty. -/
def targetInverted (schedule : WorkSchedule) : Bool :=
  match schedule.targetStartAt, schedule.targetEndAt with
  | some start, some «end» => «end» ≤ start
  | _, _ => false

def evaluateSchedule (schedule : WorkSchedule) (asOf : TimestampMs) (terminal : Bool) :
    Except TimePolicyError ScheduleDecision :=
  if targetInverted schedule then .error .invalidSchedule
  else
    let scheduled := schedule.notBeforeAt.any (asOf < ·)
    .ok
      { eligible := !scheduled
        scheduled
        overdue := !terminal && schedule.dueAt.any (· ≤ asOf)
        nextChangeAt :=
          if terminal then none
          else (schedule.notBeforeAt.toList ++ schedule.dueAt.toList).filter (asOf < ·) |>.min? }

structure RetryPolicy where
  baseDelayMs : ℕ
  maxDelayMs : ℕ
  maxRetries : ℕ
  deriving DecidableEq

def RetryPolicy.validate (policy : RetryPolicy) : Except TimePolicyError Unit :=
  if policy.maxDelayMs < policy.baseDelayMs then .error .invalidBackoffBounds else .ok ()

structure RetryInput where
  failureCount : ℕ
  retryNotBefore : Option TimestampMs
  deriving DecidableEq

structure RetryDecision where
  exhausted : Bool
  waiting : Bool
  eligible : Bool
  retryNotBefore : Option TimestampMs
  nextChangeAt : Option TimestampMs
  deriving DecidableEq

structure TimePolicyInput where
  clock : PolicyClock
  schedule : WorkSchedule
  terminal : Bool
  retryPolicy : RetryPolicy
  retry : RetryInput
  attempt : Option AttemptSnapshot
  authority : Option AuthorityToken
  exceptionValidUntil : Option TimestampMs
  reviewReadbackAt : Option TimestampMs
  deriving DecidableEq

structure TimePolicyDecision where
  clock : ClockView
  schedule : ScheduleDecision
  retry : RetryDecision
  attempt : Option AttemptTimeDecision
  exceptionValid : Bool
  overdue : Bool
  nextReevaluationAt : Option TimestampMs
  deriving DecidableEq

end TimePolicy

end Boreal
