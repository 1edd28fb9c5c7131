/- Between two instants without a reported timer the time policy says the same. -/
import BorealWork.AttemptAuthority
import BorealWork.Library.Timers

namespace Boreal.TimePolicy
open Timers WorkModel

section Clock

variable {clock : PolicyClock} {view : ClockView} {later : TimestampMs}

/-- The same clock evidence with a later sample. -/
def PolicyClock.observed (clock : PolicyClock) (observedAt : TimestampMs) : PolicyClock :=
  { clock with observedAt }

end Clock

section Predicates

variable {now later : TimestampMs}

variable {snapshot : AttemptSnapshot} {window : AttemptWindow}

def AttemptTimeDecision.expiry (decision : AttemptTimeDecision) : Bool × Option ExpiryReason :=
  (decision.expired, decision.expiryReason)

def AttemptSnapshot.expiry (snapshot : AttemptSnapshot) (window : AttemptWindow)
    (asOf : TimestampMs) : Bool × Option ExpiryReason :=
  (snapshot.expired window asOf,
    if snapshot.expired window asOf then snapshot.expiryReason window asOf else none)

end Predicates

section Policy

variable {input : TimePolicyInput} {decision : TimePolicyDecision} {instant : TimestampMs}

/-- The same facts under a later sample of the same clock. -/
def TimePolicyInput.observed (input : TimePolicyInput) (observedAt : TimestampMs) :
    TimePolicyInput := { input with clock := input.clock.observed observedAt }

/-- An expiry that awaits its review. -/
def TimePolicyDecision.underReview (decision : TimePolicyDecision) : Bool :=
  decision.attempt.any AttemptTimeDecision.reviewRequired

def TimePolicyDecision.blocked (decision : TimePolicyDecision) : Bool :=
  decision.clock.validity.needsReconciliation || decision.underReview

def TimePolicyDecision.expiry (decision : TimePolicyDecision) : Option (Bool × Option ExpiryReason) :=
  decision.attempt.map AttemptTimeDecision.expiry

section Attempt

variable {snapshot : AttemptSnapshot} {clock clock' : PolicyClock} {view view' : ClockView}
  {presented : Option AuthorityToken} {attempt : AttemptTimeDecision}

end Attempt

section Combine

variable {view : ClockView} {schedule : ScheduleDecision} {retry : RetryDecision}
  {read : Option AttemptTimeDecision}

end Combine

end Policy

namespace Fixture

end Fixture

end Boreal.TimePolicy
