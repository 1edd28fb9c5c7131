/- Attempts: the execution record that every clock and every fence refers to. -/
import BorealWork.Identity

namespace Boreal

abbrev SessionId := TypedId "SessionId"
abbrev Fence := TypedRevision "Fence"

inductive AttemptPhase
  | claimed
  | accepted
  | running
  | verifying
  | expiryPending
  | completed
  | failed
  | released
  | expired
  | cancelled
  deriving DecidableEq

def AttemptPhase.isTerminal : AttemptPhase → Bool
  | .completed | .failed | .released | .expired | .cancelled => true
  | .claimed | .accepted | .running | .verifying | .expiryPending => false

inductive ExpiryReason
  | leaseElapsed
  | hardBudgetElapsed
  deriving DecidableEq

structure Attempt where
  workId : WorkId
  attemptId : AttemptId
  actorId : ActorId
  sessionId : Option SessionId
  fence : Fence
  phase : AttemptPhase
  claimedAt : TimestampMs
  leaseDeadline : TimestampMs
  maxAttemptDeadline : TimestampMs
  deriving DecidableEq

def Attempt.expiryReason (attempt : Attempt) (asOf : TimestampMs) : Option ExpiryReason :=
  if attempt.maxAttemptDeadline ≤ asOf then some .hardBudgetElapsed
  else if attempt.leaseDeadline ≤ asOf then some .leaseElapsed
  else none

theorem Attempt.expiryReason_eq_none {attempt : Attempt} {asOf : TimestampMs} :
    attempt.expiryReason asOf = none ↔
      asOf < attempt.leaseDeadline ∧ asOf < attempt.maxAttemptDeadline := by
  rw [Attempt.expiryReason]
  split_ifs with hard lease
  · simp [not_lt.mpr hard]
  · simp [not_lt.mpr lease]
  · simp [not_le.mp hard, not_le.mp lease]

end Boreal
