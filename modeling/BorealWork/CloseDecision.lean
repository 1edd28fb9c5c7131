/- The close decision of a task: the gaps that are left, and what it takes that there are none. -/
import BorealWork.StatusEvaluator

namespace Boreal.Closing
open Sorting Status

structure ReviewRecord where
  reviewerActorId : ActorId
  attemptActorId : ActorId
  accepted : Bool
  deriving DecidableEq

inductive ReviewError
  | reviewerCannotReviewOwnAttempt
  deriving DecidableEq

/-- The record itself names whose attempt was reviewed. -/
def validateIndependentReview (review : ReviewRecord) : Except ReviewError Unit :=
  if review.reviewerActorId = review.attemptActorId then .error .reviewerCannotReviewOwnAttempt
  else .ok ()

theorem validateIndependentReview_eq_ok {review : ReviewRecord} :
    validateIndependentReview review = .ok () ↔ review.reviewerActorId ≠ review.attemptActorId := by
  rw [validateIndependentReview]
  split_ifs with own
  · exact iff_of_false nofun fun other => other own
  · exact iff_of_true rfl own

inductive CloseGap
  | closeIntentMissing
  | gateUnsatisfied
  | reviewRequired
  | reviewRejected
  | staleFence
  | attemptNotVerifying
  deriving DecidableEq

inductive CloseReadiness
  | readyToClose
  | notReady (gaps : List CloseGap)
  deriving DecidableEq

def recordedState (gates : List GateRequirement) (id : GateId) : Option GateState :=
  (gates.find? (·.id = id)).map GateRequirement.state

/-- A review gate may also be covered by a review; the other gates need their own state. -/
def gateGap (gates : List GateRequirement) (review : Option ReviewRecord) (required : GateRequirement) :
    Option CloseGap :=
  if recordedState gates required.id = some .satisfied then none
  else if required.kind = .review then match review with
    | some review =>
      if validateIndependentReview review ≠ .ok () ∨ review.accepted = false then some .reviewRejected
      else none
    | none => some .reviewRequired
  else some .gateUnsatisfied

def closeGaps (profile : AcceptanceProfile) (gates : List GateRequirement)
    (review : Option ReviewRecord) (closeIntent : Bool) (attempt : Attempt) (expectedFence : Fence) :
    List CloseGap :=
  (if attempt.fence ≠ expectedFence then [.staleFence] else []) ++
    (if attempt.phase = .verifying ∨ attempt.phase = .completed then [] else [.attemptNotVerifying]) ++
    (if closeIntent then [] else [.closeIntentMissing]) ++
    (profile.gates.filter GateRequirement.required).filterMap (gateGap gates review)

def evaluateClose (profile : AcceptanceProfile) (gates : List GateRequirement)
    (review : Option ReviewRecord) (closeIntent : Bool) (attempt : Attempt) (expectedFence : Fence) :
    CloseReadiness :=
  let gaps := sortDedup CloseGap.ctorIdx
    (closeGaps profile gates review closeIntent attempt expectedFence)
  if gaps = [] then .readyToClose else .notReady gaps

section Readiness

variable {profile : AcceptanceProfile} {gates : List GateRequirement} {review : Option ReviewRecord}
  {closeIntent : Bool} {attempt : Attempt} {expectedFence : Fence}

/-- Someone else than the one whose attempt it was has reviewed it, and accepted it. -/
def Covered (review : Option ReviewRecord) : Prop :=
  ∃ record ∈ review, record.reviewerActorId ≠ record.attemptActorId ∧ record.accepted = true

def GateMet (gates : List GateRequirement) (review : Option ReviewRecord) (required : GateRequirement) :
    Prop :=
  recordedState gates required.id = some .satisfied ∨ required.kind = .review ∧ Covered review

theorem gateGap_eq_none {required : GateRequirement} :
    gateGap gates review required = none ↔ GateMet gates review required := by
  unfold gateGap GateMet Covered
  by_cases satisfied : recordedState gates required.id = some .satisfied
  · simp [satisfied]
  · rw [if_neg satisfied, or_iff_right satisfied]
    by_cases reviewing : required.kind = .review
    · rw [if_pos reviewing, and_iff_right reviewing]
      cases review with
      | none => simp
      | some record => simp [← validateIndependentReview_eq_ok]
    · rw [if_neg reviewing]
      exact iff_of_false (Option.some_ne_none _) fun covered => reviewing covered.1

theorem closeGaps_eq_nil : closeGaps profile gates review closeIntent attempt expectedFence = [] ↔
    attempt.fence = expectedFence ∧ (attempt.phase = .verifying ∨ attempt.phase = .completed) ∧
      closeIntent = true ∧
      ∀ required ∈ profile.gates, required.required = true → GateMet gates review required := by
  have gatesMet : (profile.gates.filter GateRequirement.required).filterMap (gateGap gates review) = [] ↔
      ∀ required ∈ profile.gates, required.required = true → GateMet gates review required := by
    simp only [List.filterMap_eq_nil_iff, List.mem_filter, gateGap_eq_none, and_imp]
  rw [closeGaps, List.append_eq_nil_iff, List.append_eq_nil_iff, List.append_eq_nil_iff, gatesMet]
  simp [and_assoc, or_iff_not_imp_left]

/-- A task is ready to close exactly when the fence is current, the attempt is being verified or has
completed, the intent is there, and every required gate is met. -/
theorem evaluateClose_ready_iff (profile : AcceptanceProfile) (gates : List GateRequirement)
    (review : Option ReviewRecord) (closeIntent : Bool) (attempt : Attempt) (expectedFence : Fence) :
    evaluateClose profile gates review closeIntent attempt expectedFence = .readyToClose ↔
      attempt.fence = expectedFence ∧ (attempt.phase = .verifying ∨ attempt.phase = .completed) ∧
        closeIntent = true ∧
        ∀ required ∈ profile.gates, required.required = true → GateMet gates review required := by
  rw [← closeGaps_eq_nil, evaluateClose]
  split_ifs with none
  · exact iff_of_true rfl (sortDedup_eq_nil.mp none)
  · exact iff_of_false nofun fun empty => none (sortDedup_eq_nil.mpr empty)

end Readiness

end Boreal.Closing
