/- The order of the emitted reasons, and when their codes are distinct: a code determines its reason
except where it is the free text of a hold. -/
import BorealWork.Claimability

namespace Boreal.Status
open Decision Sorting

/-- The typed reason with this name before its bracket and this text within. -/
def ReasonCode.named (argument : String) : String → Option ReasonCode
  | "terminal_closed" => some .terminalClosed
  | "terminal_cancelled" => some .terminalCancelled
  | "expiry_review_required" => some .expiryReviewRequired
  | "not_published" => some .notPublished
  | "attempt_unaccepted" => some .attemptUnaccepted
  | "attempt_active" => some .attemptActive
  | "verification_required" => some .verificationRequired
  | "review_required" => some .reviewRequired
  | "closeout_pending" => some .closeoutPending
  | "prerequisite_open" => some (.prerequisiteOpen ⟨argument⟩)
  | "paused" => some .paused
  | "retry_not_before" => argument.toNat?.map fun moment => .retryNotBefore ⟨moment⟩
  | "scheduled_start" => argument.toNat?.map fun moment => .scheduledStart ⟨moment⟩
  | "external_wait_open" => some (.externalWaitOpen argument)
  | "eligible" => some .eligible
  | "operator_only" => some .operatorOnly
  | "non_executable_container" => some .nonExecutableContainer
  | "lease_elapsed" => some .leaseElapsed
  | "hard_budget_elapsed" => some .hardBudgetElapsed
  | "gate_open" => some (.gateOpen ⟨argument⟩)
  | "gate_failed" => some (.gateFailed ⟨argument⟩)
  | "gate_missing" => some (.gateMissing ⟨argument⟩)
  | "gate_invalid" => some (.gateInvalid ⟨argument⟩)
  | "review_rejected" => some (.reviewRejected ⟨argument⟩)
  | "role_denied" => some .roleDenied
  | "attempt_subject_mismatch" => some .attemptSubjectMismatch
  | "container_planning" => some .containerPlanning
  | _ => none

/-- Reads a code back: the name before the bracket, and what the brackets hold. -/
def ReasonCode.ofCode (code : String) : Option ReasonCode :=
  named (String.ofList ((code.toList.dropWhile (· ≠ '(')).drop 1).dropLast)
    (String.ofList (code.toList.takeWhile (· ≠ '(')))

theorem ofCode_bracketed (name : String) {opening : String} (spelled : opening = name ++ "(")
    (bare : name.toList.all (· ≠ '(') = true) (argument : String) :
    ReasonCode.ofCode (opening ++ argument ++ ")") = ReasonCode.named argument name := by
  have all : ∀ c ∈ name.toList, decide (c ≠ '(') = true := List.all_eq_true.mp bare
  have text : (opening ++ argument ++ ")").toList = name.toList ++ '(' :: (argument.toList ++ [')']) := by
    rw [spelled]
    simp
  rw [ReasonCode.ofCode, text, List.takeWhile_append_of_pos all, List.dropWhile_append_of_pos all,
    List.takeWhile_cons_of_neg (by decide), List.append_nil, String.ofList_toList,
    List.dropWhile_cons_of_neg (by decide), List.drop_one, List.tail_cons, List.dropLast_concat,
    String.ofList_toList]

theorem named_moment (n : ℕ) :
    ReasonCode.named (toString n) "retry_not_before" = some (.retryNotBefore ⟨n⟩) ∧
      ReasonCode.named (toString n) "scheduled_start" = some (.scheduledStart ⟨n⟩) := by
  have read : (toString n).toNat? = some n := Nat.toNat?_repr n
  constructor <;> simp only [ReasonCode.named, read, Option.map_some]

theorem ofCode_stableCode {reason : ReasonCode} (typed : ∀ text, reason ≠ .hardHold text) :
    ReasonCode.ofCode reason.stableCode = some reason := by
  cases reason with
  | hardHold text => exact absurd rfl (typed text)
  | prerequisiteOpen id =>
    exact (ofCode_bracketed "prerequisite_open" rfl (by decide) id.value).trans
      (by simp only [ReasonCode.named])
  | retryNotBefore moment =>
    exact (ofCode_bracketed "retry_not_before" rfl (by decide) _).trans (named_moment moment.value).1
  | scheduledStart moment =>
    exact (ofCode_bracketed "scheduled_start" rfl (by decide) _).trans (named_moment moment.value).2
  | externalWaitOpen id =>
    exact (ofCode_bracketed "external_wait_open" rfl (by decide) id).trans
      (by simp only [ReasonCode.named])
  | gateOpen id =>
    exact (ofCode_bracketed "gate_open" rfl (by decide) id.value).trans
      (by simp only [ReasonCode.named])
  | gateFailed id =>
    exact (ofCode_bracketed "gate_failed" rfl (by decide) id.value).trans
      (by simp only [ReasonCode.named])
  | gateMissing id =>
    exact (ofCode_bracketed "gate_missing" rfl (by decide) id.value).trans
      (by simp only [ReasonCode.named])
  | gateInvalid id =>
    exact (ofCode_bracketed "gate_invalid" rfl (by decide) id.value).trans
      (by simp only [ReasonCode.named])
  | reviewRejected id =>
    exact (ofCode_bracketed "review_rejected" rfl (by decide) id.value).trans
      (by simp only [ReasonCode.named])
  | _ => decide +kernel

theorem stableCode_injOn {a b : ReasonCode} (typedA : ∀ text, a ≠ .hardHold text)
    (typedB : ∀ text, b ≠ .hardHold text) (same : a.stableCode = b.stableCode) : a = b := by
  have read := ofCode_stableCode typedA
  rw [same, ofCode_stableCode typedB] at read
  exact (Option.some.inj read).symm

theorem stableCode_separates {reasons : List ReasonCode}
    (holds : ∀ text, .hardHold text ∈ reasons → ∀ other ∈ reasons, other.stableCode = text →
      other = .hardHold text) : ∀ a ∈ reasons, ∀ b ∈ reasons, a.stableCode = b.stableCode → a = b := by
  intro a memberA b memberB same
  by_cases holdA : ∃ text, a = .hardHold text
  · obtain ⟨text, rfl⟩ := holdA
    exact (holds text memberA b memberB same.symm).symm
  by_cases holdB : ∃ text, b = .hardHold text
  · obtain ⟨text, rfl⟩ := holdB
    exact holds text memberB a memberA same
  exact stableCode_injOn (not_exists.mp holdA) (not_exists.mp holdB) same

section Order

variable (context : StatusContext) (facts : Option DecisionInputs)

def otherReasons : List ReasonCode :=
  sortReasons ((context.secondaryReasons facts).filter (· ≠ (evaluateStatusInner context facts).primaryReason))

theorem reasonCodes_eq :
    (evaluateStatusInner context facts).reasonCodes =
      (evaluateStatusInner context facts).primaryReason :: otherReasons context facts := rfl

theorem primaryReason_not_mem :
    (evaluateStatusInner context facts).primaryReason ∉ otherReasons context facts := by
  rw [otherReasons, sortReasons, mem_sortDedup, List.mem_filter]
  intro kept
  exact of_decide_eq_true kept.2 rfl

theorem mem_reasonCodes {reason : ReasonCode} :
    reason ∈ (evaluateStatusInner context facts).reasonCodes ↔
      reason = (evaluateStatusInner context facts).primaryReason ∨
        reason ∈ context.secondaryReasons facts := by
  rw [reasonCodes_eq, List.mem_cons, otherReasons, sortReasons, mem_sortDedup, List.mem_filter]
  by_cases primary : reason = (evaluateStatusInner context facts).primaryReason
  · exact iff_of_true (.inl primary) (.inl primary)
  · rw [decide_eq_true primary]
    simp

theorem codes_nodup_iff :
    ((evaluateStatusInner context facts).reasonCodes.map ReasonCode.stableCode).Nodup ↔
      ∀ text, .hardHold text ∈ (evaluateStatusInner context facts).reasonCodes →
        ∀ other ∈ (evaluateStatusInner context facts).reasonCodes, other.stableCode = text →
          other = .hardHold text := by
  constructor
  · intro distinct text held other member same
    exact List.inj_on_of_nodup_map distinct member held same
  · intro holds
    have separates := stableCode_separates holds
    rw [reasonCodes_eq] at separates ⊢
    rw [List.map_cons, List.nodup_cons]
    constructor
    · intro again
      obtain ⟨reason, member, same⟩ := List.mem_map.mp again
      have equal := separates reason (List.mem_cons_of_mem _ member) _ List.mem_cons_self same
      rw [equal] at member
      exact primaryReason_not_mem context facts member
    · rw [otherReasons, sortReasons] at separates ⊢
      have increasing := sortDedup_increasing fun a memberA b memberB =>
        separates a (List.mem_cons_of_mem _ (mem_sortDedup.mpr memberA)) b
          (List.mem_cons_of_mem _ (mem_sortDedup.mpr memberB))
      exact List.pairwise_map.mpr (increasing.imp fun less => less.ne)

/-- The primary reason comes first and only once, the codes of the others follow in lexical order, and a code
comes twice only where a hold is spelled like another emitted reason. -/
theorem reasonCodes_ordered :
    (∃ others, (evaluateStatusInner context facts).reasonCodes =
        (evaluateStatusInner context facts).primaryReason :: others ∧
      (evaluateStatusInner context facts).primaryReason ∉ others ∧
      (others.map ReasonCode.stableCode).Pairwise (· ≤ ·)) ∧
    (∀ reason, reason ∈ (evaluateStatusInner context facts).reasonCodes ↔
      reason = (evaluateStatusInner context facts).primaryReason ∨ reason ∈ context.secondaryReasons facts) ∧
    (((evaluateStatusInner context facts).reasonCodes.map ReasonCode.stableCode).Nodup ↔
      ∀ text, .hardHold text ∈ (evaluateStatusInner context facts).reasonCodes →
        ∀ other ∈ (evaluateStatusInner context facts).reasonCodes, other.stableCode = text →
          other = .hardHold text) := by
  refine ⟨⟨otherReasons context facts, rfl, primaryReason_not_mem context facts, ?_⟩,
    fun reason => mem_reasonCodes context facts, codes_nodup_iff context facts⟩
  exact List.pairwise_map.mpr (sortDedup_pairwise ReasonCode.stableCode _)

/-- Paused by its policy, and held under the same word. -/
def pausedContext : StatusContext :=
  { readyContext with
    work := { readyContext.work with
      dispatchPolicy := .paused
      hardHolds := [.hardHold "paused"] } }

theorem reasonCodes_repeat_paused :
    let decision := evaluateCanonicalStatus pausedContext { readyFacts with dispatchPolicy := .paused }
    decision.reasonCodes = [.hardHold "paused", .paused] ∧
      ¬ (decision.reasonCodes.map ReasonCode.stableCode).Nodup := by
  decide +kernel

end Order

end Boreal.Status
