/- Before the next reported change of status: what the passing of time alone can still change. -/
import BorealWork.Claimability
import BorealWork.Library.Timers

namespace Boreal.Status
open Decision WorkModel TimePolicy Sorting Checks Timers

/-- The same facts, read later: every clock reading moves by the elapsed time. -/
def StatusContext.after (context : StatusContext) (elapsed : ℕ) : StatusContext :=
  { context with
    asOf := ⟨context.asOf.value + elapsed⟩
    businessTime := context.businessTime.map fun businessTime =>
      { businessTime with asOf := ⟨businessTime.asOf.value + elapsed⟩ } }

def laterFacts (facts : DecisionInputs) (elapsed : ℕ) : DecisionInputs :=
  { facts with clock := { facts.clock with evaluatedAt := ⟨facts.clock.evaluatedAt.value + elapsed⟩ } }

namespace StatusContext

variable {context : StatusContext} {facts : Option DecisionInputs} {elapsed : ℕ}

theorem asOf_le_after : context.asOf ≤ (context.after elapsed).asOf :=
  Nat.le_add_right _ _

@[simp] theorem after_work : (context.after elapsed).work = context.work := rfl

@[simp] theorem after_terminal : (context.after elapsed).terminal = context.terminal := rfl

@[simp] theorem after_revision :
    (context.after elapsed).businessScheduleRevision = context.businessScheduleRevision := rfl

@[simp] theorem after_settingRevision : (context.after elapsed).businessScheduleSettingRevision =
    context.businessScheduleSettingRevision := rfl

@[simp] theorem after_businessTime : (context.after elapsed).businessTime =
    context.businessTime.map fun businessTime =>
      { businessTime with asOf := ⟨businessTime.asOf.value + elapsed⟩ } := rfl

theorem civilTimeMatches_after (businessTime : BusinessTimeContext) (settingRevision : Option ℕ) :
    (context.after elapsed).civilTimeMatches
        { businessTime with asOf := ⟨businessTime.asOf.value + elapsed⟩ } settingRevision =
      context.civilTimeMatches businessTime settingRevision := by
  have clock : ((⟨businessTime.asOf.value + elapsed⟩ : TimestampMs) = (context.after elapsed).asOf) =
      (businessTime.asOf = context.asOf) := by
    rw [← TypedRevision.value_injective.eq_iff, ← TypedRevision.value_injective.eq_iff]
    exact propext Nat.add_right_cancel_iff
  simp only [civilTimeMatches, clock]
  rfl

theorem isError_bind {ε α β : Type} {x y : Except ε α} {f g : α → Except ε β}
    (same : x = y) (later : ∀ a, isError (f a) = isError (g a)) :
    isError (x >>= f) = isError (y >>= g) := by
  subst same
  cases x with
  | error e => rfl
  | ok a => exact later a

theorem dueCandidates_isError (schedule : BusinessSchedule) (businessTime : BusinessTimeContext)
    (asOf : TimestampMs) (terminal : Bool) :
    isError (schedule.dueCandidates { businessTime with asOf } terminal) =
      isError (schedule.dueCandidates businessTime terminal) := by
  rw [BusinessSchedule.dueCandidates, BusinessSchedule.dueCandidates]
  split
  · rfl
  · split
    · rfl
    · rfl
    · rfl

theorem evaluateBusinessSchedule_isError (schedule : BusinessSchedule)
    (businessTime : BusinessTimeContext) (asOf : TimestampMs) (terminal : Bool) :
    isError (evaluateBusinessSchedule schedule { businessTime with asOf } terminal) =
      isError (evaluateBusinessSchedule schedule businessTime terminal) := by
  rw [evaluateBusinessSchedule, evaluateBusinessSchedule]
  refine isError_bind rfl fun _ => isError_bind rfl fun _ => ?_
  have dues := dueCandidates_isError schedule businessTime asOf terminal
  cases early : schedule.dueCandidates businessTime terminal with
  | error e =>
    cases late : schedule.dueCandidates { businessTime with asOf } terminal with
    | error e' => rfl
    | ok l => rw [early, late] at dues; cases dues
  | ok l =>
    cases late : schedule.dueCandidates { businessTime with asOf } terminal with
    | error e' => rw [early, late] at dues; cases dues
    | ok l' => rfl

theorem evaluateBusiness_isError (schedule : BusinessSchedule) :
    isError ((context.after elapsed).evaluateBusiness schedule) =
      isError (context.evaluateBusiness schedule) := by
  rw [evaluateBusiness, evaluateBusiness]
  refine isError_bind rfl fun _ => ?_
  by_cases unrevised : context.businessScheduleRevision = some 0 ∨
      (context.businessScheduleRevision.isSome ∧ scheduleHasLocalDates schedule ∧
        context.businessScheduleSettingRevision = none)
  · rw [after_revision, after_settingRevision, if_pos unrevised, if_pos unrevised]
  · rw [after_revision, after_settingRevision, if_neg unrevised, if_neg unrevised, after_businessTime]
    cases context.businessTime with
    | none =>
      simp only [Option.map_none]
      split
      · rfl
      · rfl
    | some businessTime =>
      simp only [Option.map_some, civilTimeMatches_after]
      split
      · rfl
      · exact evaluateBusinessSchedule_isError _ _ _ _

theorem isError_map_any {α ε ε' β β' : Type} {o : Option α} {f : α → Except ε β} {g : α → Except ε' β'}
    (same : ∀ a, isError (f a) = isError (g a)) : (o.map f).any isError = (o.map g).any isError := by
  cases o with
  | none => rfl
  | some a => exact same a

theorem businessScheduleInvalid_after :
    (context.after elapsed).businessScheduleInvalid = context.businessScheduleInvalid :=
  isError_map_any evaluateBusiness_isError

theorem scheduleInvalid_after : (context.after elapsed).scheduleInvalid = context.scheduleInvalid := by
  refine isError_map_any fun schedule => ?_
  rw [evaluateSchedule, evaluateSchedule]
  split
  · rfl
  · rfl

theorem judgeFollowUp_after (wait : ExternalWaitScopeInput) (followUp : BusinessDate) :
    ((context.after elapsed).judgeFollowUp wait followUp).invalid =
      (context.judgeFollowUp wait followUp).invalid := by
  rw [judgeFollowUp, judgeFollowUp, after_businessTime]
  split
  · rfl
  · cases context.businessTime with
    | none =>
      simp only [Option.map_none]
      split
      · rfl
      · rfl
    | some businessTime =>
      simp only [Option.map_some, civilTimeMatches_after]
      split
      · rfl
      · rfl

theorem judgeWait_after (wait : ExternalWaitScopeInput) :
    ((context.after elapsed).judgeWait wait).blocking = (context.judgeWait wait).blocking ∧
      ((context.after elapsed).judgeWait wait).invalid = (context.judgeWait wait).invalid := by
  rw [judgeWait, judgeWait, after_work]
  split
  · exact ⟨rfl, rfl⟩
  · split
    · exact ⟨rfl, rfl⟩
    · exact ⟨rfl, rfl⟩
    · exact ⟨rfl, rfl⟩
    · split
      · exact ⟨rfl, rfl⟩
      · next followUp _ =>
          refine ⟨?_, judgeFollowUp_after wait followUp⟩
          rw [judgeFollowUp_blocking, judgeFollowUp_blocking]

theorem externalWaitInvalid_after :
    (context.after elapsed).externalWaitInvalid = context.externalWaitInvalid :=
  congrArg (context.scopedWaits.any ·) (funext fun wait => (judgeWait_after wait).2)

theorem blockingExternalWaitIds_after :
    (context.after elapsed).blockingExternalWaitIds = context.blockingExternalWaitIds := by
  have same : (fun wait => ((context.after elapsed).judgeWait wait).blocking) =
      fun wait => (context.judgeWait wait).blocking := funext fun wait => (judgeWait_after wait).1
  rw [blockingExternalWaitIds, blockingExternalWaitIds, same]
  rfl

theorem prerequisiteReasons_after :
    (context.after elapsed).prerequisiteReasons facts = context.prerequisiteReasons facts := by
  rw [prerequisiteReasons, prerequisiteReasons, blockingExternalWaitIds_after]
  rfl

section Exceptions

variable {facts : DecisionInputs}

def coveringException (context : StatusContext) (facts : DecisionInputs) (gateId : GateId) :
    Option RequirementExceptionInput :=
  facts.requirements.asPresent.bind fun requirements =>
    (requirements.requirements.find? (·.gateId = gateId)).bind fun gate =>
      gate.exception.filter fun exception =>
        exception.applies gate.state facts.subject.revision requirements.proof.proofRevision
          context.asOf

theorem exceptionSatisfies_eq (gateId : GateId) : context.exceptionSatisfies (some facts) gateId =
    (context.coveringException facts gateId).isSome := by
  rw [exceptionSatisfies, coveringException, Option.any_some]
  cases facts.requirements.asPresent with
  | none => rfl
  | some requirements =>
    rw [Option.any_some, Option.bind_some]
    cases requirements.requirements.find? (·.gateId = gateId) with
    | none => rfl
    | some gate =>
      rw [Option.any_some, Option.bind_some]
      cases gate.exception with
      | none => rfl
      | some exception =>
        rw [Option.any_some, Option.filter_some]
        split
        · next covered => rw [covered]; rfl
        · next uncovered => rw [Bool.eq_false_iff.mpr uncovered]; rfl

theorem coveringException_future {gateId : GateId} {exception : RequirementExceptionInput}
    (covering : exception ∈ context.coveringException facts gateId) :
    ∀ expiry ∈ exception.expiresAt, context.asOf < expiry := by
  obtain ⟨requirements, _, pinned⟩ := Option.bind_eq_some_iff.mp covering
  obtain ⟨gate, _, excepted⟩ := Option.bind_eq_some_iff.mp pinned
  have applies := (Option.mem_filter_iff.mp excepted).2
  rw [RequirementExceptionInput.applies, Bool.and_eq_true] at applies
  intro expiry given
  have all := applies.2
  rw [Option.mem_def.mp given] at all
  exact of_decide_eq_true all

theorem applies_later (exception : RequirementExceptionInput) (raw : GateState)
    (entity : EntityRevision) (proof : ProofRevision) {now later : TimestampMs} (after : now ≤ later) :
    exception.applies raw entity proof later =
      (exception.applies raw entity proof now && exception.expiresAt.all (later < ·)) := by
  have stays : exception.expiresAt.all (later < ·) =
      (exception.expiresAt.all (now < ·) && exception.expiresAt.all (later < ·)) := by
    cases exception.expiresAt with
    | none => rfl
    | some expiry =>
      rw [Option.all_some, Option.all_some, ← Bool.decide_and]
      exact decide_eq_decide.mpr ⟨fun future => ⟨after.trans_lt future, future⟩, And.right⟩
  simp only [RequirementExceptionInput.applies, Bool.and_assoc, ← stays]

theorem exceptionSatisfies_after (gateId : GateId) :
    (context.after elapsed).exceptionSatisfies (some (laterFacts facts elapsed)) gateId =
      (context.coveringException facts gateId).any fun exception =>
        exception.expiresAt.all ((context.after elapsed).asOf < ·) := by
  have requirements : (laterFacts facts elapsed).requirements = facts.requirements := rfl
  have subject : (laterFacts facts elapsed).subject = facts.subject := rfl
  rw [exceptionSatisfies, coveringException, Option.any_some, requirements, subject]
  cases facts.requirements.asPresent with
  | none => rfl
  | some requirements =>
    rw [Option.any_some, Option.bind_some]
    cases requirements.requirements.find? (·.gateId = gateId) with
    | none => rfl
    | some gate =>
      rw [Option.any_some, Option.bind_some]
      cases gate.exception with
      | none => rfl
      | some exception =>
        rw [Option.any_some, Option.filter_some,
          applies_later exception _ _ _ (@asOf_le_after context elapsed)]
        split
        · next covered => rw [covered, Bool.true_and, Option.any_some]
        · next uncovered => rw [Bool.eq_false_iff.mpr uncovered, Bool.false_and]; rfl

/-- A gate whose proof is required and missing: the only kind an exception matters to. -/
def Unproven (gate : GateRequirement) : Prop := gate.required = true ∧ gate.state ≠ .satisfied

def Lasting (context : StatusContext) (facts : DecisionInputs) (elapsed : ℕ) : Prop :=
  ∀ gate ∈ context.gates, Unproven gate →
    ∀ exception ∈ context.coveringException facts gate.id, ∀ expiry ∈ exception.expiresAt,
      (context.after elapsed).asOf < expiry

variable {gate : GateRequirement}

theorem Lasting.exceptionSatisfies (lasting : Lasting context facts elapsed)
    (member : gate ∈ context.gates) (unproven : Unproven gate) :
    (context.after elapsed).exceptionSatisfies (some (laterFacts facts elapsed)) gate.id =
      context.exceptionSatisfies (some facts) gate.id := by
  rw [exceptionSatisfies_after, exceptionSatisfies_eq]
  have outlast := lasting gate member unproven
  cases covered : context.coveringException facts gate.id with
  | none => rfl
  | some exception =>
    rw [Option.any_some, Option.isSome_some, Option.all_eq_true]
    intro expiry given
    exact decide_eq_true (outlast exception covered expiry given)

theorem Lasting.isGap (lasting : Lasting context facts elapsed) (member : gate ∈ context.gates) :
    (context.after elapsed).isGap (some (laterFacts facts elapsed)) gate =
      context.isGap (some facts) gate := by
  rw [StatusContext.isGap, StatusContext.isGap]
  by_cases unproven : Unproven gate
  · rw [lasting.exceptionSatisfies member unproven]
  · have proven : (gate.required && decide (gate.state ≠ .satisfied)) = false := by
      simpa [Unproven] using unproven
    rw [proven, Bool.false_and, Bool.false_and]

theorem Lasting.isFailedReview (lasting : Lasting context facts elapsed) (member : gate ∈ context.gates) :
    (context.after elapsed).isFailedReview (some (laterFacts facts elapsed)) gate =
      context.isFailedReview (some facts) gate := by
  rw [StatusContext.isFailedReview, StatusContext.isFailedReview]
  by_cases failed : gate.required = true ∧ gate.state = .failed
  · have unproven : Unproven gate := ⟨failed.1, by rw [failed.2]; decide⟩
    rw [lasting.exceptionSatisfies member unproven]
  · have passed : (gate.required && decide (gate.kind = .review) && decide (gate.state = .failed)) =
        false := by
      rw [Bool.eq_false_iff]
      intro all
      simp only [Bool.and_eq_true, decide_eq_true_eq] at all
      exact failed ⟨all.1.1, all.2⟩
    rw [passed, Bool.false_and, Bool.false_and]

theorem Lasting.gaps (lasting : Lasting context facts elapsed) :
    (context.after elapsed).gaps (some (laterFacts facts elapsed)) = context.gaps (some facts) := by
  have same : context.gates.filter ((context.after elapsed).isGap (some (laterFacts facts elapsed))) =
      context.gates.filter (context.isGap (some facts)) :=
    List.filter_congr fun gate member => lasting.isGap member
  exact congrArg (fun gates => sortDedup id (gates.map (·.id) ++ context.undeclaredGaps)) same

theorem Lasting.hardReasons (lasting : Lasting context facts elapsed) :
    (context.after elapsed).hardReasons (some (laterFacts facts elapsed)) =
      context.hardReasons (some facts) := by
  have failed : context.gates.filter
        ((context.after elapsed).isFailedReview (some (laterFacts facts elapsed))) =
      context.gates.filter (context.isFailedReview (some facts)) :=
    List.filter_congr fun gate member => lasting.isFailedReview member
  have rejected : (context.after elapsed).rejectedReviews (some (laterFacts facts elapsed)) =
      context.rejectedReviews (some facts) :=
    congrArg (List.map fun gate : GateRequirement => ReasonCode.reviewRejected gate.id) failed
  have some_failed : context.gates.any
        ((context.after elapsed).isFailedReview (some (laterFacts facts elapsed))) =
      context.gates.any (context.isFailedReview (some facts)) := by
    rw [Bool.eq_iff_iff, List.any_eq_true, List.any_eq_true]
    exact exists_congr fun gate => and_congr_right fun member => by rw [lasting.isFailedReview member]
  have reviews : (context.after elapsed).reviewHolds (some (laterFacts facts elapsed)) =
      context.reviewHolds (some facts) :=
    congrArg (fun found : Bool => ((facts.review.asPresent.bind (reviewOutcomeCode ·.outcome)).toList.flatMap
      fun code => reportIf (found = true) (ReasonCode.hardHold code))) some_failed
  rw [StatusContext.hardReasons, StatusContext.hardReasons, rejected, interventionReasons,
    interventionReasons, reviews, scheduleInvalid_after, businessScheduleInvalid_after,
    externalWaitInvalid_after]
  rfl

end Exceptions

theorem expiryPending_later (pending : context.expiryPending facts = true) :
    (context.after elapsed).expiryPending facts = true := by
  rw [expiryPending, Bool.or_eq_true, Bool.or_eq_true] at pending ⊢
  refine pending.imp (Or.imp id ?_) id
  rw [expiry, expiry]
  have live : (context.after elapsed).liveAttempt = context.liveAttempt := rfl
  rw [live]
  cases context.liveAttempt with
  | none => exact id
  | some current =>
    rw [Option.bind_some, Option.bind_some]
    contrapose
    rw [Bool.not_eq_true, Option.isSome_eq_false_iff, Option.isNone_iff_eq_none,
      Attempt.expiryReason_eq_none, Bool.not_eq_true, Option.isSome_eq_false_iff,
      Option.isNone_iff_eq_none, Attempt.expiryReason_eq_none]
    intro future
    exact ⟨asOf_le_after.trans_lt future.1, asOf_le_after.trans_lt future.2⟩

theorem expiryPending_after (running : context.expiryPending facts = false)
    (deadlines : ∀ current ∈ context.liveAttempt,
      Unreached context.asOf (context.after elapsed).asOf current.leaseDeadline ∧
      Unreached context.asOf (context.after elapsed).asOf current.maxAttemptDeadline) :
    (context.after elapsed).expiryPending facts = false := by
  rw [expiryPending, Bool.or_eq_false_iff, Bool.or_eq_false_iff] at running ⊢
  refine ⟨⟨running.1.1, ?_⟩, running.2⟩
  have early := running.1.2
  rw [expiry, Option.isSome_eq_false_iff, Option.isNone_iff_eq_none] at early ⊢
  have live : (context.after elapsed).liveAttempt = context.liveAttempt := rfl
  rw [live]
  cases given : context.liveAttempt with
  | none => rfl
  | some current =>
    rw [given, Option.bind_some, Attempt.expiryReason_eq_none] at early
    rw [Option.bind_some, Attempt.expiryReason_eq_none]
    obtain ⟨lease, budget⟩ := deadlines current given
    exact ⟨lease early.1, budget early.2⟩

def startOf (context : StatusContext) : BusinessDate → Option TimestampMs
  | .localDate date =>
    if context.businessTime.any (fun businessTime => date ≤ businessTime.civilDate) then none
    else context.businessNotBeforeAt
  | value => value.asInstant

def starts (context : StatusContext) : List TimestampMs :=
  (if context.scheduleInvalid then none else context.schedule.bind (·.notBeforeAt)).toList ++
  context.activationAt.toList ++
  (if context.businessScheduleInvalid then none
    else (context.businessSchedule.bind (·.notBefore)).bind context.startOf).toList

theorem workScheduleAt_filter (isOpen : context.terminal = false) : context.workScheduleAt =
    (if context.scheduleInvalid then none else context.schedule.bind (·.notBeforeAt)).filter
      (context.asOf < ·) := by
  cases invalid : context.scheduleInvalid with
  | false => exact workScheduleAt_eq isOpen invalid
  | true =>
    have unread : context.scheduleView = none := by
      rw [scheduleInvalid] at invalid
      rw [scheduleView]
      cases read : context.scheduleDecision with
      | none => rfl
      | some result =>
        rw [read, Option.any_some] at invalid
        cases result with
        | error error => rfl
        | ok view => cases invalid
    rw [workScheduleAt, if_neg (by simp [isOpen]), unread]
    rfl

theorem futureBusinessNotBeforeAt_filter (isOpen : context.terminal = false) :
    context.futureBusinessNotBeforeAt =
      (if context.businessScheduleInvalid then none
        else (context.businessSchedule.bind (·.notBefore)).bind context.startOf).filter
          (context.asOf < ·) := by
  rw [futureBusinessNotBeforeAt, isOpen, Bool.or_false]
  cases invalid : context.businessScheduleInvalid with
  | true =>
    have available : context.businessAvailable = true := by
      rw [businessScheduleInvalid] at invalid
      rw [businessAvailable, businessView]
      cases read : context.businessDecision with
      | none => rfl
      | some result =>
        rw [read, Option.any_some] at invalid
        cases result with
        | error error => rfl
        | ok view => cases invalid
    rw [if_pos available]
    rfl
  | false =>
    rw [businessAvailable_eq invalid, if_neg Bool.false_ne_true]
    cases context.businessSchedule.bind (·.notBefore) with
    | none => rfl
    | some value =>
      rw [Option.all_some, Option.bind_some, Option.bind_some]
      cases value with
      | localDate date =>
        rw [startReached, startOf, declaredStart]
        split
        · rfl
        · rfl
      | instant moment =>
        simp only [startReached, startOf, declaredStart, BusinessDate.asInstant,
          Option.all_some, decide_eq_true_eq, Option.filter_some]
        by_cases past : moment ≤ context.asOf
        · rw [if_pos past, if_neg (not_lt.mpr past)]
        · rw [if_neg past]
      | resolvedLocal resolution =>
        simp only [startReached, startOf, declaredStart, BusinessDate.asInstant,
          Option.all_some, decide_eq_true_eq, Option.filter_some]
        by_cases past : resolution.utcInstant ≤ context.asOf
        · rw [if_pos past, if_neg (not_lt.mpr past)]
        · rw [if_neg past]

theorem toList_filter {τ : Type} (o : Option τ) (p : τ → Bool) :
    (o.filter p).toList = o.toList.filter p := by
  cases o with
  | none => rfl
  | some t =>
    rw [Option.filter_some, Option.toList_some, List.filter_cons, List.filter_nil]
    split
    · rfl
    · rfl

theorem scheduledAt_eq (isOpen : context.terminal = false) :
    context.scheduledAt = (context.starts.filter (context.asOf < ·)).min? := by
  have activation : context.futureActivationAt = context.activationAt.filter (context.asOf < ·) := by
    rw [futureActivationAt, if_neg (by simp [isOpen])]
  rw [scheduledAt, workScheduleAt_filter isOpen, futureBusinessNotBeforeAt_filter isOpen, activation,
    starts, List.filter_append, List.filter_append, toList_filter, toList_filter, toList_filter]

theorem starts_after : (context.after elapsed).starts = context.starts := by
  rw [starts, starts, scheduleInvalid_after, businessScheduleInvalid_after]
  have moved (value : BusinessDate) : (context.after elapsed).startOf value = context.startOf value := by
    cases value with
    | localDate date =>
      rw [startOf, startOf, after_businessTime]
      cases context.businessTime with
      | none => rfl
      | some businessTime => rfl
    | instant moment => rfl
    | resolvedLocal resolution => rfl
  rw [funext moved]
  rfl

variable {moment : TimestampMs}

theorem mem_statusTimers : moment ∈ context.statusTimers ↔
    (∃ current ∈ context.liveAttempt,
      moment = current.leaseDeadline ∨ moment = current.maxAttemptDeadline) ∨
    moment ∈ context.retryAt ∨ moment ∈ context.scheduledAt ∨
    moment ∈ context.scheduleNextChangeAt ∨ moment ∈ context.nextBusinessChangeAt ∨
    moment ∈ context.externalWaitNextChangeAt := by
  simp [statusTimers]

def Quiet (context : StatusContext) (elapsed : ℕ) : Prop :=
  ∀ moment ∈ context.statusTimers, Unreached context.asOf (context.after elapsed).asOf moment

theorem Quiet.deadlines (quiet : Quiet context elapsed) : ∀ current ∈ context.liveAttempt,
    Unreached context.asOf (context.after elapsed).asOf current.leaseDeadline ∧
    Unreached context.asOf (context.after elapsed).asOf current.maxAttemptDeadline := by
  intro current given
  exact ⟨quiet _ (mem_statusTimers.mpr (.inl ⟨current, given, .inl rfl⟩)),
    quiet _ (mem_statusTimers.mpr (.inl ⟨current, given, .inr rfl⟩))⟩

theorem Quiet.retryAt (quiet : Quiet context elapsed) :
    (context.after elapsed).retryAt = context.retryAt := by
  refine filter_future ?_ asOf_le_after
  intro moment waiting
  exact quiet moment (mem_statusTimers.mpr (.inr (.inl waiting)))
    (of_decide_eq_true (Option.mem_filter_iff.mp waiting).2)

theorem Quiet.scheduledAt (quiet : Quiet context elapsed) (isOpen : context.terminal = false) :
    (context.after elapsed).scheduledAt = context.scheduledAt := by
  have before : ∀ next ∈ (context.starts.filter (context.asOf < ·)).min?,
      (context.after elapsed).asOf < next := by
    intro next least
    refine quiet next (mem_statusTimers.mpr (.inr (.inr (.inl ?_)))) (future_of_min? least)
    rw [scheduledAt_eq isOpen]
    exact least
  rw [scheduledAt_eq isOpen, scheduledAt_eq (by rw [after_terminal, isOpen]), starts_after]
  refine congrArg List.min? (List.filter_congr fun moment declared => ?_)
  exact decide_eq_decide.mpr ((unreached_of_min? before moment declared).lt_iff asOf_le_after)

/-- The instants that the evaluator watches: deadlines of the live attempt, the retry instant, the
declared starts, the changes of either schedule, and the boundary supplied for the waits. -/
inductive Watched (context : StatusContext) : TimestampMs → Prop
  | lease {current : Attempt} : current ∈ context.liveAttempt → Watched context current.leaseDeadline
  | budget {current : Attempt} :
      current ∈ context.liveAttempt → Watched context current.maxAttemptDeadline
  | retry {moment : TimestampMs} : moment ∈ context.retryNotBefore → Watched context moment
  | start {moment : TimestampMs} : moment ∈ context.starts → Watched context moment
  | schedule {view : ScheduleDecision} {moment : TimestampMs} :
      view ∈ context.scheduleView → moment ∈ view.nextChangeAt → Watched context moment
  | supplied {moment : TimestampMs} :
      moment ∈ context.businessScheduleNextChangeAt → Watched context moment
  | business {view : BusinessScheduleView} {moment : TimestampMs} :
      context.businessScheduleNextChangeAt = none → view ∈ context.businessView →
      .instant moment ∈ view.nextChanges → Watched context moment
  | wait {moment : TimestampMs} : moment ∈ context.externalWaitNextChangeAt → Watched context moment

theorem mem_futureInstants {view : BusinessScheduleView} {now moment : TimestampMs} :
    moment ∈ view.nextChanges.filterMap (futureInstant now) ↔
      .instant moment ∈ view.nextChanges ∧ now < moment := by
  rw [List.mem_filterMap]
  constructor
  · intro ⟨boundary, member, read⟩
    cases boundary with
    | instant other =>
      rw [futureInstant] at read
      split_ifs at read with future
      cases read
      exact ⟨member, future⟩
    | localDateStart date => cases read
  · intro ⟨member, future⟩
    exact ⟨_, member, if_pos future⟩

theorem watched_of_timer (isOpen : context.terminal = false)
    (listed : moment ∈ context.statusTimers) : Watched context moment := by
  rcases mem_statusTimers.mp listed with ⟨current, given, rfl | rfl⟩ | h | h | h | h | h
  · exact .lease given
  · exact .budget given
  · exact .retry (Option.mem_filter_iff.mp h).1
  · rw [scheduledAt_eq isOpen] at h
    exact .start (List.mem_filter.mp (List.min?_eq_some_iff.mp h).1).1
  · obtain ⟨view, read, change⟩ := Option.bind_eq_some_iff.mp h
    exact .schedule read change
  · rw [nextBusinessChangeAt, Option.mem_def, Option.or_eq_some_iff] at h
    rcases h with supplied | ⟨unsupplied, own⟩
    · exact .supplied supplied
    · obtain ⟨view, read, least⟩ := Option.bind_eq_some_iff.mp own
      exact .business unsupplied read
        (mem_futureInstants.mp (List.min?_eq_some_iff.mp least).1).1
  · exact .wait h

theorem exists_min? {l : List TimestampMs} (member : moment ∈ l) : ∃ least ∈ l.min?, least ≤ moment := by
  cases found : l.min? with
  | none => exact absurd member ((List.min?_eq_none_iff.mp found) ▸ List.not_mem_nil)
  | some least => exact ⟨least, rfl, (List.min?_eq_some_iff.mp found).2 moment member⟩

theorem timer_of_watched (isOpen : context.terminal = false)
    (watched : Watched context moment) (future : context.asOf < moment) :
    ∃ timer ∈ context.statusTimers, context.asOf < timer ∧ timer ≤ moment := by
  have itself (listed : moment ∈ context.statusTimers) :
      ∃ timer ∈ context.statusTimers, context.asOf < timer ∧ timer ≤ moment :=
    ⟨moment, listed, future, le_rfl⟩
  cases watched with
  | lease given => exact itself (mem_statusTimers.mpr (.inl ⟨_, given, .inl rfl⟩))
  | budget given => exact itself (mem_statusTimers.mpr (.inl ⟨_, given, .inr rfl⟩))
  | retry given =>
    refine itself (mem_statusTimers.mpr (.inr (.inl ?_)))
    exact Option.mem_filter_iff.mpr ⟨given, decide_eq_true future⟩
  | start declared =>
    have later : moment ∈ context.starts.filter (context.asOf < ·) :=
      List.mem_filter.mpr ⟨declared, decide_eq_true future⟩
    obtain ⟨least, found, early⟩ := exists_min? later
    refine ⟨least, mem_statusTimers.mpr (.inr (.inr (.inl ?_))), future_of_min? found, early⟩
    rw [scheduledAt_eq isOpen]
    exact found
  | schedule read change =>
    refine itself (mem_statusTimers.mpr (.inr (.inr (.inr (.inl ?_)))))
    exact Option.bind_eq_some_iff.mpr ⟨_, read, change⟩
  | supplied given =>
    refine itself (mem_statusTimers.mpr (.inr (.inr (.inr (.inr (.inl ?_))))))
    rw [nextBusinessChangeAt, Option.mem_def.mp given]
    rfl
  | business unsupplied read change =>
    obtain ⟨least, found, early⟩ := exists_min? (mem_futureInstants.mpr ⟨change, future⟩)
    refine ⟨least, mem_statusTimers.mpr (.inr (.inr (.inr (.inr (.inl ?_))))),
      (mem_futureInstants.mp (List.min?_eq_some_iff.mp found).1).2, early⟩
    rw [nextBusinessChangeAt, unsupplied, Option.none_or]
    exact Option.bind_eq_some_iff.mpr ⟨_, read, found⟩
  | wait given =>
    exact itself (mem_statusTimers.mpr (.inr (.inr (.inr (.inr (.inr given))))))

section Decision

variable {facts : DecisionInputs}

theorem Lasting.primaryDecision (lasting : Lasting context facts elapsed)
    (calm : context.terminal = false → context.expiryPending (some facts) = false →
      Quiet context elapsed) :
    (context.after elapsed).primaryDecision (some (laterFacts facts elapsed)) =
      context.primaryDecision (some facts) := by
  rw [StatusContext.primaryDecision, StatusContext.primaryDecision, after_work]
  by_cases closed : context.work.lifecycle = .closed
  · rw [if_pos closed, if_pos closed]
  rw [if_neg closed, if_neg closed]
  by_cases cancelled : context.work.lifecycle = .cancelled
  · rw [if_pos cancelled, if_pos cancelled]
  rw [if_neg cancelled, if_neg cancelled]
  have isOpen : context.terminal = false := by
    rw [terminal]
    cases lifecycle : context.work.lifecycle with
    | draft => rfl
    | «open» => rfl
    | closed => exact absurd lifecycle closed
    | cancelled => exact absurd lifecycle cancelled
  have pending : (context.after elapsed).expiryPending (some (laterFacts facts elapsed)) =
    (context.after elapsed).expiryPending (some facts) := rfl
  rw [pending]
  cases running : context.expiryPending (some facts) with
  | true => rw [expiryPending_later running, if_pos rfl, if_pos rfl]
  | false =>
    have quiet := calm isOpen running
    rw [expiryPending_after running quiet.deadlines, lasting.hardReasons, publishedDecision,
      publishedDecision, dispatchDecision, dispatchDecision, quiet.retryAt,
      quiet.scheduledAt isOpen, after_work]
    have prerequisites : (context.after elapsed).prerequisiteReasons (some (laterFacts facts elapsed)) =
      context.prerequisiteReasons (some facts) := prerequisiteReasons_after
    have proof (current : Attempt) :
        (context.after elapsed).attemptDecision (some (laterFacts facts elapsed)) current =
          context.attemptDecision (some facts) current := by
      rw [attemptDecision, attemptDecision, lasting.gaps]
      rfl
    rw [prerequisites, lasting.gaps, funext proof]
    rfl

end Decision
end StatusContext

open StatusContext

/-- The part of a decision that a caller acts on. -/
structure SameStatus (later now : StatusDecision) : Prop where
  displayStatus : later.displayStatus = now.displayStatus
  primaryReason : later.primaryReason = now.primaryReason
  claimableForActor : later.claimableForActor = now.claimableForActor
  nextAction : later.nextAction = now.nextAction
  gateGaps : later.gateGaps = now.gateGaps

/-- Some watched instant comes before the expiry, on work whose timers are still kept. -/
def Announced (context : StatusContext) (facts : DecisionInputs) (expiry : TimestampMs) : Prop :=
  context.terminal = false ∧ context.expiryPending (some facts) = false ∧
    ∃ moment, Watched context moment ∧ context.asOf < moment ∧ moment ≤ expiry

def ExceptionsAnnounced (context : StatusContext) (facts : DecisionInputs) : Prop :=
  ∀ gate ∈ context.gates, Unproven gate →
    ∀ exception ∈ context.coveringException facts gate.id, ∀ expiry ∈ exception.expiresAt,
      Announced context facts expiry

section Timers

variable {context : StatusContext} {facts : DecisionInputs} {elapsed : ℕ}

theorem nextStatusChangeAt_eq (isOpen : context.terminal = false)
    (running : context.expiryPending (some facts) = false) :
    context.nextStatusChangeAt (some facts) =
      (context.statusTimers.filter (context.asOf < ·)).min? := by
  rw [nextStatusChangeAt, isOpen, running, if_neg (by simp)]

theorem sameStatus_of_lasting (lasting : Lasting context facts elapsed)
    (calm : context.terminal = false → context.expiryPending (some facts) = false →
      Quiet context elapsed) :
    SameStatus (evaluateCanonicalStatus (context.after elapsed) (laterFacts facts elapsed))
      (evaluateCanonicalStatus context facts) := by
  have primary := lasting.primaryDecision calm
  exact ⟨congrArg (·.status) primary, congrArg (·.reason) primary, congrArg (·.claimable) primary,
    congrArg (·.action) primary, lasting.gaps⟩

theorem gaps_ne_of_expired {gate : GateRequirement} (member : gate ∈ context.gates)
    (unproven : Unproven gate) {exception : RequirementExceptionInput}
    (covering : exception ∈ context.coveringException facts gate.id) {expiry : TimestampMs}
    (given : expiry ∈ exception.expiresAt) (expired : expiry ≤ (context.after elapsed).asOf) :
    (context.after elapsed).gaps (some (laterFacts facts elapsed)) ≠ context.gaps (some facts) := by
  have covered : context.exceptionSatisfies (some facts) gate.id = true := by
    rw [exceptionSatisfies_eq, Option.mem_def.mp covering]
    rfl
  have uncovered : (context.after elapsed).exceptionSatisfies (some (laterFacts facts elapsed))
      gate.id = false := by
    rw [exceptionSatisfies_after, Option.mem_def.mp covering, Option.any_some,
      Option.mem_def.mp given, Option.all_some]
    exact decide_eq_false (not_lt.mpr expired)
  have gap : gate.id ∈ (context.after elapsed).gaps (some (laterFacts facts elapsed)) := by
    rw [StatusContext.gaps, mem_sortDedup, List.mem_append]
    refine .inl (List.mem_map.mpr ⟨gate, List.mem_filter.mpr ⟨member, ?_⟩, rfl⟩)
    simp [isGap, unproven.1, unproven.2, uncovered]
  have none : gate.id ∉ context.gaps (some facts) := by
    rw [StatusContext.gaps, mem_sortDedup, List.mem_append]
    intro listed
    rcases listed with declared | undeclared
    · obtain ⟨other, open_, same⟩ := List.mem_map.mp declared
      have still := (List.mem_filter.mp open_).2
      simp [isGap, same, covered] at still
    · obtain ⟨declared, absent, same⟩ := List.mem_map.mp undeclared
      have missing := (List.mem_filter.mp absent).2
      rw [Bool.and_eq_true, decide_eq_true_eq, same] at missing
      exact missing.2 (List.mem_map_of_mem member)
  intro same
  exact none (same ▸ gap)

end Timers

/-- Time alone changes the status before the reported instant exactly where an exception expires
unannounced. -/
theorem evaluateCanonicalStatus_timers (context : StatusContext) (facts : DecisionInputs) :
    (∀ elapsed, 0 < elapsed →
      (∀ next ∈ (evaluateCanonicalStatus context facts).nextStatusChangeAt,
        (context.after elapsed).asOf < next) →
      SameStatus (evaluateCanonicalStatus (context.after elapsed) (laterFacts facts elapsed))
        (evaluateCanonicalStatus context facts)) ↔ ExceptionsAnnounced context facts := by
  have reported : (evaluateCanonicalStatus context facts).nextStatusChangeAt =
    context.nextStatusChangeAt (some facts) := rfl
  rw [reported]
  constructor
  · intro complete gate member unproven exception covering expiry given
    by_contra unannounced
    have future : context.asOf < expiry := coveringException_future covering expiry given
    have reach : context.asOf.value + (expiry.value - context.asOf.value) = expiry.value :=
      Nat.add_sub_cancel' (le_of_lt future)
    have moved : (context.after (expiry.value - context.asOf.value)).asOf = expiry :=
      TypedRevision.value_injective reach
    have same := complete (expiry.value - context.asOf.value) (Nat.sub_pos_of_lt future) ?_
    · exact gaps_ne_of_expired member unproven covering given moved.ge same.gateGaps
    intro next change
    rw [moved, ← not_le]
    intro early
    rw [nextStatusChangeAt] at change
    split_ifs at change with settled
    · cases change
    · rw [Bool.or_eq_true, not_or, Bool.not_eq_true, Bool.not_eq_true] at settled
      have listed := (List.mem_filter.mp (List.min?_eq_some_iff.mp change).1).1
      exact unannounced ⟨settled.1, settled.2, next, watched_of_timer settled.1 listed,
        future_of_min? change, early⟩
  · intro announced elapsed _ before
    have calm : context.terminal = false → context.expiryPending (some facts) = false →
        Quiet context elapsed := by
      intro isOpen running
      rw [nextStatusChangeAt_eq isOpen running] at before
      exact unreached_of_min? before
    refine sameStatus_of_lasting ?_ calm
    intro gate member unproven exception covering expiry given
    obtain ⟨isOpen, running, moment, watched, future, early⟩ :=
      announced gate member unproven exception covering expiry given
    obtain ⟨timer, listed, later, first⟩ := timer_of_watched isOpen watched future
    exact (calm isOpen running timer listed later).trans_le (first.trans early)

def failedVerification : GateRequirement := ⟨⟨"verification"⟩, .verification, true, .failed⟩

def excusedContext : StatusContext :=
  { readyContext with
    work := { readyContext.work with acceptanceProfile := ⟨⟨"focused"⟩, "1", [failedVerification]⟩ }
    gates := [failedVerification] }

/-- An operator's exception for the failed gate, until instant 150. -/
def excusedFacts : DecisionInputs :=
  { readyFacts with
    requirements := .present ⟨readyProof, [⟨some ⟨"known outage", .operator, ⟨1⟩, ⟨1⟩, some ⟨150⟩, false⟩,
      ⟨"verified"⟩, ⟨"verification"⟩, .verification, true, .failed⟩], .notRequired⟩ }

theorem evaluateCanonicalStatus_unannounced : excusedFacts.validate = .ok () ∧
    (evaluateCanonicalStatus excusedContext excusedFacts).nextStatusChangeAt = none ∧
    (evaluateCanonicalStatus excusedContext excusedFacts).displayStatus = .complete ∧
    (evaluateCanonicalStatus (excusedContext.after 50) (laterFacts excusedFacts 50)).displayStatus =
      .needsVerification := by
  decide +kernel

end Boreal.Status
