/- Claimability: the branch of the precedence pass that offers a claim, and what it says about the
facts. -/
import BorealWork.StatusEvaluator

namespace Boreal.Status
open Decision WorkModel TimePolicy Sorting Checks

namespace StatusContext

variable {context : StatusContext} {facts : Option DecisionInputs}

structure Dispatchable (context : StatusContext) (facts : Option DecisionInputs) : Prop where
  isOpen : context.work.lifecycle = .open
  unexpired : context.expiryPending facts = false
  unheld : context.hardReasons facts = []
  unattempted : context.attempt = none
  unproven : (submitted facts || context.hasFailedProof) = false
  unpaused : context.work.dispatchPolicy ≠ .paused
  retriable : context.retryAt = none
  started : context.scheduledAt = none
  unblocked : context.prerequisiteReasons facts = []
  isTask : context.work.kind = .task

def OffersNothing (decision : PrimaryDecision) : Prop :=
  decision.status ≠ .ready ∧ decision.claimable = false

theorem pending_offersNothing {status : DerivedStatus} {action : Option DomainAction} {reason : ReasonCode}
    (other : status ≠ .ready) : OffersNothing (pending status action reason) := ⟨other, rfl⟩

theorem proofDecision_offersNothing (gates : List GateRequirement) (gaps : List GateId) :
    OffersNothing (proofDecision gates gaps) := by
  rw [proofDecision]
  split_ifs
  · exact pending_offersNothing (by decide)
  · exact pending_offersNothing (by decide)
  · exact pending_offersNothing (by decide)

theorem attemptDecision_offersNothing (current : Attempt) :
    OffersNothing (context.attemptDecision facts current) := by
  rw [attemptDecision]
  split
  · exact pending_offersNothing (by decide)
  · exact pending_offersNothing (by decide)
  · exact pending_offersNothing (by decide)
  · exact proofDecision_offersNothing _ _
  · exact proofDecision_offersNothing _ _
  · exact pending_offersNothing (by decide)

theorem selectHardReason_eq_none {reasons : List ReasonCode} :
    selectHardReason reasons = none ↔ reasons = [] := List.argmin_eq_none

theorem primaryDecision_cases :
    (Dispatchable context facts ∧
      context.primaryDecision facts = eligibility context.work context.actor) ∨
    OffersNothing (context.primaryDecision facts) := by
  rw [primaryDecision]
  by_cases closed : context.work.lifecycle = .closed
  · rw [if_pos closed]
    exact .inr (pending_offersNothing (by decide))
  rw [if_neg closed]
  by_cases cancelled : context.work.lifecycle = .cancelled
  · rw [if_pos cancelled]
    exact .inr (pending_offersNothing (by decide))
  rw [if_neg cancelled]
  by_cases expired : context.expiryPending facts = true
  · rw [if_pos expired]
    exact .inr (pending_offersNothing (by decide))
  rw [if_neg expired]
  cases held : selectHardReason (context.hardReasons facts) with
  | some reason => exact .inr (pending_offersNothing (by decide))
  | none =>
    simp only
    by_cases draft : context.work.lifecycle = .draft
    · rw [if_pos draft]
      exact .inr (pending_offersNothing (by decide))
    rw [if_neg draft, publishedDecision]
    cases attempted : context.attempt with
    | some current => exact .inr (attemptDecision_offersNothing current)
    | none =>
      simp only
      by_cases proven : (submitted facts || context.hasFailedProof) = true
      · rw [if_pos proven]
        exact .inr (proofDecision_offersNothing _ _)
      rw [if_neg proven, dispatchDecision]
      by_cases paused : context.work.dispatchPolicy = .paused
      · rw [if_pos paused]
        exact .inr (pending_offersNothing (by decide))
      rw [if_neg paused]
      cases retry : context.retryAt with
      | some moment => exact .inr (pending_offersNothing (by decide))
      | none =>
        cases start : context.scheduledAt with
        | some moment => exact .inr (pending_offersNothing (by decide))
        | none =>
          cases waiting : context.prerequisiteReasons facts with
          | cons reason rest => exact .inr (pending_offersNothing (by decide))
          | nil =>
            simp only
            by_cases container : context.work.kind ≠ .task
            · rw [if_pos container]
              exact .inr (pending_offersNothing (by decide))
            rw [if_neg container]
            refine .inl ⟨⟨?_, ?_, selectHardReason_eq_none.mp held, attempted, ?_, paused,
              retry, start, waiting, not_not.mp container⟩, rfl⟩
            · cases lifecycle : context.work.lifecycle with
              | draft => exact absurd lifecycle draft
              | «open» => rfl
              | closed => exact absurd lifecycle closed
              | cancelled => exact absurd lifecycle cancelled
            · exact Bool.eq_false_iff.mpr expired
            · exact Bool.eq_false_iff.mpr proven

theorem Dispatchable.primaryDecision (h : Dispatchable context facts) :
    context.primaryDecision facts = eligibility context.work context.actor := by
  rw [StatusContext.primaryDecision, publishedDecision, dispatchDecision, h.isOpen, h.unexpired,
    selectHardReason_eq_none.mpr h.unheld, h.unattempted, h.unproven, h.retriable, h.started,
    h.unblocked]
  simp [h.unpaused, h.isTask]

theorem eligibility_status (work : WorkItem) (actor : ActorContext) :
    (eligibility work actor).status = .ready := by
  rw [eligibility]
  split
  · rfl
  · split
    · rfl
    · rfl
    · rfl

def PermittedRole (work : WorkItem) (actor : ActorContext) : Prop :=
  if work.dispatchPolicy = .operatorOnly then actor.role = .operator else actor.role = .agent

theorem eligibility_claimable {work : WorkItem} {actor : ActorContext} :
    (eligibility work actor).claimable = true ↔ PermittedRole work actor := by
  rw [eligibility, PermittedRole]
  by_cases restricted : work.dispatchPolicy = .operatorOnly
  · rw [if_pos restricted, if_pos restricted]
    exact decide_eq_true_iff
  · rw [if_neg restricted, if_neg restricted]
    cases actor.role with
    | agent => exact iff_of_true rfl rfl
    | reviewer => exact iff_of_false nofun nofun
    | operator => exact iff_of_false nofun nofun
    | publisher => exact iff_of_false nofun nofun

theorem primaryDecision_ready :
    (context.primaryDecision facts).status = .ready ↔ Dispatchable context facts := by
  constructor
  · intro ready
    rcases @primaryDecision_cases context facts with ⟨dispatchable, _⟩ | closed
    · exact dispatchable
    · exact absurd ready closed.1
  · intro dispatchable
    rw [dispatchable.primaryDecision, eligibility_status]

theorem primaryDecision_claimable :
    (context.primaryDecision facts).claimable = true ↔
      Dispatchable context facts ∧ PermittedRole context.work context.actor := by
  constructor
  · intro claimable
    rcases @primaryDecision_cases context facts with ⟨dispatchable, decision⟩ | closed
    · rw [decision, eligibility_claimable] at claimable
      exact ⟨dispatchable, claimable⟩
    · exact absurd (closed.2.symm.trans claimable) Bool.false_ne_true
  · intro ⟨dispatchable, permitted⟩
    rw [dispatchable.primaryDecision, eligibility_claimable]
    exact permitted

theorem isError_eq_false {ε : Type} {result : Except ε Unit} :
    isError result = false ↔ result = .ok () := by
  cases result with
  | error e => exact iff_of_false nofun nofun
  | ok value => exact iff_of_true rfl rfl

theorem filter_future_eq_none {bound : Option TimestampMs} {now : TimestampMs} :
    bound.filter (now < ·) = none ↔ ∀ moment ∈ bound, moment ≤ now := by
  cases bound with
  | none => simp
  | some moment => simp

theorem attempt_eq_none :
    context.attempt = none ↔ ∀ current ∈ context.currentAttempt, isHistorical current.phase = true := by
  rw [attempt]
  cases context.currentAttempt with
  | none => simp
  | some current => simp

theorem expiryPending_unattempted (unattempted : context.attempt = none) :
    context.expiryPending facts = false ↔
      (durableRecovery facts).any (·.reason = .expired) = false := by
  simp [expiryPending, expiry, liveAttempt, unattempted]

theorem attemptMismatch_unattempted (unattempted : context.attempt = none) :
    context.attemptMismatch = false := by
  rw [attemptMismatch, unattempted]
  rfl

theorem rejectedReviews_eq_nil : context.rejectedReviews facts = [] ↔
    ∀ gate ∈ context.gates, context.isFailedReview facts gate = false := by
  simp [rejectedReviews, List.filter_eq_nil_iff]

theorem reviewHolds_eq_nil (clean : ∀ gate ∈ context.gates, context.isFailedReview facts gate = false) :
    context.reviewHolds facts = [] := by
  rw [reviewHolds, List.flatMap_eq_nil_iff]
  intro code _
  rw [reportIf_eq_nil, Bool.not_eq_true, List.any_eq_false]
  intro gate member
  rw [clean gate member]
  exact Bool.false_ne_true

theorem repeatedGateReasons_eq_nil :
    context.repeatedGateReasons = [] ↔ (context.gates.map (·.id)).Nodup := scan_repeated_eq_nil

/-- Every required declaration has its row, and every row agrees with its declaration. -/
def Declared (context : StatusContext) : Prop :=
  ∀ declared ∈ context.work.acceptanceProfile.gates,
    (declared.required = true → ∃ gate ∈ context.gates, gate.id = declared.id) ∧
    ∀ gate ∈ context.gates, gate.id = declared.id →
      gate.kind = declared.kind ∧ gate.required = declared.required

theorem declarationReasons_eq_nil (distinct : (context.gates.map (·.id)).Nodup)
    {declared : GateRequirement} : context.declarationReasons declared = [] ↔
      (declared.required = true → ∃ gate ∈ context.gates, gate.id = declared.id) ∧
      ∀ gate ∈ context.gates, gate.id = declared.id →
        gate.kind = declared.kind ∧ gate.required = declared.required := by
  rw [declarationReasons]
  cases found : context.gates.find? (·.id = declared.id) with
  | none =>
    have absent (gate : GateRequirement) (member : gate ∈ context.gates) :
        gate.id ≠ declared.id := by
      simpa using List.find?_eq_none.mp found gate member
    simp only [reportIf_eq_nil]
    constructor
    · intro optional
      refine ⟨fun required => absurd required optional, ?_⟩
      intro gate member same
      exact absurd same (absent gate member)
    · intro ⟨present, _⟩ required
      obtain ⟨gate, member, same⟩ := present required
      exact absent gate member same
  | some actual =>
    obtain ⟨member, same⟩ := (Lookup.find?_eq_some_iff distinct).mp found
    simp only [reportIf_eq_nil]
    constructor
    · intro agrees
      refine ⟨fun _ => ⟨actual, member, same⟩, ?_⟩
      intro gate other equal
      have first := (Lookup.find?_eq_some_iff distinct).mpr ⟨other, equal⟩
      cases found.symm.trans first
      exact ⟨not_not.mp fun h => agrees (.inl h), not_not.mp fun h => agrees (.inr h)⟩
    · intro ⟨_, all⟩ differs
      obtain ⟨kind, required⟩ := all actual member same
      rcases differs with h | h
      · exact h kind
      · exact h required

theorem configurationReasons_eq_nil : context.configurationReasons = [] ↔
    (context.gates.map (·.id)).Nodup ∧ Declared context := by
  rw [configurationReasons, List.append_eq_nil_iff, repeatedGateReasons_eq_nil, and_comm]
  refine and_congr_right fun distinct => ?_
  rw [List.flatMap_eq_nil_iff]
  exact forall₂_congr fun declared _ => declarationReasons_eq_nil distinct

theorem scheduledAt_eq_none : context.scheduledAt = none ↔
    context.workScheduleAt = none ∧ context.futureActivationAt = none ∧
      context.futureBusinessNotBeforeAt = none := by
  simp [scheduledAt, List.min?_eq_none_iff]

theorem scheduleInvalid_eq_false : context.scheduleInvalid = false ↔
    ∀ schedule ∈ context.schedule, targetInverted schedule = false := by
  rw [scheduleInvalid, scheduleDecision]
  cases context.schedule with
  | none => simp
  | some schedule =>
    cases inverted : targetInverted schedule with
    | true => simp [evaluateSchedule, inverted, isError]
    | false => simp [evaluateSchedule, inverted, isError]

theorem workScheduleAt_eq (isOpen : context.terminal = false) (valid : context.scheduleInvalid = false) :
    context.workScheduleAt = (context.schedule.bind (·.notBeforeAt)).filter (context.asOf < ·) := by
  rw [scheduleInvalid_eq_false] at valid
  rw [workScheduleAt, if_neg (by simp [isOpen]), scheduleView, scheduleDecision]
  cases given : context.schedule with
  | none => rfl
  | some schedule =>
    have view : (evaluateSchedule schedule context.asOf context.terminal).toOption.map
        (·.scheduled) = some (schedule.notBeforeAt.any (context.asOf < ·)) := by
      rw [evaluateSchedule, if_neg (Bool.eq_false_iff.mp (valid schedule given))]
      rfl
    rw [Option.map_some, Option.bind_some, Option.bind_some]
    cases read : (evaluateSchedule schedule context.asOf context.terminal).toOption with
    | none =>
      rw [read] at view
      cases view
    | some decision =>
      rw [read, Option.map_some, Option.some.injEq] at view
      cases bound : schedule.notBeforeAt with
      | none => cases decision.scheduled <;> simp [Option.filter]
      | some moment =>
        rw [bound, Option.any_some] at view
        by_cases future : context.asOf < moment
        · simp [Option.filter_some, view, future]
        · simp [Option.filter_some, view, future]

def startReached (context : StatusContext) : BusinessDate → Bool
  | .localDate date => context.businessTime.any fun businessTime => date ≤ businessTime.civilDate
  | value => value.asInstant.all (· ≤ context.asOf)

theorem available_of_clock {businessTime : BusinessTimeContext} (clock : businessTime.asOf = context.asOf)
    (given : context.businessTime = some businessTime) (schedule : BusinessSchedule) :
    schedule.available businessTime = schedule.notBefore.all context.startReached := by
  rw [BusinessSchedule.available]
  cases schedule.notBefore with
  | none => rfl
  | some value =>
    rw [Option.all_some, Option.all_some]
    cases value with
    | instant moment => simp [BusinessDate.reached, startReached, BusinessDate.asInstant, clock]
    | localDate date => simp [BusinessDate.reached, startReached, given]
    | resolvedLocal resolution =>
      simp [BusinessDate.reached, startReached, BusinessDate.asInstant, clock]

theorem available_of_instants {schedule : BusinessSchedule}
    (clockless : scheduleRequiresProjectClock schedule = false) :
    (context.instantScheduleView schedule).available = schedule.notBefore.all context.startReached := by
  simp only [instantScheduleView]
  rw [scheduleRequiresProjectClock] at clockless
  cases given : schedule.notBefore with
  | none => rfl
  | some value =>
    rw [given, Option.any_some] at clockless
    rw [Option.bind_some, Option.all_some]
    cases value with
    | instant moment => rfl
    | localDate date => cases clockless
    | resolvedLocal resolution => rfl

theorem evaluateBusiness_available {schedule : BusinessSchedule} {view : BusinessScheduleView}
    (read : context.evaluateBusiness schedule = .ok view) :
    view.available = schedule.notBefore.all context.startReached := by
  simp only [evaluateBusiness, Drain.bind_eq_ok] at read
  obtain ⟨_, _, read⟩ := read
  split at read
  · cases read
  cases given : context.businessTime with
  | some businessTime =>
    simp only [given] at read
    split_ifs at read with mismatch
    rw [Bool.not_eq_false, civilTimeMatches] at mismatch
    simp only [Bool.and_eq_true, decide_eq_true_eq] at mismatch
    simp only [evaluateBusinessSchedule, Drain.bind_eq_ok, pure, Except.pure, Except.ok.injEq] at read
    obtain ⟨_, _, _, _, _, _, rfl⟩ := read
    exact available_of_clock mismatch.1.1 given schedule
  | none =>
    simp only [given] at read
    split_ifs at read with clockless
    cases read
    exact available_of_instants (Bool.eq_false_iff.mpr clockless)

theorem businessScheduleInvalid_eq_false : context.businessScheduleInvalid = false ↔
    ∀ schedule ∈ context.businessSchedule, ∃ view, context.evaluateBusiness schedule = .ok view := by
  rw [businessScheduleInvalid, businessDecision]
  cases context.businessSchedule with
  | none => simp
  | some schedule =>
    cases read : context.evaluateBusiness schedule with
    | error error => simp [read, isError]
    | ok view => simp [read, isError]

theorem businessAvailable_eq (valid : context.businessScheduleInvalid = false) :
    context.businessAvailable =
      (context.businessSchedule.bind (·.notBefore)).all context.startReached := by
  rw [businessScheduleInvalid_eq_false] at valid
  rw [businessAvailable, businessView, businessDecision]
  cases given : context.businessSchedule with
  | none => rfl
  | some schedule =>
    obtain ⟨view, read⟩ := valid schedule given
    rw [Option.map_some, Option.bind_some, Option.bind_some, read]
    exact evaluateBusiness_available read

/-- No start of the business schedule is still to come: neither its own instant, nor the instant
that was resolved for its civil date. -/
def BusinessStarted (context : StatusContext) : Prop :=
  ∀ value ∈ context.businessSchedule.bind (·.notBefore),
    context.startReached value = true ∨ ∀ moment ∈ context.declaredStart value, moment ≤ context.asOf

theorem futureBusinessNotBeforeAt_eq_none (isOpen : context.terminal = false)
    (valid : context.businessScheduleInvalid = false) :
    context.futureBusinessNotBeforeAt = none ↔ BusinessStarted context := by
  rw [futureBusinessNotBeforeAt, businessAvailable_eq valid, isOpen, Bool.or_false, BusinessStarted]
  cases context.businessSchedule.bind (·.notBefore) with
  | none => simp
  | some value =>
    rw [Option.all_some, Option.bind_some]
    cases reached : context.startReached value with
    | true => simp [reached]
    | false => simp [reached]

def WaitOver (context : StatusContext) (wait : ExternalWaitScopeInput) : Prop :=
  wait.projectId = context.work.projectId ∧ (wait.state = .resolved ∨ wait.state = .cancelled)

theorem judgeFollowUp_blocking (wait : ExternalWaitScopeInput) (followUp : BusinessDate) :
    (context.judgeFollowUp wait followUp).blocking = true := by
  rw [judgeFollowUp]
  split
  · rfl
  · split
    · split
      · rfl
      · rfl
    · split
      · rfl
      · rfl

theorem judgeWait_clear {wait : ExternalWaitScopeInput} :
    ((context.judgeWait wait).blocking = false ∧ (context.judgeWait wait).invalid = false) ↔
      WaitOver context wait := by
  rw [judgeWait, WaitOver]
  by_cases foreign : wait.projectId ≠ context.work.projectId
  · rw [if_pos foreign]
    exact iff_of_false (by simp) fun finished => foreign finished.1
  rw [if_neg foreign]
  refine Iff.trans ?_ (and_iff_right (not_not.mp foreign)).symm
  cases wait.state with
  | resolved => exact iff_of_true ⟨rfl, rfl⟩ (.inl rfl)
  | cancelled => exact iff_of_true ⟨rfl, rfl⟩ (.inr rfl)
  | unknown => simp
  | «open» =>
    cases wait.followUp with
    | none => simp
    | some followUp => simp [judgeFollowUp_blocking]

theorem blockingExternalWaitIds_eq_nil : context.blockingExternalWaitIds = [] ↔
    ∀ wait ∈ context.scopedWaits, (context.judgeWait wait).blocking = false := by
  simp [blockingExternalWaitIds, List.filter_eq_nil_iff]

theorem waits_clear : (context.externalWaitInvalid = false ∧ context.blockingExternalWaitIds = []) ↔
    ∀ wait ∈ context.scopedWaits, WaitOver context wait := by
  rw [externalWaitInvalid, List.any_eq_false, blockingExternalWaitIds_eq_nil, and_comm, ← forall₂_and]
  refine forall₂_congr fun wait _ => ?_
  rw [Bool.not_eq_true]
  exact judgeWait_clear

def PrerequisitesMet (context : StatusContext) (facts : Option DecisionInputs) : Prop :=
  match facts.bind (·.dependencies.asPresent) with
  | some dependencies =>
    ∀ edge ∈ dependencies.edges, edge.outcome = .closed ∨ edge.waiver.isSome = true
  | none => ∀ item ∈ context.prerequisites, item.lifecycle = .closed

theorem openPrerequisites_eq_nil :
    context.openPrerequisites facts = [] ↔ PrerequisitesMet context facts := by
  rw [openPrerequisites, PrerequisitesMet]
  cases facts.bind (·.dependencies.asPresent) with
  | some dependencies =>
    simp only [List.map_eq_nil_iff, List.filter_eq_nil_iff]
    refine forall₂_congr fun edge _ => ?_
    cases edge.waiver with
    | none => simp
    | some waiver => simp
  | none => simp [List.filter_eq_nil_iff]

theorem prerequisiteReasons_eq_nil : context.prerequisiteReasons facts = [] ↔
    PrerequisitesMet context facts ∧ context.blockingExternalWaitIds = [] := by
  rw [prerequisiteReasons, sortReasons, sortDedup_eq_nil, List.append_eq_nil_iff,
    openPrerequisites_eq_nil, List.map_eq_nil_iff]

theorem hardReasons_eq_nil : context.hardReasons facts = [] ↔
    context.work.hardHolds = [] ∧ facts.any (fun facts => isError facts.validate) = false ∧
    (durableRecovery facts).any (·.reason ≠ .expired) = false ∧
    (context.scheduleInvalid = false ∧ context.businessScheduleInvalid = false ∧
      context.externalWaitInvalid = false) ∧
    context.attemptMismatch = false ∧ context.configurationReasons = [] ∧
    ∀ gate ∈ context.gates, context.isFailedReview facts gate = false := by
  simp only [hardReasons, interventionReasons, List.append_eq_nil_iff, reportIf_eq_nil,
    Bool.not_eq_true, rejectedReviews_eq_nil]
  constructor
  · intro ⟨⟨⟨⟨⟨⟨⟨⟨⟨h₁, h₂⟩, h₃⟩, _⟩, h₅⟩, h₆⟩, h₇⟩, h₈⟩, h₉⟩, h₁₀⟩
    exact ⟨h₁, h₂, h₃, ⟨h₅, h₆, h₇⟩, h₈, h₉, h₁₀⟩
  · intro ⟨h₁, h₂, h₃, ⟨h₅, h₆, h₇⟩, h₈, h₉, h₁₀⟩
    exact ⟨⟨⟨⟨⟨⟨⟨⟨⟨h₁, h₂⟩, h₃⟩, reviewHolds_eq_nil h₁₀⟩, h₅⟩, h₆⟩, h₇⟩, h₈⟩, h₉⟩, h₁₀⟩

def Unfailed (context : StatusContext) (facts : Option DecisionInputs) : Prop :=
  ∀ gate ∈ context.gates, gate.required = true → gate.state = .failed →
    gate.kind = .review ∧ context.exceptionSatisfies facts gate.id = true

theorem unfailed_iff : Unfailed context facts ↔
    context.hasFailedProof = false ∧
      ∀ gate ∈ context.gates, context.isFailedReview facts gate = false := by
  rw [Unfailed, hasFailedProof, List.any_eq_false, ← forall₂_and]
  refine forall₂_congr fun gate _ => ?_
  rw [isFailedReview]
  by_cases required : gate.required = true
  · by_cases failed : gate.state = .failed
    · by_cases review : gate.kind = .review
      · simp [required, failed, review]
      · simp [required, failed, review]
    · simp [failed]
  · simp [required]

theorem durableRecovery_eq_none : durableRecovery facts = none ↔
    ((durableRecovery facts).any (·.reason = .expired) = false ∧
      (durableRecovery facts).any (·.reason ≠ .expired) = false) := by
  cases durableRecovery facts with
  | none => simp
  | some recovery => simp

/-- Everything that a claim rests on, each part read off the input. -/
structure Claimable (context : StatusContext) (facts : DecisionInputs) : Prop where
  isTask : context.work.kind = .task
  isOpen : context.work.lifecycle = .open
  unattempted : ∀ current ∈ context.currentAttempt, isHistorical current.phase = true
  recovered : ∀ recovery ∈ facts.recovery.asPresent, recovery.unresolved = false
  unsubmitted : ∀ submission ∈ facts.submission.asPresent, submission.state ≠ .sealed
  unheld : context.work.hardHolds = []
  valid : facts.validate = .ok ()
  distinctGates : (context.gates.map (·.id)).Nodup
  declared : Declared context
  unfailed : Unfailed context (some facts)
  scheduleValid : ∀ schedule ∈ context.schedule, targetInverted schedule = false
  businessValid : ∀ schedule ∈ context.businessSchedule,
    ∃ view, context.evaluateBusiness schedule = .ok view
  unpaused : context.work.dispatchPolicy ≠ .paused
  retriable : ∀ moment ∈ context.retryNotBefore, moment ≤ context.asOf
  started : ∀ moment ∈ context.schedule.bind (·.notBeforeAt), moment ≤ context.asOf
  activated : ∀ moment ∈ context.activationAt, moment ≤ context.asOf
  businessStarted : BusinessStarted context
  prerequisites : PrerequisitesMet context (some facts)
  waitsOver : ∀ wait ∈ context.externalWaits, wait.affectedWorkId = context.work.id →
    WaitOver context wait
  permitted : PermittedRole context.work context.actor

theorem dispatchable_of_claimable {facts : DecisionInputs} (h : Claimable context facts) :
    Dispatchable context (some facts) := by
  have isOpen : context.terminal = false := by rw [terminal, h.isOpen]; rfl
  have unattempted := attempt_eq_none.mpr h.unattempted
  have recovered : durableRecovery (some facts) = none := by
    rw [durableRecovery, Option.bind_some]
    cases given : facts.recovery.asPresent with
    | none => rfl
    | some recovery => simp [h.recovered recovery given]
  obtain ⟨unexpired, unrecovering⟩ := durableRecovery_eq_none.mp recovered
  obtain ⟨unproven, unrejected⟩ := unfailed_iff.mp h.unfailed
  obtain ⟨waits, blocking⟩ := waits_clear.mpr fun wait member =>
    h.waitsOver wait (List.mem_filter.mp member).1 (of_decide_eq_true (List.mem_filter.mp member).2)
  have schedule := scheduleInvalid_eq_false.mpr h.scheduleValid
  have business := businessScheduleInvalid_eq_false.mpr h.businessValid
  refine ⟨h.isOpen, (expiryPending_unattempted unattempted).mpr unexpired, ?_, unattempted, ?_,
    h.unpaused, filter_future_eq_none.mpr h.retriable, ?_, ?_, h.isTask⟩
  · refine hardReasons_eq_nil.mpr ⟨h.unheld, ?_, unrecovering, ⟨schedule, business, waits⟩,
      attemptMismatch_unattempted unattempted,
      configurationReasons_eq_nil.mpr ⟨h.distinctGates, h.declared⟩, unrejected⟩
    rw [Option.any_some, isError_eq_false]
    exact h.valid
  · rw [unproven, Bool.or_false, submitted, Option.bind_some]
    cases given : facts.submission.asPresent with
    | none => rfl
    | some submission => simp [h.unsubmitted submission given]
  · refine scheduledAt_eq_none.mpr ⟨?_, ?_, ?_⟩
    · rw [workScheduleAt_eq isOpen schedule, filter_future_eq_none]
      exact h.started
    · rw [futureActivationAt, if_neg (by simp [isOpen]), filter_future_eq_none]
      exact h.activated
    · exact (futureBusinessNotBeforeAt_eq_none isOpen business).mpr h.businessStarted
  · exact prerequisiteReasons_eq_nil.mpr ⟨h.prerequisites, blocking⟩

theorem Dispatchable.claimable {facts : DecisionInputs} (h : Dispatchable context (some facts))
    (permitted : PermittedRole context.work context.actor) : Claimable context facts := by
  have isOpen : context.terminal = false := by rw [terminal, h.isOpen]; rfl
  obtain ⟨unheld, valid, unrecovering, ⟨schedule, business, waits⟩, _, configuration, unrejected⟩ :=
    hardReasons_eq_nil.mp h.unheld
  have recovered := durableRecovery_eq_none.mpr
    ⟨(expiryPending_unattempted h.unattempted).mp h.unexpired, unrecovering⟩
  obtain ⟨distinct, declared⟩ := configurationReasons_eq_nil.mp configuration
  obtain ⟨unsubmitted, unproven⟩ := Bool.or_eq_false_iff.mp h.unproven
  obtain ⟨started, activated, businessStarted⟩ := scheduledAt_eq_none.mp h.started
  obtain ⟨prerequisites, blocking⟩ := prerequisiteReasons_eq_nil.mp h.unblocked
  rw [workScheduleAt_eq isOpen schedule, filter_future_eq_none] at started
  rw [futureActivationAt, if_neg (by simp [isOpen]), filter_future_eq_none] at activated
  refine ⟨h.isTask, h.isOpen, attempt_eq_none.mp h.unattempted, ?_, ?_, unheld, ?_, distinct,
    declared, unfailed_iff.mpr ⟨unproven, unrejected⟩, scheduleInvalid_eq_false.mp schedule,
    businessScheduleInvalid_eq_false.mp business, h.unpaused, filter_future_eq_none.mp h.retriable,
    started, activated, (futureBusinessNotBeforeAt_eq_none isOpen business).mp businessStarted,
    prerequisites, ?_, permitted⟩
  · intro recovery given
    rw [durableRecovery, Option.bind_some, given, Option.filter_eq_none_iff] at recovered
    simpa using recovered
  · intro submission given
    rw [submitted, Option.bind_some, given] at unsubmitted
    simpa using unsubmitted
  · rw [Option.any_some, isError_eq_false] at valid
    exact valid
  · intro wait member ours
    exact waits_clear.mp ⟨waits, blocking⟩ wait
      (List.mem_filter.mpr ⟨member, decide_eq_true ours⟩)

end StatusContext

open StatusContext

/-- The evaluator offers the claim exactly to the facts that it rests on. -/
theorem evaluateCanonicalStatus_claimable (context : StatusContext) (facts : DecisionInputs) :
    (evaluateCanonicalStatus context facts).claimableForActor = true ↔ Claimable context facts := by
  rw [evaluateCanonicalStatus, evaluateStatusInner, primaryDecision_claimable]
  constructor
  · intro ⟨dispatchable, permitted⟩
    exact dispatchable.claimable permitted
  · intro claimable
    exact ⟨dispatchable_of_claimable claimable, claimable.permitted⟩

def readySubject : EntityIdentity := ⟨⟨"atlas"⟩, ⟨"publish"⟩, ⟨1⟩⟩

def readyProof : ProofIdentity where
  entity := readySubject
  proofRevision := ⟨1⟩
  attempt := none
  sourceSnapshot := some ⟨"tree"⟩
  configuration := some ⟨"release"⟩
  profile := ⟨⟨"focused"⟩, "1", ⟨"digest"⟩⟩
  policyVersion := "1"

def allowedAbsence {α : Type} (fact : FactKind) : Fact α :=
  .absent ⟨fact, ⟨readySubject.projectId, readySubject.workId, .work⟩, .allowed⟩

def readyFacts : DecisionInputs where
  subject := readySubject
  snapshotRevision := ⟨7⟩
  clock := ⟨⟨100⟩, ⟨none, none, none⟩⟩
  availability := .live
  dispatchPolicy := .automatic
  lifecycle := .present ⟨readySubject, .open, none⟩
  authority := .present ⟨⟨"root"⟩, ⟨"atlas"⟩, .agent, .authenticated ⟨"builder"⟩, some ⟨"session"⟩⟩
  requirements := .present ⟨readyProof, [], .notRequired⟩
  dependencies := .present ⟨[]⟩
  holds := .present ⟨[]⟩
  execution := allowedAbsence .execution
  submission := allowedAbsence .submission
  review := allowedAbsence .review
  recovery := allowedAbsence .recovery
  integrity := ⟨⟨⟨"atlas"⟩, ⟨"publish"⟩, .work⟩, .valid, []⟩
  permittedActions := ⟨{.claim, .acceptAttempt, .resumeAttempt, .submit}, []⟩

def readyContext : StatusContext where
  work := ⟨⟨⟨"publish"⟩, ⟨"atlas"⟩, .task, none⟩, .open, .automatic, [], ⟨⟨"focused"⟩, "1", []⟩⟩
  prerequisites := []
  currentAttempt := none
  gates := []
  actor := ⟨⟨"builder"⟩, .agent⟩
  asOf := ⟨100⟩
  projectRevision := ⟨7⟩
  retryNotBefore := none
  schedule := none
  businessSchedule := none
  businessScheduleRevision := none
  businessScheduleSettingRevision := none
  businessTime := none
  businessNotBeforeAt := none
  businessScheduleNextChangeAt := none
  externalWaitNextChangeAt := none
  externalWaits := []
  activationAt := none
  affectedDependents := []

def submittedFacts : DecisionInputs :=
  { readyFacts with
    submission := .present ⟨⟨"builder"⟩, ⟨"session"⟩, ⟨"root"⟩, ⟨"result"⟩, readyProof, .sealed⟩ }

def recoveringFacts : DecisionInputs :=
  { readyFacts with
    recovery := .present ⟨⟨"stop"⟩, ⟨⟨"first"⟩, ⟨1⟩⟩, .stopUnknown, .unknown, true⟩ }

def degradedFacts : DecisionInputs :=
  { readyFacts with
    integrity := ⟨readyFacts.integrity.scope, .degraded, [⟨readyFacts.integrity.scope, .stale⟩]⟩ }

def heldFacts : DecisionInputs :=
  { readyFacts with
    holds := .present ⟨[⟨⟨"hold"⟩, readyFacts.integrity.scope, ⟨"freeze"⟩, ⟨1⟩, true⟩]⟩ }

def completedContext : StatusContext :=
  { readyContext with
    currentAttempt := some ⟨⟨"publish"⟩, ⟨"first"⟩, ⟨"builder"⟩, some ⟨"session"⟩, ⟨1⟩, .completed,
      ⟨10⟩, ⟨20⟩, ⟨30⟩⟩ }

def failedGateContext : StatusContext :=
  { readyContext with
    gates := [⟨⟨"verification"⟩, .verification, true, .failed⟩] }

def foreignWaitContext : StatusContext :=
  { readyContext with
    externalWaits := [⟨⟨"other"⟩, "answer", ⟨"publish"⟩, .resolved, none, none⟩] }

/-- The work may start on a later civil date, and no instant was resolved for that date. -/
def laterDateContext : StatusContext :=
  { readyContext with
    businessSchedule := some ⟨some (.localDate ⟨2027, 1, 16⟩), none, none, none⟩
    businessTime := some ⟨⟨"atlas"⟩, 1, ⟨100⟩, ⟨2027, 1, 15⟩, "Etc/UTC", "2026a"⟩ }

instance (context : StatusContext) (facts : Option DecisionInputs) :
    Decidable (PrerequisitesMet context facts) := decidable_of_iff _ openPrerequisites_eq_nil

instance (work : WorkItem) (actor : ActorContext) : Decidable (PermittedRole work actor) :=
  inferInstanceAs (Decidable (if work.dispatchPolicy = .operatorOnly then actor.role = .operator
    else actor.role = .agent))

abbrev Described (context : StatusContext) (facts : DecisionInputs) : Prop :=
  (context.work.kind = .task ∧ context.work.lifecycle = .open) ∧
  (∀ current ∈ context.currentAttempt,
    current.phase.isTerminal = true ∧ isExpiredPhase current.phase = false) ∧
  (context.work.hardHolds = [] ∧
    ∀ holds ∈ facts.holds.asPresent, ∀ hold ∈ holds.holds, hold.active = false) ∧
  (context.configurationReasons = [] ∧ context.scheduleInvalid = false ∧
    context.businessScheduleInvalid = false) ∧
  (facts.validate = .ok () ∧ facts.integrity.level = .valid ∧ facts.integrity.diagnostics = []) ∧
  context.work.dispatchPolicy ≠ .paused ∧ PrerequisitesMet context (some facts) ∧
  (∀ wait ∈ context.scopedWaits, wait.state ≠ .open ∧ wait.state ≠ .unknown) ∧
  (context.retryAt = none ∧ context.workScheduleAt = none ∧ context.futureActivationAt = none ∧
    (context.businessSchedule.bind (·.notBefore)).all context.startReached = true) ∧
  PermittedRole context.work context.actor

instance (context : StatusContext) (facts : DecisionInputs) : Decidable (Described context facts) :=
  inferInstance

theorem described_inexact :
    (∀ input ∈ [(readyContext, submittedFacts), (readyContext, recoveringFacts),
        (completedContext, readyFacts), (failedGateContext, readyFacts),
        (foreignWaitContext, readyFacts)],
      Described input.1 input.2 ∧
        (evaluateCanonicalStatus input.1 input.2).claimableForActor = false) ∧
    ∀ input ∈ [(readyContext, degradedFacts), (readyContext, heldFacts),
        (laterDateContext, readyFacts)],
      ¬ Described input.1 input.2 ∧
        (evaluateCanonicalStatus input.1 input.2).claimableForActor = true := by
  decide

end Boreal.Status
