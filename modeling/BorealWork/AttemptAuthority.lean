/- Who may act on an attempt, sample after sample: an attempt that has expired is never authorised
again. -/
import BorealWork.TimePolicy

namespace Boreal.TimePolicy

section Clock

variable {clock : PolicyClock} {view : ClockView}

theorem afterPrevious_ge (clock : PolicyClock) :
    clock.observedAt ≤ clock.afterPrevious.1 ∧
      ∀ previous ∈ clock.previousObservedAt, previous ≤ clock.afterPrevious.1 := by
  rw [PolicyClock.afterPrevious]
  cases clock.previousObservedAt with
  | none => simp
  | some previous =>
    simp only [Option.mem_some_iff, forall_eq']
    split_ifs with backward
    · exact ⟨backward.le, le_rfl⟩
    · exact ⟨le_rfl, not_lt.mp backward⟩

theorem resolve_ge (resolved : clock.resolve = .ok view) : clock.afterPrevious.1 ≤ view.effectiveAt := by
  rw [PolicyClock.resolve] at resolved
  generalize clock.restart = restart at resolved
  rcases restart with _ | ⟨persistedAt, _ | elapsed⟩
  · cases resolved
    exact le_rfl
  · cases resolved
    exact le_max_left _ _
  · rw [afterRestart] at resolved
    split at resolved
    case h_1 => cases resolved
    case h_2 =>
        cases resolved
        exact (le_max_left _ _).trans (le_max_left _ _)

end Clock

section Window

variable {attempt : Attempt} {window : AttemptWindow}

theorem fromAttempt_ok : AttemptWindow.fromAttempt attempt = .ok window ↔
    attempt.claimedAt = window.claimedAt ∧ attempt.leaseDeadline = window.leaseDeadline ∧
      attempt.maxAttemptDeadline = window.hardDeadline := by
  rw [AttemptWindow.fromAttempt, AttemptWindow.new]
  constructor
  · intro built
    split_ifs at built
    cases built
    exact ⟨rfl, rfl, rfl⟩
  · intro same
    obtain ⟨claimedAt, leaseDeadline, hardDeadline, lease, hard⟩ := window
    obtain ⟨rfl, rfl, rfl⟩ := same
    rw [dif_neg (not_le.mpr lease), dif_neg (not_le.mpr hard)]

theorem fromAttempt_of_lt (lease : attempt.claimedAt < attempt.leaseDeadline)
    (hard : attempt.claimedAt < attempt.maxAttemptDeadline) :
    AttemptWindow.fromAttempt attempt =
      .ok ⟨attempt.claimedAt, attempt.leaseDeadline, attempt.maxAttemptDeadline, lease, hard⟩ :=
  fromAttempt_ok.mpr ⟨rfl, rfl, rfl⟩

theorem expiryReason_eq_none {asOf : TimestampMs} : window.expiryReason asOf = none ↔
    asOf < window.leaseDeadline ∧ asOf < window.hardDeadline := by
  rw [AttemptWindow.expiryReason, AttemptWindow.leaseElapsed, AttemptWindow.hardBudgetElapsed]
  simp only [lt_iff_not_ge]
  by_cases lease : window.leaseDeadline ≤ asOf
  · by_cases hard : window.hardDeadline ≤ asOf
    · simp only [lease, hard, decide_true]
      split_ifs <;> simp
    · simp [lease, hard]
  · by_cases hard : window.hardDeadline ≤ asOf
    · simp [lease, hard]
    · simp [lease, hard]

end Window

section Authority

variable {snapshot : AttemptSnapshot} {token : AuthorityToken}

theorem decideAuthority_authorized {clock : ClockView} {window : AttemptWindow} {hard lease : Bool} :
    decideAuthority snapshot clock window hard lease (some token) = .authorized ↔
      (snapshot.current = true ∧ snapshot.ownsExecution = true) ∧
        (token.attemptId = snapshot.attempt.attemptId ∧ token.fence = snapshot.attempt.fence) ∧
        clock.validity.allowsMutation = true ∧ window.claimedAt ≤ clock.effectiveAt ∧
        lease = false ∧ hard = false := by
  rw [decideAuthority]
  split_ifs <;> simp_all

structure Entitled (snapshot : AttemptSnapshot) (clock : PolicyClock) (token : AuthorityToken) :
    Prop where
  current : snapshot.current = true
  live : AttemptSnapshot.isExecuting snapshot.attempt.phase = true
  attemptId : token.attemptId = snapshot.attempt.attemptId
  fence : token.fence = snapshot.attempt.fence
  timely : ∃ view, clock.resolve = .ok view ∧ view.validity = .trusted ∧
    snapshot.attempt.claimedAt ≤ view.effectiveAt ∧
    view.effectiveAt < snapshot.attempt.leaseDeadline ∧
    view.effectiveAt < snapshot.attempt.maxAttemptDeadline

def Authorized (snapshot : AttemptSnapshot) (clock : PolicyClock) (token : AuthorityToken) : Prop :=
  ∃ decision, evaluateAttempt snapshot clock (some token) = .ok decision ∧
    decision.authority = .authorized

def UnexplainedRecovery (snapshot : AttemptSnapshot) : Prop :=
  snapshot.recovery = .pending ∧ snapshot.retainedExpiryReason = none

theorem allowsMutation_iff {validity : ClockValidity} :
    validity.allowsMutation = true ↔ validity = .trusted := by
  cases validity <;> simp [ClockValidity.allowsMutation]

theorem timingIsApplicable_of_executing (current : snapshot.current = true)
    (live : AttemptSnapshot.isExecuting snapshot.attempt.phase = true) :
    snapshot.timingIsApplicable = true := by
  simp [AttemptSnapshot.timingIsApplicable, current, live]

theorem phaseRequiresReview_of_executing
    (live : AttemptSnapshot.isExecuting snapshot.attempt.phase = true) :
    snapshot.phaseRequiresReview = false := by
  rw [AttemptSnapshot.phaseRequiresReview]
  cases phase : snapshot.attempt.phase <;>
    simp [phase, AttemptSnapshot.isExecuting, AttemptSnapshot.isExpiring] at live ⊢

variable {clock : PolicyClock}

theorem evaluateAttempt_ok {presented : Option AuthorityToken} {decision : AttemptTimeDecision} :
    evaluateAttempt snapshot clock presented = .ok decision ↔
      ∃ view window, clock.resolve = .ok view ∧
        AttemptWindow.fromAttempt snapshot.attempt = .ok window ∧
        ¬ (snapshot.expired window view.effectiveAt = true ∧
          snapshot.expiryReason window view.effectiveAt = none) ∧
        decideAttempt snapshot view window presented = decision := by
  simp only [evaluateAttempt, Drain.bind_eq_ok]
  refine exists_congr fun view => ?_
  rw [← exists_and_left]
  refine exists_congr fun window => and_congr_right fun _ => and_congr_right fun _ => ?_
  split_ifs with unexplained
  · exact iff_of_false (by simp) fun h => h.1 unexplained
  · rw [Except.ok.injEq, and_iff_right unexplained]

theorem reviewRequired_of_executing (live : AttemptSnapshot.isExecuting snapshot.attempt.phase = true) :
    snapshot.reviewRequired = decide (snapshot.recovery = .pending) := by
  rw [AttemptSnapshot.reviewRequired, phaseRequiresReview_of_executing live, Bool.or_false]

theorem authorized_iff : Authorized snapshot clock token ↔
    Entitled snapshot clock token ∧ ¬ UnexplainedRecovery snapshot := by
  constructor
  · intro authorized
    obtain ⟨decision, evaluated, allowed⟩ := authorized
    obtain ⟨view, window, resolved, built, explained, rfl⟩ := evaluateAttempt_ok.mp evaluated
    obtain ⟨⟨current, owned⟩, ⟨attemptId, fence⟩, trusted, claimed, lease, hard⟩ :=
      decideAuthority_authorized.mp allowed
    obtain ⟨claimedAt, leaseDeadline, hardDeadline⟩ := fromAttempt_ok.mp built
    have live : AttemptSnapshot.isExecuting snapshot.attempt.phase = true := by
      rwa [AttemptSnapshot.ownsExecution, current, Bool.true_and] at owned
    have applicable := timingIsApplicable_of_executing current live
    rw [AttemptSnapshot.leaseElapsed, applicable, Bool.true_and, AttemptWindow.leaseElapsed,
      decide_eq_false_iff_not, not_le, ← leaseDeadline] at lease
    rw [AttemptSnapshot.hardBudgetElapsed, applicable, Bool.true_and,
      AttemptWindow.hardBudgetElapsed, decide_eq_false_iff_not, not_le, ← hardDeadline] at hard
    refine ⟨⟨current, live, attemptId, fence, view, resolved, allowsMutation_iff.mp trusted,
      claimedAt ▸ claimed, lease, hard⟩, fun recovery => explained ⟨?_, ?_⟩⟩
    · simp [AttemptSnapshot.expired, applicable, reviewRequired_of_executing live, recovery.1]
    · rw [AttemptSnapshot.expiryReason, recovery.2, Option.none_or, expiryReason_eq_none,
        ← leaseDeadline, ← hardDeadline]
      exact ⟨lease, hard⟩
  · intro entitled
    obtain ⟨⟨current, live, attemptId, fence, view, resolved, trusted, claimed, lease, hard⟩,
      explained⟩ := entitled
    have built := fromAttempt_of_lt (claimed.trans_lt lease) (claimed.trans_lt hard)
    have applicable := timingIsApplicable_of_executing current live
    have unelapsed : snapshot.leaseElapsed ⟨_, _, _, claimed.trans_lt lease, claimed.trans_lt hard⟩
        view.effectiveAt = false := by
      simp [AttemptSnapshot.leaseElapsed, AttemptWindow.leaseElapsed, lease]
    have within : snapshot.hardBudgetElapsed
        ⟨_, _, _, claimed.trans_lt lease, claimed.trans_lt hard⟩ view.effectiveAt = false := by
      simp [AttemptSnapshot.hardBudgetElapsed, AttemptWindow.hardBudgetElapsed, hard]
    refine ⟨_, evaluateAttempt_ok.mpr ⟨view, _, resolved, built, ?_, rfl⟩, ?_⟩
    · rw [AttemptSnapshot.expired, unelapsed, within, applicable, reviewRequired_of_executing live]
      simp only [Bool.or_self, Bool.false_or, Bool.true_and, decide_eq_true_eq]
      intro unexplained
      apply explained
      exact ⟨unexplained.1, (Option.or_eq_none_iff.mp unexplained.2).1⟩
    · refine decideAuthority_authorized.mpr ⟨⟨current, ?_⟩, ⟨attemptId, fence⟩,
        allowsMutation_iff.mpr trusted, claimed, unelapsed, within⟩
      rw [AttemptSnapshot.ownsExecution, current, live, Bool.true_and]

end Authority

section Renewal

variable {snapshot : AttemptSnapshot} {clock : PolicyClock} {token : AuthorityToken} {leaseTtlMs : ℕ}
  {renewal : LeaseRenewal}

theorem renewLease_ok (renewed : renewLease snapshot token clock leaseTtlMs = .ok renewal) :
    Authorized snapshot clock token ∧ renewal.hardDeadline = snapshot.attempt.maxAttemptDeadline ∧
      snapshot.attempt.leaseDeadline ≤ renewal.newLeaseDeadline := by
  simp only [renewLease, Drain.bind_eq_ok, Drain.mapError_eq_ok] at renewed
  obtain ⟨decision, evaluated, renewed⟩ := renewed
  obtain ⟨view, window, resolved, built, _⟩ := evaluateAttempt_ok.mp evaluated
  obtain ⟨_, leaseDeadline, hardDeadline⟩ := fromAttempt_ok.mp built
  split_ifs at renewed with refused
  simp only [Drain.bind_eq_ok, Drain.mapError_eq_ok, resolved, built, Except.ok.injEq, exists_eq_left'] at renewed
  obtain ⟨newLeaseDeadline, _, renewed⟩ := renewed
  split_ifs at renewed with elapsed shortened
  cases renewed
  exact ⟨⟨decision, evaluated, not_not.mp refused⟩, hardDeadline.symm,
    leaseDeadline.trans_le (not_lt.mp shortened)⟩

end Renewal

section Run

/-- An attempt and the last effective instant at which it was looked at. -/
structure Tenure where
  attempt : Attempt
  effectiveAt : TimestampMs
  deriving DecidableEq

/-- What is read beside the attempt's window at one sample. -/
structure Sample where
  observedAt : TimestampMs
  restart : Option RestartObservation
  phase : AttemptPhase
  current : Bool
  recovery : RecoveryState
  retainedExpiryReason : Option ExpiryReason
  deriving DecidableEq

inductive TimeEvent
  | evaluate (sample : Sample)
  | renew (sample : Sample) (token : AuthorityToken) (leaseTtlMs : ℕ)
  deriving DecidableEq

namespace Tenure

variable (s : Tenure) (sample : Sample)

def snapshot : AttemptSnapshot :=
  ⟨{ s.attempt with phase := sample.phase }, sample.current, sample.recovery, sample.retainedExpiryReason⟩

/-- Each sample is resolved after the last effective instant. -/
def clock : PolicyClock := ⟨sample.observedAt, some s.effectiveAt, sample.restart⟩

def observe : Tenure :=
  match (s.clock sample).resolve with
  | .error _ => s
  | .ok view => { s with effectiveAt := view.effectiveAt }

def step : TimeEvent → Tenure
  | .evaluate sample => s.observe sample
  | .renew sample token leaseTtlMs =>
    match renewLease (s.snapshot sample) token (s.clock sample) leaseTtlMs with
    | .error _ => s.observe sample
    | .ok renewal =>
      { s.observe sample with
        attempt := { s.attempt with
          leaseDeadline := renewal.newLeaseDeadline
          maxAttemptDeadline := renewal.hardDeadline } }

def run (events : List TimeEvent) : Tenure := events.foldl step s

/-- The lease or the hard budget has run out. -/
def Elapsed : Prop :=
  s.attempt.leaseDeadline ≤ s.effectiveAt ∨ s.attempt.maxAttemptDeadline ≤ s.effectiveAt

/-- Nobody can use or extend the attempt any more. -/
def Spent : Prop :=
  ∀ sample token, ¬ Authorized (s.snapshot sample) (s.clock sample) token ∧
    ∀ leaseTtlMs renewal, renewLease (s.snapshot sample) token (s.clock sample) leaseTtlMs ≠
      .ok renewal

/-- What time may do to an attempt. -/
structure Advances (s s' : Tenure) : Prop where
  hard : s'.attempt.maxAttemptDeadline = s.attempt.maxAttemptDeadline
  lease : s.attempt.leaseDeadline ≤ s'.attempt.leaseDeadline
  effective : s.effectiveAt ≤ s'.effectiveAt

variable {s sample}

theorem Advances.refl (s : Tenure) : Advances s s := ⟨rfl, le_rfl, le_rfl⟩

theorem Advances.trans {s s' s'' : Tenure} (h : Advances s s') (h' : Advances s' s'') : Advances s s'' :=
  ⟨h'.hard.trans h.hard, h.lease.trans h'.lease, h.effective.trans h'.effective⟩

theorem resolve_after {view : ClockView} (resolved : (s.clock sample).resolve = .ok view) :
    s.effectiveAt ≤ view.effectiveAt :=
  ((afterPrevious_ge (s.clock sample)).2 s.effectiveAt rfl).trans (resolve_ge resolved)

theorem observe_attempt : (s.observe sample).attempt = s.attempt := by
  rw [observe]
  split <;> rfl

theorem observe_effectiveAt : s.effectiveAt ≤ (s.observe sample).effectiveAt := by
  rw [observe]
  split
  case h_1 => exact le_rfl
  case h_2 view resolved => exact resolve_after resolved

theorem step_advances (event : TimeEvent) : Advances s (s.step event) := by
  cases event with
  | evaluate sample =>
    rw [step]
    exact ⟨by rw [observe_attempt], by rw [observe_attempt], observe_effectiveAt⟩
  | renew sample token leaseTtlMs =>
    rw [step]
    split
    case h_1 => exact ⟨by rw [observe_attempt], by rw [observe_attempt], observe_effectiveAt⟩
    case h_2 renewal renewed =>
        obtain ⟨_, hard, lease⟩ := renewLease_ok renewed
        exact ⟨hard, lease, observe_effectiveAt⟩

theorem run_advances (events : List TimeEvent) : Advances s (s.run events) := by
  induction events generalizing s with
  | nil => exact .refl s
  | cons event rest ih => exact (step_advances event).trans ih

theorem Elapsed.spent (elapsed : s.Elapsed) : s.Spent := by
  intro sample token
  have refused : ¬ Authorized (s.snapshot sample) (s.clock sample) token := by
    intro authorized
    obtain ⟨view, resolved, _, _, lease, hard⟩ := (authorized_iff.mp authorized).1.timely
    have later := resolve_after resolved
    rcases elapsed with gone | gone
    · exact absurd (lease.trans_le gone) (not_lt.mpr later)
    · exact absurd (hard.trans_le gone) (not_lt.mpr later)
  exact ⟨refused, fun _ _ renewed => refused (renewLease_ok renewed).1⟩

theorem Elapsed.step (elapsed : s.Elapsed) (event : TimeEvent) : (s.step event).Elapsed := by
  have advanced := step_advances (s := s) event
  have same : (s.step event).attempt = s.attempt := by
    cases event with
    | evaluate sample => exact observe_attempt
    | renew sample token leaseTtlMs =>
      rw [Tenure.step]
      split
      case h_1 => exact observe_attempt
      case h_2 renewal renewed =>
          exact absurd renewed ((elapsed.spent sample token).2 leaseTtlMs renewal)
  rw [Elapsed, same]
  exact elapsed.imp (le_trans · advanced.effective) (le_trans · advanced.effective)

theorem Elapsed.run (elapsed : s.Elapsed) (events : List TimeEvent) : (s.run events).Elapsed := by
  induction events generalizing s with
  | nil => exact elapsed
  | cons event rest ih => exact ih (elapsed.step event)

/-- Along every run the hard deadline stays, the lease never shrinks and the effective instant never
goes back; an attempt that has elapsed stays spent; and at every step authority is granted exactly to
the entitled, unless a recovery is pending whose reason was not retained. -/
theorem run_authority (s : Tenure) (events : List TimeEvent) :
    Advances s (s.run events) ∧ (s.Elapsed → (s.run events).Spent) ∧
      ∀ sample token,
        Authorized ((s.run events).snapshot sample) ((s.run events).clock sample) token ↔
          Entitled ((s.run events).snapshot sample) ((s.run events).clock sample) token ∧
            ¬ UnexplainedRecovery ((s.run events).snapshot sample) :=
  ⟨run_advances events, fun elapsed => (elapsed.run events).spent, fun _ _ => authorized_iff⟩

end Tenure

end Run

namespace Fixture

/-- An attempt that runs from instant 100 to its lease deadline at 200, within a budget to 300. -/
def tenure : Tenure where
  attempt := ⟨⟨"work"⟩, ⟨"attempt"⟩, ⟨"agent"⟩, none, ⟨7⟩, .running, ⟨100⟩, ⟨200⟩, ⟨300⟩⟩
  effectiveAt := ⟨120⟩

/-- The attempt read as the current one, running, with a recovery to be reconciled. -/
def underRecovery : Sample := ⟨⟨150⟩, none, .running, true, .pending, none⟩

def token : AuthorityToken := ⟨⟨"attempt"⟩, ⟨7⟩⟩

end Fixture

theorem entitled_not_authorized_underRecovery :
    Entitled (Fixture.tenure.snapshot Fixture.underRecovery)
        (Fixture.tenure.clock Fixture.underRecovery) Fixture.token ∧
      evaluateAttempt (Fixture.tenure.snapshot Fixture.underRecovery)
        (Fixture.tenure.clock Fixture.underRecovery) (some Fixture.token) =
          .error .missingExpiryReason ∧
      ¬ Authorized (Fixture.tenure.snapshot Fixture.underRecovery)
        (Fixture.tenure.clock Fixture.underRecovery) Fixture.token := by
  have refused : evaluateAttempt (Fixture.tenure.snapshot Fixture.underRecovery)
      (Fixture.tenure.clock Fixture.underRecovery) (some Fixture.token) =
        .error .missingExpiryReason := by
    decide
  refine ⟨⟨rfl, rfl, rfl, rfl, ⟨⟨150⟩, ⟨150⟩, .trusted⟩, by decide, rfl, by decide,
    by decide, by decide⟩, refused, ?_⟩
  intro authorized
  obtain ⟨decision, evaluated, _⟩ := authorized
  rw [refused] at evaluated
  cases evaluated

end Boreal.TimePolicy
