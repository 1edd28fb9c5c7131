/- The attempts of a store: claims, mutations, expiries and completions, each in its own transaction. The
fences of a work count its claims, and only its newest attempt is ever written. -/
import BorealWork.Attempts
import BorealWork.Library.Drain
import BorealWork.Library.Machines

namespace Boreal.Store.AttemptTable
open Drain Machines

structure AttemptRecord where
  projectId : String
  workId : String
  attemptId : String
  actorId : String
  harnessId : Option String
  sessionId : Option String
  fence : ℕ
  current : Bool
  phase : AttemptPhase
  claimedAt : String
  acceptedAt : Option String
  leaseDeadline : String
  hardDeadline : String

inductive AttemptMutationKind
  | accept
  | start
  | heartbeat
  | renewLease (leaseDeadline : String)
  | submit
  | release
  | fail
  | expire (stopConfirmed : Bool)
  | cancel (stopConfirmed : Bool)
  deriving DecidableEq

structure AttemptMutationRequest where
  projectId : String
  workId : String
  attemptId : String
  actorId : String
  harnessId : Option String
  sessionId : Option String
  fence : ℕ
  instant : String
  expectedAttemptRevision : Option ℕ
  expectedPhase : Option AttemptPhase
  expectedLeaseDeadline : Option String
  expectedHardDeadline : Option String
  mutation : AttemptMutationKind

structure CloseIntentRequest where
  projectId : String
  workId : String
  attemptId : String
  actorId : String
  sessionId : Option String
  fence : ℕ
  instant : String

structure DeadlineReconciliationInput where
  projectId : String
  attemptId : String
  fence : ℕ
  expectedLeaseDeadline : String
  expectedHardDeadline : String
  instant : String

inductive AttemptError
  | notFound (id : String)
  | wrongSubject (expected actual : String)
  | wrongOwner (expected actual : String)
  | staleFence (expected actual : ℕ)
  | notCurrent (attemptId : String)
  | conflict (message : String)
  | invalid (message : String)
  | hardDeadlineElapsed
  | leaseExpired
  | stopConfirmationRequired
  | notExpired
  | illegalTransition (phase : AttemptPhase) (operation : AttemptMutationKind)
  | constraint
  | refused

/-- The milliseconds behind a scheme or none; a sign is part of the grammar of an unsigned integer. -/
def timestampValue (value : String) : Option ℕ :=
  let scheme := ["unix-ms:".toList, "unix_ms:".toList].find? (·.isPrefixOf value.toList)
  let text := value.toList.drop (scheme.elim 0 List.length)
  let digits := if text.head? = some '+' then text.tail else text
  if digits ≠ [] ∧ digits.all Char.isDigit ∧ Nat.ofDigitChars 10 digits 0 < 2 ^ 128 then
    some (Nat.ofDigitChars 10 digits 0)
  else none

def timestampCmp (left right : String) : Ordering :=
  match timestampValue left, timestampValue right with
  | some left, some right => compare left right
  | _, _ => compare left right

/-- What the keys of the table ask of two rows. -/
def Apart (row other : AttemptRecord) : Prop :=
  row.attemptId ≠ other.attemptId ∧ (row.workId = other.workId → row.fence ≠ other.fence) ∧
    (row.current = true → other.current = true → row.workId ≠ other.workId ∧
      (row.sessionId.isSome → row.sessionId ≠ other.sessionId))

instance : DecidableRel Apart := fun _ _ => inferInstanceAs (Decidable (_ ∧ _))

def write (rows : List AttemptRecord) : Except AttemptError (List AttemptRecord) :=
  if rows.Pairwise Apart then .ok rows else .error .constraint

/-- An update of the row of an attempt, as long as it is current. -/
def update (attemptId : String) (change : AttemptRecord → AttemptRecord) (rows : List AttemptRecord) :
    Except AttemptError (List AttemptRecord) :=
  write (rows.map fun row => if row.attemptId = attemptId ∧ row.current = true then change row else row)

def attemptRecord (rows : List AttemptRecord) (attemptId : String) : Except AttemptError AttemptRecord :=
  (rows.find? (·.attemptId = attemptId)).elim (.error (.notFound attemptId)) .ok

def currentAttemptForWork (rows : List AttemptRecord) (projectId workId : String) :
    Except AttemptError AttemptRecord :=
  (rows.find? fun row => row.projectId = projectId ∧ row.workId = workId ∧ row.current = true).elim
    (.error (.notFound s!"{projectId}/{workId}")) .ok

def nextFence (rows : List AttemptRecord) (workId : String) : ℕ :=
  ((rows.filter (·.workId = workId)).map (·.fence)).foldl max 0 + 1

/-- The claim of a work gives the new row its fence. -/
def claimWork (row : AttemptRecord) (rows : List AttemptRecord) : Except AttemptError (List AttemptRecord) :=
  write (rows ++ [{ row with
    fence := nextFence rows row.workId, current := true, phase := .claimed, acceptedAt := none }])

def checkSubject (projectId workId : String) (current : AttemptRecord) : Except AttemptError Unit :=
  refuse (current.projectId ≠ projectId ∨ current.workId ≠ workId)
    (.wrongSubject s!"{projectId}/{workId}" s!"{current.projectId}/{current.workId}")

def validateAttemptSubject (request : AttemptMutationRequest) (current : AttemptRecord) :
    Except AttemptError Unit := do
  let binds (held given : Option String) : Bool := request.mutation = .accept && held.isNone && given.isSome
  checkSubject request.projectId request.workId current
  refuse (current.actorId ≠ request.actorId) (.wrongOwner request.actorId current.actorId)
  refuse (current.harnessId ≠ request.harnessId ∧ binds current.harnessId request.harnessId = false)
    (.wrongOwner (request.harnessId.getD "") (current.harnessId.getD ""))
  refuse (current.sessionId ≠ request.sessionId ∧ binds current.sessionId request.sessionId = false)
    (.wrongOwner (request.sessionId.getD "") (current.sessionId.getD ""))

def isExecuting : AttemptPhase → Bool
  | .claimed | .accepted | .running | .verifying => true
  | _ => false

def nextPhase (request : AttemptMutationRequest) (current : AttemptRecord) : Except AttemptError AttemptPhase :=
  match request.mutation, current.phase with
  | .accept, .claimed => .ok .accepted
  | .start, .accepted => .ok .running
  | .submit, .running => .ok .verifying
  | .fail, .running | .fail, .verifying => .ok .failed
  | .heartbeat, phase => if phase.isTerminal then illegal else .ok phase
  | .renewLease leaseDeadline, phase =>
    if phase.isTerminal then illegal
    else do
      refuse (timestampCmp leaseDeadline request.instant ≠ .gt)
        (.invalid "renewed lease deadline must be after mutation time")
      refuse (timestampCmp leaseDeadline current.hardDeadline = .gt)
        (.invalid "renewed lease cannot extend the hard attempt deadline")
      return phase
  | .release, phase => if isExecuting phase then .ok .released else illegal
  | .expire stopConfirmed, phase =>
    if phase.isTerminal then illegal
    else do
      refuse (stopConfirmed = false) .stopConfirmationRequired
      refuse (phase ≠ .expiryPending ∧ timestampCmp request.instant current.leaseDeadline = .lt ∧
        timestampCmp request.instant current.hardDeadline = .lt) .notExpired
      return .expired
  | .cancel stopConfirmed, phase =>
    if phase.isTerminal then illegal
    else do
      refuse (stopConfirmed = false) .stopConfirmationRequired
      return .cancelled
  | _, _ => illegal
where
  illegal : Except AttemptError AttemptPhase :=
    .error (.illegalTransition current.phase request.mutation)

def applyAttemptRow (request : AttemptMutationRequest) (phase : AttemptPhase) (row : AttemptRecord) :
    AttemptRecord :=
  match request.mutation with
  | .accept => { row with
      phase := .accepted, acceptedAt := some request.instant, harnessId := row.harnessId.or request.harnessId,
      sessionId := row.sessionId.or request.sessionId }
  | .start | .submit => { row with phase }
  | .heartbeat => row
  | .renewLease leaseDeadline => { row with leaseDeadline }
  | .release | .fail | .expire _ | .cancel _ =>
    { row with current := false, phase }

def validateRecoverAttemptSubject (request : AttemptMutationRequest) (current : AttemptRecord) :
    Except AttemptError Unit := do
  checkSubject request.projectId request.workId current
  refuse (current.current = false) (.notCurrent current.attemptId)
  refuse (current.attemptId ≠ request.attemptId)
    (.conflict "recover descriptor attempt no longer matches the current work attempt")
  refuse (current.fence ≠ request.fence) (.staleFence request.fence current.fence)

/-- A recovery is written by another actor than the owner, about the current attempt of the work. -/
def mutationSubject (recover : Bool) (request : AttemptMutationRequest) (rows : List AttemptRecord) :
    Except AttemptError AttemptRecord :=
  if recover then do
    let current ← currentAttemptForWork rows request.projectId request.workId
    validateRecoverAttemptSubject request current
    return current
  else do
    let current ← attemptRecord rows request.attemptId
    validateAttemptSubject request current
    return current

def permitsExpiredTime : AttemptMutationKind → Bool
  | .expire _ | .cancel _ => true
  | _ => false

def applyAttemptMutation (recover : Bool) (request : AttemptMutationRequest) (rows : List AttemptRecord) :
    Except AttemptError (List AttemptRecord) := do
  let current ← mutationSubject recover request rows
  refuse (current.fence ≠ request.fence) (.staleFence request.fence current.fence)
  refuse (∃ expected ∈ request.expectedAttemptRevision, expected ≠ current.fence)
    (.staleFence (request.expectedAttemptRevision.getD 0) current.fence)
  refuse (current.current = false) (.notCurrent request.attemptId)
  refuse (∃ expected ∈ request.expectedPhase, expected ≠ current.phase) (.conflict "attempt phase changed")
  refuse (∃ expected ∈ request.expectedLeaseDeadline, expected ≠ current.leaseDeadline)
    (.conflict "lease deadline changed")
  refuse (∃ expected ∈ request.expectedHardDeadline, expected ≠ current.hardDeadline)
    (.conflict "hard deadline changed")
  refuse (current.phase = .expiryPending ∧ permitsExpiredTime request.mutation = false)
    (.conflict "attempt expiry recovery is pending; execution writes are fenced")
  refuse (permitsExpiredTime request.mutation = false ∧
    timestampCmp request.instant current.hardDeadline ≠ .lt) .hardDeadlineElapsed
  refuse (permitsExpiredTime request.mutation = false ∧
    timestampCmp request.instant current.leaseDeadline ≠ .lt) .leaseExpired
  let phase ← nextPhase request current
  update request.attemptId (applyAttemptRow request phase) rows

/-- A passed deadline leaves the attempt with its owner until its stop is confirmed. -/
def reconcileAttemptDeadline (request : DeadlineReconciliationInput) (rows : List AttemptRecord) :
    Except AttemptError (List AttemptRecord) := do
  let attempt ← attemptRecord rows request.attemptId
  refuse (attempt.projectId ≠ request.projectId) (.wrongSubject request.projectId attempt.projectId)
  refuse (attempt.fence ≠ request.fence) .refused
  refuse (attempt.leaseDeadline ≠ request.expectedLeaseDeadline ∨
    attempt.hardDeadline ≠ request.expectedHardDeadline) .refused
  refuse (attempt.current = false ∨ attempt.phase.isTerminal ∨ attempt.phase = .expiryPending) .refused
  refuse (timestampCmp request.instant attempt.leaseDeadline = .lt ∧
    timestampCmp request.instant attempt.hardDeadline = .lt) .refused
  update request.attemptId (fun row => { row with phase := .expiryPending }) rows

def complete (row : AttemptRecord) : AttemptRecord := { row with current := false, phase := .completed }

def endExecutionForSubmission (request : CloseIntentRequest) (rows : List AttemptRecord) :
    Except AttemptError (List AttemptRecord) := do
  let attempt ← attemptRecord rows request.attemptId
  refuse (attempt.actorId ≠ request.actorId ∨ attempt.sessionId ≠ request.sessionId ∨
      attempt.workId ≠ request.workId ∨ attempt.fence ≠ request.fence)
    (.conflict "submission ownership, session or fence changed")
  refuse (attempt.current = false ∨ attempt.phase ∉ [.running, .verifying])
    (.conflict "submission requires the current executing attempt")
  refuse (timestampCmp request.instant attempt.hardDeadline ≠ .lt) .hardDeadlineElapsed
  refuse (timestampCmp request.instant attempt.leaseDeadline ≠ .lt) .leaseExpired
  update request.attemptId complete rows

def finalizeCloseRows (request : CloseIntentRequest) (rows : List AttemptRecord) :
    Except AttemptError (List AttemptRecord) := do
  let attempt ← attemptRecord rows request.attemptId
  checkSubject request.projectId request.workId attempt
  refuse (attempt.fence ≠ request.fence) (.staleFence request.fence attempt.fence)
  refuse (attempt.actorId ≠ request.actorId ∨ attempt.sessionId ≠ request.sessionId)
    (.conflict "close requires the submission owner and bound session")
  refuse (attempt.current = false) (.conflict "attempt is no longer current for close finalization")
  update request.attemptId complete rows

inductive AttemptCall
  | claim (row : AttemptRecord)
  | mutate (recover : Bool) (request : AttemptMutationRequest)
  | reconcile (request : DeadlineReconciliationInput)
  | submit (request : CloseIntentRequest)
  | close (request : CloseIntentRequest)

/-- The attempt that a call writes, and the fence that it presents. -/
def AttemptCall.subject : AttemptCall → Option (String × ℕ)
  | .claim _ => none
  | .mutate _ request => some (request.attemptId, request.fence)
  | .reconcile request => some (request.attemptId, request.fence)
  | .submit request | .close request => some (request.attemptId, request.fence)

def perform (rows : List AttemptRecord) : AttemptCall → Except AttemptError (List AttemptRecord)
  | .claim row => claimWork row rows
  | .mutate recover request => applyAttemptMutation recover request rows
  | .reconcile request => reconcileAttemptDeadline request rows
  | .submit request => endExecutionForSubmission request rows
  | .close request => finalizeCloseRows request rows

/-- A call is cleared by the outer checks, which only refuse: replays, revisions, sessions, authorization. -/
def attemptCall (rows : List AttemptRecord) (call : Bool × AttemptCall) :
    Except AttemptError Unit × List AttemptRecord :=
  match if call.1 then perform rows call.2 else .error .refused with
  | .ok rows' => (.ok (), rows')
  | .error error => (.error error, rows)

structure Fenced (rows : List AttemptRecord) : Prop where
  admitted : rows.Pairwise Apart
  counted : ∀ workId, (rows.filter (·.workId = workId)).map (·.fence) =
    List.range' 1 (rows.filter (·.workId = workId)).length
  newest : ∀ row ∈ rows, row.current = true → ∀ other ∈ rows, other.workId = row.workId → other.fence ≤ row.fence

variable {rows rows' : List AttemptRecord} {row : AttemptRecord} {attemptId workId : String} {fence : ℕ}

/-- The row that a call writes: current, under the fence that the call presents. -/
def Written (rows : List AttemptRecord) (attemptId : String) (fence : ℕ) (row : AttemptRecord) : Prop :=
  row ∈ rows ∧ row.attemptId = attemptId ∧ row.fence = fence ∧ row.current = true

/-- What a call does to the table. -/
inductive TableStep (rows : List AttemptRecord) : Option (String × ℕ) → List AttemptRecord → Prop
  | claimed {row : AttemptRecord} (counted : row.fence = nextFence rows row.workId) (current : row.current = true) :
    TableStep rows none (rows ++ [row])
  | updated {change : AttemptRecord → AttemptRecord} {attemptId : String} {fence : ℕ} {row : AttemptRecord}
      (written : Written rows attemptId fence row)
      (kept : ∀ row, (change row).workId = row.workId ∧ (change row).fence = row.fence) :
    TableStep rows (some (attemptId, fence))
      (rows.map fun row => if row.attemptId = attemptId ∧ row.current = true then change row else row)

theorem write_eq_ok : write rows = .ok rows' ↔ rows.Pairwise Apart ∧ rows' = rows := by
  unfold write
  split_ifs with admitted <;> simp [admitted, eq_comm]

theorem attemptRecord_eq_ok (found : attemptRecord rows attemptId = .ok row) :
    row ∈ rows ∧ row.attemptId = attemptId := by
  have search := found_eq_ok.mp found
  exact ⟨List.mem_of_find?_eq_some search, of_decide_eq_true (List.find?_some search :)⟩

theorem foldl_max_range' (n : ℕ) : (List.range' 1 n).foldl max 0 = n := by
  induction n with
  | zero => rfl
  | succ n ih =>
    rw [List.range'_1_concat, List.foldl_append, ih, List.foldl_cons, List.foldl_nil, Nat.add_comm 1 n]
    exact max_eq_right n.le_succ

theorem Fenced.next (fenced : Fenced rows) (workId : String) :
    nextFence rows workId = (rows.filter (·.workId = workId)).length + 1 := by
  rw [nextFence, fenced.counted, foldl_max_range']

theorem Fenced.bounded (fenced : Fenced rows) (member : row ∈ rows) :
    row.fence < nextFence rows row.workId := by
  have own : row ∈ rows.filter (·.workId = row.workId) := List.mem_filter.mpr ⟨member, decide_eq_true rfl⟩
  have counted := List.mem_map_of_mem (f := AttemptRecord.fence) own
  rw [fenced.counted, List.mem_range'_1] at counted
  rw [fenced.next]
  omega

theorem Fenced.step {subject : Option (String × ℕ)} (fenced : Fenced rows) (step : TableStep rows subject rows')
    (admitted : rows'.Pairwise Apart) : Fenced rows' := by
  cases step with
  | @claimed row fence current =>
    refine ⟨admitted, fun workId => ?_, ?_⟩
    · rw [List.filter_append, List.filter_singleton]
      by_cases own : row.workId = workId
      · subst own
        rw [decide_eq_true rfl, Bool.cond_true, List.map_append, List.length_append, List.length_singleton,
          List.range'_1_concat, fenced.counted, List.map_singleton, fence, fenced.next, Nat.add_comm 1]
      · rw [decide_eq_false own, Bool.cond_false, List.append_nil, fenced.counted]
    · have apart := (List.pairwise_append.mp admitted).2.2
      simp only [List.mem_append, List.mem_singleton]
      rintro held (heldOld | rfl) heldCurrent other (otherOld | rfl) same
      · exact fenced.newest held heldOld heldCurrent other otherOld same
      · exact absurd same.symm
          ((apart held heldOld _ (List.mem_singleton_self _)).2.2 heldCurrent current).1
      · rw [fence, ← same]
        exact (fenced.bounded otherOld).le
      · exact le_rfl
  | @updated change attemptId _ _ _ kept =>
    have same : ∀ row, (if row.attemptId = attemptId ∧ row.current = true then change row else row).workId =
          row.workId ∧
        (if row.attemptId = attemptId ∧ row.current = true then change row else row).fence = row.fence := by
      intro row
      split_ifs
      · exact kept row
      · exact ⟨rfl, rfl⟩
    refine ⟨admitted, fun workId => ?_, ?_⟩
    · rw [List.filter_map, List.map_map, List.length_map]
      simp only [Function.comp_def, same]
      exact fenced.counted workId
    · simp only [List.forall_mem_map, same]
      intro row member current
      refine fenced.newest row member ?_
      split_ifs at current with written
      · exact written.2
      · exact current

theorem update_step {change : AttemptRecord → AttemptRecord} (written : Written rows attemptId fence row)
    (kept : ∀ row, (change row).workId = row.workId ∧ (change row).fence = row.fence)
    (updated : update attemptId change rows = .ok rows') :
    TableStep rows (some (attemptId, fence)) rows' ∧ rows'.Pairwise Apart := by
  obtain ⟨admitted, rfl⟩ := write_eq_ok.mp updated
  exact ⟨.updated written kept, admitted⟩

theorem mutationSubject_eq_ok {recover : Bool} {request : AttemptMutationRequest}
    (found : mutationSubject recover request rows = .ok row) :
    row ∈ rows ∧ row.attemptId = request.attemptId := by
  unfold mutationSubject at found
  split_ifs at found
  · simp only [bind_eq_ok, validateRecoverAttemptSubject, checkSubject, refuse_eq_ok, exists_const, not_not] at found
    obtain ⟨_, search, ⟨_, _, same, _⟩, found⟩ := found
    obtain rfl := Except.ok.inj found
    exact ⟨List.mem_of_find?_eq_some (found_eq_ok.mp search), same⟩
  · simp only [bind_eq_ok] at found
    obtain ⟨_, search, _, _, found⟩ := found
    obtain rfl := Except.ok.inj found
    exact attemptRecord_eq_ok search

theorem applyAttemptRow_keeps (request : AttemptMutationRequest) (phase : AttemptPhase) (row : AttemptRecord) :
    (applyAttemptRow request phase row).workId = row.workId ∧
      (applyAttemptRow request phase row).fence = row.fence := by
  unfold applyAttemptRow
  split <;> exact ⟨rfl, rfl⟩

theorem complete_keeps (row : AttemptRecord) :
    (complete row).workId = row.workId ∧ (complete row).fence = row.fence := ⟨rfl, rfl⟩

theorem perform_step {call : AttemptCall} (applied : perform rows call = .ok rows') :
    TableStep rows call.subject rows' ∧ rows'.Pairwise Apart := by
  cases call with
  | claim row =>
    obtain ⟨admitted, rfl⟩ := write_eq_ok.mp applied
    exact ⟨.claimed rfl rfl, admitted⟩
  | mutate recover request =>
    simp only [perform, applyAttemptMutation, bind_eq_ok, refuse_eq_ok, exists_const, not_not] at applied
    obtain ⟨current, found, fenced, _, newest, _, _, _, _, _, _, phase, _, applied⟩ := applied
    obtain ⟨member, same⟩ := mutationSubject_eq_ok found
    exact update_step ⟨member, same, fenced, eq_true_of_ne_false newest⟩
      (applyAttemptRow_keeps request phase) applied
  | reconcile request =>
    simp only [perform, reconcileAttemptDeadline, bind_eq_ok, refuse_eq_ok, exists_const, not_not, not_or] at applied
    obtain ⟨attempt, found, _, fenced, _, ⟨newest, _⟩, _, applied⟩ := applied
    obtain ⟨member, same⟩ := attemptRecord_eq_ok found
    refine update_step ⟨member, same, fenced, eq_true_of_ne_false newest⟩ (fun row => ?_) applied
    exact ⟨rfl, rfl⟩
  | submit request =>
    simp only [perform, endExecutionForSubmission, bind_eq_ok, refuse_eq_ok, exists_const, not_not, not_or] at applied
    obtain ⟨attempt, found, ⟨_, _, _, fenced⟩, ⟨newest, _⟩, _, _, applied⟩ := applied
    obtain ⟨member, same⟩ := attemptRecord_eq_ok found
    exact update_step ⟨member, same, fenced, eq_true_of_ne_false newest⟩ complete_keeps applied
  | close request =>
    simp only [perform, finalizeCloseRows, checkSubject, bind_eq_ok, refuse_eq_ok, exists_const, not_not] at applied
    obtain ⟨attempt, found, _, fenced, _, newest, applied⟩ := applied
    obtain ⟨member, same⟩ := attemptRecord_eq_ok found
    exact update_step ⟨member, same, fenced, eq_true_of_ne_false newest⟩ complete_keeps applied

/-- An attempt that has ended is kept as it is. -/
theorem TableStep.frozen {subject : Option (String × ℕ)} (step : TableStep rows subject rows') (member : row ∈ rows)
    (ended : row.current = false) : row ∈ rows' := by
  cases step with
  | claimed => exact List.mem_append_left _ member
  | updated =>
    refine List.mem_map.mpr ⟨row, member, if_neg ?_⟩
    rw [ended]
    nofun

theorem TableStep.written (step : TableStep rows (some (attemptId, fence)) rows') :
    ∃ row, Written rows attemptId fence row := by
  cases step with
  | updated written => exact ⟨_, written⟩

theorem attemptCall_ok {call : Bool × AttemptCall} (accepted : (attemptCall rows call).1 = .ok ()) :
    TableStep rows call.2.subject (attemptCall rows call).2 ∧ (attemptCall rows call).2.Pairwise Apart := by
  unfold attemptCall at accepted ⊢
  split at accepted
  · rename_i performed
    split_ifs at performed
    exact perform_step performed
  · cases accepted

theorem attemptCall_fenced (rows : List AttemptRecord) (call : Bool × AttemptCall) (fenced : Fenced rows) :
    Fenced (attemptCall rows call).2 := by
  cases answer : (attemptCall rows call).1 with
  | ok =>
    obtain ⟨step, admitted⟩ := attemptCall_ok answer
    exact fenced.step step admitted
  | error error =>
    unfold attemptCall at answer ⊢
    split at answer
    · cases answer
    · exact fenced

theorem Fenced.empty : Fenced [] where
  admitted := .nil
  counted _ := rfl
  newest _ member := absurd member List.not_mem_nil

/-- In every run of the table, the fences of a work count its claims; a call that is accepted presents the
fence of the newest attempt of its work, which is current, and leaves every attempt that has ended as it is. -/
theorem attempts_fenced (calls : List (Bool × AttemptCall)) :
    Fenced (final attemptCall [] calls) ∧
      ∀ e ∈ history attemptCall [] calls, e.answer = .ok () →
        (∀ attemptId fence, e.call.2.subject = some (attemptId, fence) →
          ∃ row, Written e.before attemptId fence row ∧
            ∀ other ∈ e.before, other.workId = row.workId → other.fence ≤ fence) ∧
        ∀ row ∈ e.before, row.current = false → row ∈ e.after attemptCall := by
  refine ⟨final_invariant attemptCall_fenced .empty calls, fun e member accepted => ?_⟩
  obtain ⟨fenced, answered⟩ := history_invariant attemptCall_fenced .empty member
  obtain ⟨step, _⟩ := attemptCall_ok (answered.symm.trans accepted)
  refine ⟨fun attemptId fence presented => ?_, fun row old ended => step.frozen old ended⟩
  rw [presented] at step
  obtain ⟨row, written⟩ := step.written
  obtain ⟨held, _, rfl, current⟩ := id written
  exact ⟨row, written, fenced.newest row held current⟩

end Boreal.Store.AttemptTable
