/- External waits evaluated on their own: one pass over the waits of a work, and its agreement with the
loop of the status evaluation. -/
import BorealWork.Claimability

namespace Boreal.Status
open Decision WorkModel Sorting Drain

section Code

structure ExternalWaitDecision where
  blockingWaitIds : List String
  followUpWaitIds : List String
  nextFollowUpBoundaries : List BusinessDateBoundary
  deriving DecidableEq

variable (context : BusinessTimeContext) (wait : ExternalWaitScopeInput)

def isOpenWait : ExternalWaitPersistedState → Bool
  | .open => true
  | _ => false

def isBlockingWait : ExternalWaitPersistedState → Bool
  | .open | .unknown => true
  | .resolved | .cancelled => false

def checkWait : Except ModelError Unit := do
  refuse (wait.projectId ≠ context.projectId)
    (.invalidExternalWait "wait scope and business-time context belong to different projects")
  refuse (wait.followUp.any (·.isLocalDate) ≠ wait.civilTimeSettingRevision.isSome ∨
      wait.civilTimeSettingRevision = some 0)
    (.invalidExternalWait "date-only follow-up is missing its project civil-time setting revision")
  refuse (wait.civilTimeSettingRevision.any (context.settingRevision < ·) = true)
    (.invalidExternalWait "wait references an unavailable future civil-time setting revision")
  onlyIf (isOpenWait wait.state = true) (wait.followUp.forM fun followUp =>
    followUp.validate.mapError fun _ => .invalidExternalWait "invalid persisted follow-up value")

/-- A missed follow-up is reported and leaves the state of its wait alone. -/
def recordFollowUp (decision : ExternalWaitDecision) (waitId : String) : Option BusinessDate →
    ExternalWaitDecision
  | none => decision
  | some followUp =>
    if followUp.reached context then
      { decision with followUpWaitIds := decision.followUpWaitIds ++ [waitId] }
    else
      { decision with
        nextFollowUpBoundaries := decision.nextFollowUpBoundaries ++ [followUp.boundary] }

def recordWait (decision : ExternalWaitDecision) : ExternalWaitDecision :=
  if isBlockingWait wait.state then
    let blocked := { decision with blockingWaitIds := decision.blockingWaitIds ++ [wait.waitId] }
    if isOpenWait wait.state then recordFollowUp context blocked wait.waitId wait.followUp else blocked
  else decision

def evaluateExternalWaits (workId : WorkId) (waits : List ExternalWaitScopeInput) :
    Except ModelError ExternalWaitDecision := do
  context.validate
  let decision ← (waits.filter (·.affectedWorkId = workId)).foldlM (fun decision wait => do
    checkWait context wait
    pure (recordWait context wait decision)) ⟨[], [], []⟩
  return {
    blockingWaitIds := sortOn id decision.blockingWaitIds
    followUpWaitIds := sortOn id decision.followUpWaitIds
    nextFollowUpBoundaries := decision.nextFollowUpBoundaries.destutter (· ≠ ·) }

end Code

section Recording

variable {context : BusinessTimeContext} {wait : ExternalWaitScopeInput} {decision : ExternalWaitDecision}
  {waits : List ExternalWaitScopeInput}

def isDueWait (context : BusinessTimeContext) (wait : ExternalWaitScopeInput) : Bool :=
  isOpenWait wait.state && wait.followUp.any (BusinessDate.reached context)

theorem blocking_of_open {state : ExternalWaitPersistedState} (opened : isOpenWait state = true) :
    isBlockingWait state = true := by
  cases state with
  | «open» => rfl
  | _ => cases opened

theorem recordWait_blocking : (recordWait context wait decision).blockingWaitIds =
    decision.blockingWaitIds ++ if isBlockingWait wait.state then [wait.waitId] else [] := by
  rw [recordWait]
  split
  · dsimp only
    split
    · cases wait.followUp with
      | none => rfl
      | some followUp =>
        rw [recordFollowUp]
        split <;> rfl
    · rfl
  · exact (List.append_nil _).symm

theorem recordWait_followUp : (recordWait context wait decision).followUpWaitIds =
    decision.followUpWaitIds ++ if isDueWait context wait then [wait.waitId] else [] := by
  rw [recordWait, isDueWait]
  by_cases opened : isOpenWait wait.state = true
  · rw [if_pos (blocking_of_open opened), if_pos opened, opened, Bool.true_and]
    cases wait.followUp with
    | none => exact (List.append_nil _).symm
    | some followUp =>
      rw [recordFollowUp, Option.any_some]
      split
      · rfl
      · exact (List.append_nil _).symm
  · rw [Bool.not_eq_true] at opened
    rw [opened, Bool.false_and, if_neg Bool.false_ne_true, if_neg Bool.false_ne_true, List.append_nil]
    split <;> rfl

theorem recorded_blocking :
    (waits.foldl (fun decision wait => recordWait context wait decision) decision).blockingWaitIds =
      decision.blockingWaitIds ++ (waits.filter (isBlockingWait ·.state)).map (·.waitId) := by
  induction waits generalizing decision with
  | nil => exact (List.append_nil _).symm
  | cons wait rest ih =>
    rw [List.foldl_cons, ih, recordWait_blocking, List.filter_cons, List.append_assoc]
    split <;> rfl

theorem recorded_followUp :
    (waits.foldl (fun decision wait => recordWait context wait decision) decision).followUpWaitIds =
      decision.followUpWaitIds ++ (waits.filter (isDueWait context)).map (·.waitId) := by
  induction waits generalizing decision with
  | nil => exact (List.append_nil _).symm
  | cons wait rest ih =>
    rw [List.foldl_cons, ih, recordWait_followUp, List.filter_cons, List.append_assoc]
    split <;> rfl

theorem evaluateExternalWaits_eq_ok {workId : WorkId}
    (done : evaluateExternalWaits context workId waits = .ok decision) :
    (∀ wait ∈ waits.filter (·.affectedWorkId = workId), checkWait context wait = .ok ()) ∧
      decision.blockingWaitIds = sortOn id (((waits.filter (·.affectedWorkId = workId)).filter
        (isBlockingWait ·.state)).map (·.waitId)) ∧
      decision.followUpWaitIds = sortOn id (((waits.filter (·.affectedWorkId = workId)).filter
        (isDueWait context)).map (·.waitId)) := by
  rw [evaluateExternalWaits, check_eq_ok, bind_eq_ok] at done
  obtain ⟨-, recorded, passed, answer⟩ := done
  obtain ⟨checked, rfl⟩ := foldlM_checked.mp passed
  cases answer
  refine ⟨checked, ?_, ?_⟩
  · rw [recorded_blocking]
    rfl
  · rw [recorded_followUp]
    rfl

end Recording

section Agreement

variable {business : BusinessTimeContext} {context : StatusContext} {wait : ExternalWaitScopeInput}

/-- The loop had the clock of the work's project, or found nothing wrong without it. -/
def Heard (context : StatusContext) (business : BusinessTimeContext) : Prop :=
  context.externalWaitInvalid = false ∨
    context.businessTime = some business ∧ business.projectId = context.work.projectId

structure Accepted (business : BusinessTimeContext) (wait : ExternalWaitScopeInput) : Prop where
  project : wait.projectId = business.projectId
  dated : wait.followUp.any (·.isLocalDate) = wait.civilTimeSettingRevision.isSome
  known : wait.civilTimeSettingRevision.all (· ≤ business.settingRevision) = true
  sound : isOpenWait wait.state = true → ∀ followUp ∈ wait.followUp, followUp.validate = .ok ()

theorem accepted_of_check (checked : checkWait business wait = .ok ()) : Accepted business wait := by
  rw [checkWait, check_eq_ok, refuse_eq_ok, check_eq_ok, refuse_eq_ok, check_eq_ok, refuse_eq_ok, not_not,
    not_or, not_not, onlyIf_eq_ok] at checked
  obtain ⟨project, ⟨dated, -⟩, known, sound⟩ := checked
  refine ⟨project, dated, ?_, fun opened => ?_⟩
  · cases revision : wait.civilTimeSettingRevision with
    | none => rfl
    | some revision' =>
      rw [revision, Option.any_some, decide_eq_true_eq, not_lt] at known
      exact decide_eq_true known
  · intro followUp present
    exact mapError_eq_ok.mp (option_forM_eq_ok.mp (sound opened) followUp present)

theorem judgeFollowUp_agrees {followUp : BusinessDate} (accepted : Accepted business wait)
    (opened : wait.state = .open) (present : wait.followUp = some followUp)
    (project : wait.projectId = context.work.projectId) (instant : business.asOf = context.asOf)
    (clock : ∀ own ∈ context.businessTime, own = business)
    (heard : context.businessTime = some business ∨
      (context.judgeFollowUp wait followUp).invalid = false) :
    (context.judgeFollowUp wait followUp).blocking = true ∧
      (context.judgeFollowUp wait followUp).followUpDue = followUp.reached business := by
  have sound : StatusContext.isError followUp.validate = false := by
    rw [accepted.sound (by rw [opened]; rfl) followUp present]
    rfl
  have dated : followUp.isLocalDate = wait.civilTimeSettingRevision.isSome := by
    rw [← accepted.dated, present]
    rfl
  have passed : ¬ (StatusContext.isError followUp.validate = true ∨
      followUp.isLocalDate ≠ wait.civilTimeSettingRevision.isSome) := by
    rw [sound, dated]
    simp
  rw [StatusContext.judgeFollowUp, if_neg passed] at heard ⊢
  cases present' : context.businessTime with
  | none =>
    rw [present'] at heard
    cases followUp with
    | localDate date => exact absurd (heard.resolve_left (Option.some_ne_none _).symm) Bool.true_eq_false.mp
    | instant moment => exact ⟨rfl, by rw [← instant]; rfl⟩
    | resolvedLocal resolution => exact ⟨rfl, by rw [← instant]; rfl⟩
  | some own =>
    obtain rfl := clock own present'
    have fits : context.civilTimeMatches own wait.civilTimeSettingRevision = true := by
      rw [StatusContext.civilTimeMatches, accepted.known, ← accepted.project, project, instant]
      simp
    dsimp only
    rw [if_neg (by rw [fits]; exact Bool.true_eq_false.mp)]
    refine ⟨rfl, ?_⟩
    cases followUp with
    | localDate date => rfl
    | instant moment => rw [← instant]; rfl
    | resolvedLocal resolution => rw [← instant]; rfl

theorem judgeWait_agrees (accepted : Accepted business wait) (instant : business.asOf = context.asOf)
    (clock : ∀ own ∈ context.businessTime, own = business)
    (heard : context.businessTime = some business ∧ business.projectId = context.work.projectId ∨
      (context.judgeWait wait).invalid = false) :
    (context.judgeWait wait).blocking = isBlockingWait wait.state ∧
      (context.judgeWait wait).followUpDue = isDueWait business wait := by
  have project : wait.projectId = context.work.projectId := by
    rcases heard with ⟨-, same⟩ | valid
    · exact accepted.project.trans same
    · by_contra foreign
      rw [StatusContext.judgeWait, if_pos foreign] at valid
      cases valid
  rw [StatusContext.judgeWait, if_neg (not_not.mpr project)] at heard ⊢
  cases state : wait.state with
  | resolved => simp [isBlockingWait, isDueWait, isOpenWait, state]
  | cancelled => simp [isBlockingWait, isDueWait, isOpenWait, state]
  | unknown => simp [isBlockingWait, isDueWait, isOpenWait, state]
  | «open» =>
    rw [isDueWait, state]
    cases present : wait.followUp with
    | none => exact ⟨rfl, rfl⟩
    | some followUp =>
      rw [state, present] at heard
      exact judgeFollowUp_agrees accepted state present project instant clock
        (heard.imp_left And.left)

/-- The waits of one work, evaluated on their own and inside its status: where both succeed, on one clock
and at one instant, the same waits block it and the same follow-ups are due. -/
theorem external_waits_agree {decision : ExternalWaitDecision} {facts : DecisionInputs}
    (stood : evaluateExternalWaits business context.work.id context.externalWaits = .ok decision)
    (heard : Heard context business) (instant : business.asOf = context.asOf)
    (clock : ∀ own ∈ context.businessTime, own = business) :
    (∀ id, id ∈ decision.blockingWaitIds ↔
      id ∈ (evaluateCanonicalStatus context facts).blockingExternalWaitIds) ∧
    ∀ id, id ∈ decision.followUpWaitIds ↔
      id ∈ (evaluateCanonicalStatus context facts).followUpDueWaitIds := by
  obtain ⟨checked, blocking, followUp⟩ := evaluateExternalWaits_eq_ok stood
  have alike : ∀ wait ∈ context.scopedWaits,
      (context.judgeWait wait).blocking = isBlockingWait wait.state ∧
        (context.judgeWait wait).followUpDue = isDueWait business wait := by
    intro wait member
    refine judgeWait_agrees (accepted_of_check (checked wait member)) instant clock ?_
    rcases heard with valid | same
    · exact .inr (Bool.eq_false_iff.mpr fun invalid =>
        absurd (List.any_eq_true.mpr ⟨wait, member, invalid⟩) (Bool.eq_false_iff.mp valid))
    · exact .inl same
  constructor
  · intro id
    change _ ↔ id ∈ context.blockingExternalWaitIds
    rw [blocking, mem_sortOn, StatusContext.blockingExternalWaitIds, mem_sortDedup]
    rw [List.filter_congr fun wait member => (alike wait member).1]
    rfl
  · intro id
    change _ ↔ id ∈ context.followUpDueWaitIds
    rw [followUp, mem_sortOn, StatusContext.followUpDueWaitIds, mem_sortDedup]
    rw [List.filter_congr fun wait member => (alike wait member).2]
    rfl

end Agreement

def atlasDay : BusinessTimeContext where
  projectId := ⟨"atlas"⟩
  settingRevision := 2
  asOf := ⟨100⟩
  civilDate := ⟨1970, 1, 1⟩
  timezone := "Europe/Paris"
  tzdbIdentity := "tzdb"

/-- An answer that is due by now, one of unknown state, and one that another work waits for. -/
def waitingContext : StatusContext :=
  { readyContext with
    businessTime := some atlasDay
    externalWaits := [⟨⟨"atlas"⟩, "reply", ⟨"publish"⟩, .open, some (.localDate ⟨1970, 1, 1⟩), some 1⟩,
      ⟨⟨"atlas"⟩, "permit", ⟨"publish"⟩, .unknown, none, none⟩,
      ⟨⟨"atlas"⟩, "parts", ⟨"assemble"⟩, .open, some (.instant ⟨50⟩), none⟩] }

theorem external_waits_agree_waiting :
    (∀ id, id ∈ ["reply", "permit"] ↔
      id ∈ (evaluateCanonicalStatus waitingContext readyFacts).blockingExternalWaitIds) ∧
    ∀ id, id ∈ ["reply"] ↔
      id ∈ (evaluateCanonicalStatus waitingContext readyFacts).followUpDueWaitIds := by
  have stood : evaluateExternalWaits atlasDay ⟨"publish"⟩ waitingContext.externalWaits =
      .ok ⟨["permit", "reply"], ["reply"], []⟩ := by
    decide
  have same := @external_waits_agree atlasDay waitingContext _ readyFacts stood (.inr ⟨rfl, rfl⟩) rfl
    (by simp [waitingContext])
  refine ⟨fun id => ?_, same.2⟩
  rw [← same.1 id]
  simp [or_comm]

end Boreal.Status
