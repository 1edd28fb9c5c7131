/- Concurrent dispatch in the service host: submissions that admit and push, workers that pop, run and
settle, and when an operation id is in one pair of hands only. -/
import BorealWork.OperationJournal
import BorealWork.PriorityQueue

namespace Boreal.Service
open Machines
open OperationRecovery (InPhase Keeps KeepsAll validateOperationId)

section State

structure DispatchJob where
  operationId : String
  deriving DecidableEq

/-- A bounded queue and what stands in it. -/
structure DispatchLane where
  bounds : PriorityQueue
  state : QueueState DispatchJob

inductive DispatchQueues
  | shared (queue : DispatchLane)
  | split (control normal : DispatchLane)

namespace DispatchQueues

def select : DispatchQueues → QueuePriority → DispatchLane
  | .shared queue, _ => queue
  | .split control _, .control => control
  | .split _ normal, .normal => normal

def replace (lane : DispatchLane) : DispatchQueues → QueuePriority → DispatchQueues
  | .shared _, _ => .shared lane
  | .split _ normal, .control => .split lane normal
  | .split control _, .normal => .split control lane

def lanes : DispatchQueues → List DispatchLane
  | .shared queue => [queue]
  | .split control normal => [control, normal]

def depth (queues : DispatchQueues) : ℕ := (queues.lanes.map fun lane => lane.state.len).sum

def close : DispatchQueues → DispatchQueues
  | .shared queue => .shared { queue with state := Service.close queue.state }
  | .split control normal =>
    .split { control with state := Service.close control.state }
      { normal with state := Service.close normal.state }

end DispatchQueues

inductive HandlerResult
  | response
  | error
  | panic
  deriving DecidableEq

/-- Where a worker stands with its job. A job is finishing from the moment its record is marked
committed or failed until the record is removed or marked unknown. -/
inductive WorkerPhase
  | idle
  | popped (job : DispatchJob)
  | running (job : DispatchJob)
  | returned (job : DispatchJob) (result : HandlerResult)
  | writing (job : DispatchJob) (replied : Bool)
  | settling (job : DispatchJob) (uncertain : Bool)
  deriving DecidableEq

structure DispatchWorker where
  serves : QueuePriority
  phase : WorkerPhase
  deriving DecidableEq

/-- A submission between its admission and its push, or between a refused push and the removal of
its record. -/
structure Submission where
  job : DispatchJob
  priority : QueuePriority
  refusal : Option EnqueueError
  deriving DecidableEq

structure ConcurrentDispatch where
  queues : DispatchQueues
  journal : OperationRecovery
  submissions : List Submission
  workers : List DispatchWorker

def newDispatch (journal : OperationRecovery) (workerCount capacity : ℕ) :
    Except QueueConfigError ConcurrentDispatch :=
  if 1 < workerCount ∧ 1 < capacity then do
    let controlCapacity := min (max (capacity / 4) 1) (capacity - 1)
    let control ← withCapacityAndControlReserve controlCapacity 0
    let normal ← withCapacityAndControlReserve (capacity - controlCapacity) 0
    return {
      queues := .split ⟨control, emptyQueue⟩ ⟨normal, emptyQueue⟩
      journal
      submissions := []
      workers := ⟨.control, .idle⟩ :: List.replicate (workerCount - 1) ⟨.normal, .idle⟩ }
  else do
    let queue ← withCapacityAndControlReserve capacity (if 1 < capacity then 1 else 0)
    return {
      queues := .shared ⟨queue, emptyQueue⟩
      journal
      submissions := []
      workers := List.replicate workerCount ⟨.normal, .idle⟩ }

end State

section Steps

/-- One critical section of a submission or a worker; the clock readings come with it. -/
inductive DispatchAction
  | submit (operationId : String) (priority : QueuePriority) (pruned updated : ℕ)
  | push (submission : ℕ)
  | withdraw (submission : ℕ)
  | pop (worker : ℕ)
  | markInFlight (worker updated : ℕ)
  | handled (worker : ℕ) (result : HandlerResult)
  | mark (worker updated pruned : ℕ)
  | write (worker : ℕ) (delivered : Bool)
  | settle (worker updated pruned : ℕ)
  | shutdown
  deriving DecidableEq

inductive DispatchAnswer
  | admitted (outcome : Except OperationError OperationAdmission)
  | rejected (busy : BusyOutcome)
  | done
  | skipped

variable (dispatch : ConcurrentDispatch)

def dispatchBusy (priority : QueuePriority) : EnqueueError → BusyOutcome
  | .busy (.writerQueueFull capacity depth retryAfterMs) =>
    .dispatchQueueFull capacity depth retryAfterMs
  | .busy outcome => outcome
  | .closed | .ticketExhausted =>
    .dispatchQueueFull (dispatch.queues.select priority).bounds.capacity dispatch.queues.depth 1

/-- A submission is admitted first and pushed later; a rejected one leaves nothing behind. -/
def submit (operationId : String) (priority : QueuePriority) (pruned updated : ℕ) :
    DispatchAnswer × ConcurrentDispatch :=
  match dispatch.journal.admitOperation operationId pruned updated with
  | (.ok admission, journal) => (.admitted (.ok admission),
      { dispatch with
        journal, submissions := ⟨⟨operationId⟩, priority, none⟩ :: dispatch.submissions })
  | (.error error, journal) => (.admitted (.error error), { dispatch with journal })

def pushSubmission (index : ℕ) : DispatchAnswer × ConcurrentDispatch :=
  match dispatch.submissions[index]? with
  | some ⟨job, priority, none⟩ =>
    let lane := dispatch.queues.select priority
    match tryPushRecoverable lane.bounds lane.state job priority with
    | (.ok _, state) => (.done,
        { dispatch with
          queues := dispatch.queues.replace { lane with state } priority
          submissions := dispatch.submissions.eraseIdx index })
    | (.error (error, job), state) => (.done,
        { dispatch with
          queues := dispatch.queues.replace { lane with state } priority
          submissions := dispatch.submissions.set index ⟨job, priority, some error⟩ })
  | _ => (.skipped, dispatch)

/-- The record of a submission whose push was refused goes again. -/
def withdrawSubmission (index : ℕ) : DispatchAnswer × ConcurrentDispatch :=
  match dispatch.submissions[index]? with
  | some ⟨job, priority, some error⟩ => (.rejected (dispatchBusy dispatch priority error),
      { dispatch with
        journal := dispatch.journal.remove job.operationId
        submissions := dispatch.submissions.eraseIdx index })
  | _ => (.skipped, dispatch)

def popJob (index : ℕ) : DispatchAnswer × ConcurrentDispatch :=
  match dispatch.workers[index]? with
  | some ⟨serves, .idle⟩ =>
    let lane := dispatch.queues.select serves
    match Service.pop lane.state with
    | (.some queued, state) => (.done,
        { dispatch with
          queues := dispatch.queues.replace { lane with state } serves
          workers := dispatch.workers.set index ⟨serves, .popped queued.item⟩ })
    | _ => (.skipped, dispatch)
  | _ => (.skipped, dispatch)

def markJob (index updated pruned : ℕ) (worker : DispatchWorker) :
    DispatchAnswer × ConcurrentDispatch :=
  match worker.phase with
  | .returned job .response => (.done,
      { dispatch with
        journal := dispatch.journal.markCommitted job.operationId none updated
        workers := dispatch.workers.set index { worker with phase := .writing job true } })
  | .returned job .error => (.done,
      { dispatch with
        journal := dispatch.journal.markFailed job.operationId updated
        workers := dispatch.workers.set index { worker with phase := .writing job false } })
  | .returned job .panic => (.done,
      { dispatch with
        journal := dispatch.journal.markUnknown job.operationId updated pruned
        workers := dispatch.workers.set index { worker with phase := .idle } })
  | _ => (.skipped, dispatch)

/-- A response that could not be written leaves the operation uncertain; an error does not. -/
def writeResponse (index : ℕ) (delivered : Bool) (worker : DispatchWorker) :
    DispatchAnswer × ConcurrentDispatch :=
  match worker.phase with
  | .writing job replied => (.done,
      { dispatch with
        workers := dispatch.workers.set index
          { worker with phase := .settling job (replied && !delivered) } })
  | _ => (.skipped, dispatch)

def settleJob (index updated pruned : ℕ) (worker : DispatchWorker) :
    DispatchAnswer × ConcurrentDispatch :=
  match worker.phase with
  | .settling job true => (.done,
      { dispatch with
        journal := dispatch.journal.markUnknown job.operationId updated pruned
        workers := dispatch.workers.set index { worker with phase := .idle } })
  | .settling job false => (.done,
      { dispatch with
        journal := dispatch.journal.remove job.operationId
        workers := dispatch.workers.set index { worker with phase := .idle } })
  | _ => (.skipped, dispatch)

def markRunning (index updated : ℕ) (worker : DispatchWorker) : DispatchAnswer × ConcurrentDispatch :=
  match worker.phase with
  | .popped job => (.done,
      { dispatch with
        journal := dispatch.journal.markInFlight job.operationId updated
        workers := dispatch.workers.set index { worker with phase := .running job } })
  | _ => (.skipped, dispatch)

def handlerReturns (index : ℕ) (result : HandlerResult) (worker : DispatchWorker) :
    DispatchAnswer × ConcurrentDispatch :=
  match worker.phase with
  | .running job => (.done,
      { dispatch with
        workers := dispatch.workers.set index { worker with phase := .returned job result } })
  | _ => (.skipped, dispatch)

/-- The step of a worker that is there. -/
def withWorker (index : ℕ) (act : DispatchWorker → DispatchAnswer × ConcurrentDispatch) :
    DispatchAnswer × ConcurrentDispatch :=
  match dispatch.workers[index]? with
  | some worker => act worker
  | none => (.skipped, dispatch)

def perform : DispatchAction → DispatchAnswer × ConcurrentDispatch
  | .submit operationId priority pruned updated =>
    submit dispatch operationId priority pruned updated
  | .push index => pushSubmission dispatch index
  | .withdraw index => withdrawSubmission dispatch index
  | .pop index => popJob dispatch index
  | .markInFlight index updated => withWorker dispatch index (markRunning dispatch index updated)
  | .handled index result => withWorker dispatch index (handlerReturns dispatch index result)
  | .mark index updated pruned => withWorker dispatch index (markJob dispatch index updated pruned)
  | .write index delivered => withWorker dispatch index (writeResponse dispatch index delivered)
  | .settle index updated pruned =>
    withWorker dispatch index (settleJob dispatch index updated pruned)
  | .shutdown => (.done, { dispatch with queues := dispatch.queues.close })

end Steps

/-- How far the holder of a job has come: its record is queued, in flight, or being finished. -/
inductive Stage
  | queued
  | inFlight
  | finishing
  deriving DecidableEq

def DispatchWorker.hold (worker : DispatchWorker) : Option (String × Stage) :=
  match worker.phase with
  | .idle => none
  | .popped job => some (job.operationId, .queued)
  | .running job | .returned job _ => some (job.operationId, .inFlight)
  | .writing job _ | .settling job _ => some (job.operationId, .finishing)

def Submission.hold (submission : Submission) : String × Stage :=
  (submission.job.operationId, .queued)

def DispatchLane.jobs (lane : DispatchLane) : List (String × Stage) :=
  (lane.state.control ++ lane.state.normal).map fun queued => (queued.item.operationId, .queued)

def ConcurrentDispatch.holders (dispatch : ConcurrentDispatch) : List (String × Stage) :=
  dispatch.submissions.map Submission.hold ++
    (dispatch.queues.lanes.flatMap DispatchLane.jobs ++
      dispatch.workers.filterMap DispatchWorker.hold)

def ConcurrentDispatch.Active (dispatch : ConcurrentDispatch) (id : String) : Prop :=
  (id, .queued) ∈ dispatch.holders ∨ (id, .inFlight) ∈ dispatch.holders

/-- A worker has marked the record of the operation id but not yet settled it. -/
def ConcurrentDispatch.Finishing (dispatch : ConcurrentDispatch) (id : String) : Prop :=
  ∃ worker ∈ dispatch.workers, worker.hold = some (id, .finishing)

structure Exclusive (dispatch : ConcurrentDispatch) : Prop where
  oneHandler : ∀ (i j : ℕ) (w w' : DispatchWorker) (job job' : DispatchJob),
    dispatch.workers[i]? = some w → dispatch.workers[j]? = some w' →
    w.phase = .running job → w'.phase = .running job' → job.operationId = job'.operationId → i = j
  duplicate : ∀ id, dispatch.Active id → ∀ pruned updated,
    ∃ record, (dispatch.journal.admitOperation id pruned updated).1 = .error (.duplicate record)

abbrev DispatchMoment := Entry ConcurrentDispatch DispatchAction DispatchAnswer

def Patient (moment : DispatchMoment) : Prop :=
  ∀ operationId priority pruned updated,
    moment.call = .submit operationId priority pruned updated → ¬moment.before.Finishing operationId

section Invariant

variable {dispatch dispatch' : ConcurrentDispatch}

/-- What a holder relies on in the journal. -/
def Stage.Recorded (stage : Stage) (journal : OperationRecovery) (id : String) : Prop :=
  match stage with
  | .queued => journal.InPhase id .queued
  | .inFlight => journal.InPhase id .inFlight
  | .finishing => True

theorem Stage.Recorded.keep {stage : Stage} {journal journal' : OperationRecovery} {id other : String}
    (recorded : stage.Recorded journal other) (keeps : Keeps id journal journal')
    (different : other ≠ id) : stage.Recorded journal' other := by
  cases stage with
  | queued => exact keeps other different .queued rfl recorded
  | inFlight => exact keeps other different .inFlight rfl recorded
  | finishing => trivial

/-- Every operation id is in one pair of hands, and the journal says what they rely on. -/
structure SingleHanded (dispatch : ConcurrentDispatch) : Prop where
  single : (dispatch.holders.map (·.1)).Nodup
  valid : ∀ hold ∈ dispatch.holders, validateOperationId hold.1 = .ok ()
  recorded : ∀ hold ∈ dispatch.holders, hold.2.Recorded dispatch.journal hold.1

theorem SingleHanded.advance (inv : SingleHanded dispatch) {id : String} {stage stage' : Stage}
    {rest : List (String × Stage)} (before : dispatch.holders.Perm ((id, stage) :: rest))
    (after : dispatch'.holders.Perm ((id, stage') :: rest))
    (keeps : Keeps id dispatch.journal dispatch'.journal)
    (recorded : stage'.Recorded dispatch'.journal id) : SingleHanded dispatch' := by
  have single : (((id, stage) :: rest).map (·.1)).Nodup := (before.map _).nodup_iff.mp inv.single
  refine ⟨(after.map _).nodup_iff.mpr single, ?_, ?_⟩
  · intro hold member
    rcases List.mem_cons.mp (after.mem_iff.mp member) with rfl | other
    · exact inv.valid (id, stage) (before.mem_iff.mpr List.mem_cons_self)
    · exact inv.valid hold (before.mem_iff.mpr (List.mem_cons_of_mem _ other))
  · intro hold member
    rcases List.mem_cons.mp (after.mem_iff.mp member) with rfl | other
    · exact recorded
    · apply (inv.recorded hold (before.mem_iff.mpr (List.mem_cons_of_mem _ other))).keep keeps
      rintro same
      exact (List.nodup_cons.mp single).1 (List.mem_map.mpr ⟨hold, other, same⟩)

theorem SingleHanded.release (inv : SingleHanded dispatch) {id : String} {stage : Stage}
    {rest : List (String × Stage)} (before : dispatch.holders.Perm ((id, stage) :: rest))
    (after : dispatch'.holders.Perm rest) (keeps : Keeps id dispatch.journal dispatch'.journal) :
    SingleHanded dispatch' := by
  have single : (((id, stage) :: rest).map (·.1)).Nodup := (before.map _).nodup_iff.mp inv.single
  obtain ⟨alone, rest_single⟩ := List.nodup_cons.mp single
  refine ⟨(after.map _).nodup_iff.mpr rest_single, ?_, ?_⟩
  · intro hold member
    exact inv.valid hold (before.mem_iff.mpr (List.mem_cons_of_mem _ (after.mem_iff.mp member)))
  · intro hold member
    have other := after.mem_iff.mp member
    apply (inv.recorded hold (before.mem_iff.mpr (List.mem_cons_of_mem _ other))).keep keeps
    rintro same
    exact alone (List.mem_map.mpr ⟨hold, other, same⟩)

theorem SingleHanded.still (inv : SingleHanded dispatch) (same : dispatch'.holders = dispatch.holders)
    (keeps : KeepsAll dispatch.journal dispatch'.journal) : SingleHanded dispatch' := by
  refine ⟨same ▸ inv.single, same ▸ inv.valid, ?_⟩
  rw [same]
  rintro ⟨id, stage⟩ member
  have recorded := inv.recorded _ member
  cases stage with
  | queued => exact keeps id .queued rfl recorded
  | inFlight => exact keeps id .inFlight rfl recorded
  | finishing => trivial

end Invariant

section Hands

variable {dispatch : ConcurrentDispatch} {journal : OperationRecovery}

theorem perm_set {α : Type} {l : List α} {i : ℕ} {a : α} (here : l[i]? = some a) (b : α) :
    l.Perm (a :: l.eraseIdx i) ∧ (l.set i b).Perm (b :: l.eraseIdx i) := by
  obtain ⟨inside, rfl⟩ := List.getElem?_eq_some_iff.mp here
  exact ⟨(List.getElem_cons_eraseIdx_perm inside).symm, List.set_perm_cons_eraseIdx inside b⟩

theorem perm_front {α : Type} (a b front c : List α) :
    (a ++ (b ++ (front ++ c))).Perm (front ++ (a ++ (b ++ c))) :=
  ((List.perm_append_comm_assoc b front c).append_left a).trans
    (List.perm_append_comm_assoc a front (b ++ c))

/-- What the others hold when one worker is set aside. -/
def ConcurrentDispatch.besides (dispatch : ConcurrentDispatch) (index : ℕ) : List (String × Stage) :=
  dispatch.submissions.map Submission.hold ++
    (dispatch.queues.lanes.flatMap DispatchLane.jobs ++
      (dispatch.workers.eraseIdx index).filterMap DispatchWorker.hold)

theorem holders_worker {index : ℕ} {worker : DispatchWorker}
    (here : dispatch.workers[index]? = some worker) :
    dispatch.holders.Perm (worker.hold.toList ++ dispatch.besides index) := by
  have split := (perm_set here worker).1.filterMap DispatchWorker.hold
  refine List.Perm.trans ?_ (perm_front _ _ _ _)
  refine (List.Perm.trans split ?_).append_left _ |>.append_left _
  rw [List.filterMap_cons]
  cases worker.hold <;> rfl

theorem holders_setWorker {index : ℕ} {worker : DispatchWorker}
    (here : dispatch.workers[index]? = some worker) (worker' : DispatchWorker) :
    { dispatch with journal, workers := dispatch.workers.set index worker' }.holders.Perm
      (worker'.hold.toList ++ dispatch.besides index) := by
  have split := (perm_set here worker').2.filterMap DispatchWorker.hold
  refine List.Perm.trans ?_ (perm_front _ _ _ _)
  refine (List.Perm.trans split ?_).append_left _ |>.append_left _
  rw [List.filterMap_cons]
  cases worker'.hold <;> rfl

/-- What stands in the queues that a priority does not use. -/
def DispatchQueues.others : DispatchQueues → QueuePriority → List (String × Stage)
  | .shared _, _ => []
  | .split _ normal, .control => normal.jobs
  | .split control _, .normal => control.jobs

theorem lanes_select (queues : DispatchQueues) (priority : QueuePriority) :
    (queues.lanes.flatMap DispatchLane.jobs).Perm
      ((queues.select priority).jobs ++ queues.others priority) := by
  cases queues with
  | shared queue => simp [DispatchQueues.lanes, DispatchQueues.select, DispatchQueues.others]
  | split control normal =>
    cases priority with
    | control => simp [DispatchQueues.lanes, DispatchQueues.select, DispatchQueues.others]
    | normal =>
      simp only [DispatchQueues.lanes, DispatchQueues.select, DispatchQueues.others,
        List.flatMap_cons, List.flatMap_nil, List.append_nil]
      exact List.perm_append_comm

theorem lanes_replace (queues : DispatchQueues) (priority : QueuePriority) (lane : DispatchLane) :
    ((queues.replace lane priority).lanes.flatMap DispatchLane.jobs).Perm
      (lane.jobs ++ queues.others priority) := by
  cases queues with
  | shared queue => simp [DispatchQueues.lanes, DispatchQueues.replace, DispatchQueues.others]
  | split control normal =>
    cases priority with
    | control => simp [DispatchQueues.lanes, DispatchQueues.replace, DispatchQueues.others]
    | normal =>
      simp only [DispatchQueues.lanes, DispatchQueues.replace, DispatchQueues.others,
        List.flatMap_cons, List.flatMap_nil, List.append_nil]
      exact List.perm_append_comm

theorem jobs_push (lane : DispatchLane) (queued : PrioritizedItem DispatchJob)
    (priority : QueuePriority) :
    (DispatchLane.jobs { lane with state := pushBack lane.state queued priority }).Perm
      ((queued.item.operationId, .queued) :: lane.jobs) := by
  cases priority with
  | control =>
    simp only [DispatchLane.jobs, pushBack, List.map_append, List.map_cons, List.append_assoc,
      List.singleton_append]
    exact List.perm_middle
  | normal =>
    simp only [DispatchLane.jobs, pushBack, List.map_append, List.map_cons, List.map_nil]
    rw [← List.append_assoc]
    exact List.perm_append_singleton _ _

theorem jobs_pop (lane : DispatchLane) {queued : PrioritizedItem DispatchJob}
    {after : QueueState DispatchJob} (popped : Service.pop lane.state = (.some queued, after)) :
    lane.jobs.Perm
      ((queued.item.operationId, .queued) :: DispatchLane.jobs { lane with state := after }) := by
  have spec := pop_spec lane.state
  rw [popped] at spec
  cases spec with
  | control front _ _ => simp [DispatchLane.jobs, front]
  | normal front _ =>
    simp only [DispatchLane.jobs, front, List.map_append, List.map_cons]
    exact List.perm_middle

theorem lanes_push (queues : DispatchQueues) (priority : QueuePriority)
    (queued : PrioritizedItem DispatchJob) :
    ((queues.replace { queues.select priority with
        state := pushBack (queues.select priority).state queued priority } priority).lanes.flatMap
        DispatchLane.jobs).Perm
      ((queued.item.operationId, .queued) :: queues.lanes.flatMap DispatchLane.jobs) := by
  have pushed := (jobs_push (queues.select priority) queued priority).append_right
    (queues.others priority)
  exact ((lanes_replace queues priority _).trans pushed).trans
    ((lanes_select queues priority).symm.cons _)

theorem lanes_pop (queues : DispatchQueues) (serves : QueuePriority)
    {queued : PrioritizedItem DispatchJob} {after : QueueState DispatchJob}
    (popped : Service.pop (queues.select serves).state = (.some queued, after)) :
    (queues.lanes.flatMap DispatchLane.jobs).Perm ((queued.item.operationId, .queued) ::
      (queues.replace { queues.select serves with state := after } serves).lanes.flatMap
        DispatchLane.jobs) := by
  have taken := (jobs_pop (queues.select serves) popped).append_right (queues.others serves)
  exact ((lanes_select queues serves).trans taken).trans
    ((lanes_replace queues serves _).symm.cons _)

end Hands

section Preservation

variable {dispatch : ConcurrentDispatch}

theorem finishing_of_holder {id : String} (member : (id, Stage.finishing) ∈ dispatch.holders) :
    dispatch.Finishing id := by
  rw [ConcurrentDispatch.holders, List.mem_append, List.mem_append] at member
  rcases member with submitted | queued | held
  · obtain ⟨submission, -, same⟩ := List.mem_map.mp submitted
    cases same
  · obtain ⟨lane, -, inLane⟩ := List.mem_flatMap.mp queued
    obtain ⟨item, -, same⟩ := List.mem_map.mp inLane
    cases same
  · exact List.mem_filterMap.mp held

theorem SingleHanded.submit (inv : SingleHanded dispatch) {operationId : String}
    (priority : QueuePriority) (pruned updated : ℕ) (patient : ¬dispatch.Finishing operationId) :
    SingleHanded (submit dispatch operationId priority pruned updated).2 := by
  have spec := OperationRecovery.admit_spec dispatch.journal operationId pruned updated
  unfold Service.submit
  generalize dispatch.journal.admitOperation operationId pruned updated = outcome at spec ⊢
  cases spec with
  | rejected kept =>
    refine inv.still rfl ?_
    rcases kept with rfl | rfl
    · exact fun _ _ _ inPhase => inPhase
    · exact OperationRecovery.keepsAll_prune pruned
  | admitted valid inactive =>
    have absent : operationId ∉ dispatch.holders.map (·.1) := by
      intro member
      obtain ⟨⟨id, stage⟩, held, rfl⟩ := List.mem_map.mp member
      have recorded := inv.recorded _ held
      cases stage with
      | queued => exact inactive .queued rfl recorded
      | inFlight => exact inactive .inFlight rfl recorded
      | finishing => exact patient (finishing_of_holder held)
    have keeps : Keeps operationId dispatch.journal
        ((dispatch.journal.pruneTransient pruned).insert
          (OperationRecovery.queuedRecord operationId updated)) :=
      (OperationRecovery.keepsAll_prune pruned).keeps.trans OperationRecovery.keeps_queue
    refine ⟨List.nodup_cons.mpr ⟨absent, inv.single⟩, ?_, ?_⟩
    · intro hold member
      rcases List.mem_cons.mp member with rfl | other
      · exact valid
      · exact inv.valid hold other
    · intro hold member
      rcases List.mem_cons.mp member with rfl | other
      · exact OperationRecovery.inPhase_insert
      · apply (inv.recorded hold other).keep keeps
        rintro same
        exact absent (List.mem_map.mpr ⟨hold, other, same⟩)

/-- What the others hold when one submission is set aside. -/
def ConcurrentDispatch.apart (dispatch : ConcurrentDispatch) (index : ℕ) : List (String × Stage) :=
  (dispatch.submissions.eraseIdx index).map Submission.hold ++
    (dispatch.queues.lanes.flatMap DispatchLane.jobs ++
      dispatch.workers.filterMap DispatchWorker.hold)

theorem holders_submission {index : ℕ} {submission : Submission}
    (here : dispatch.submissions[index]? = some submission) :
    dispatch.holders.Perm (submission.hold :: dispatch.apart index) :=
  ((perm_set here submission).1.map Submission.hold).append_right _

theorem SingleHanded.push (inv : SingleHanded dispatch) (index : ℕ) :
    SingleHanded (pushSubmission dispatch index).2 := by
  unfold pushSubmission
  split
  · rename_i job priority here
    have before := holders_submission here
    have recorded := inv.recorded _ (before.mem_iff.mpr List.mem_cons_self)
    rcases tryPushRecoverable_cases (dispatch.queues.select priority).bounds
      (dispatch.queues.select priority).state job priority with
      ⟨error, refused⟩ | ⟨-, -, taken⟩
    · simp only [refused]
      refine inv.advance before ?_ (fun _ _ _ _ inPhase => inPhase) recorded
      have moved := (perm_set here ⟨job, priority, some error⟩).2.map Submission.hold
      have same := (lanes_replace dispatch.queues priority _).trans
        (lanes_select dispatch.queues priority).symm
      exact moved.append (same.append_right _)
    · simp only [taken]
      refine inv.advance before ?_ (fun _ _ _ _ inPhase => inPhase) recorded
      have pushed := (lanes_push dispatch.queues priority
        ⟨(dispatch.queues.select priority).state.nextTicket + 1, job⟩).append_right
        (dispatch.workers.filterMap DispatchWorker.hold)
      exact (pushed.append_left _).trans List.perm_middle
  · exact inv

theorem SingleHanded.withdraw (inv : SingleHanded dispatch) (index : ℕ) :
    SingleHanded (withdrawSubmission dispatch index).2 := by
  unfold withdrawSubmission
  split
  · rename_i job priority error here
    exact inv.release (holders_submission here) (List.Perm.refl _) OperationRecovery.keeps_remove
  · exact inv

theorem SingleHanded.pop (inv : SingleHanded dispatch) (index : ℕ) :
    SingleHanded (popJob dispatch index).2 := by
  unfold popJob
  split
  · rename_i serves here
    dsimp only
    split
    · rename_i queued after popped
      have lanes := (lanes_pop dispatch.queues serves popped).append_right
        (dispatch.workers.filterMap DispatchWorker.hold)
      have before := (lanes.append_left (dispatch.submissions.map Submission.hold)).trans
        List.perm_middle
      refine inv.advance before ?_ (fun _ _ _ _ inPhase => inPhase)
        (inv.recorded _ (before.mem_iff.mpr List.mem_cons_self))
      let taken : DispatchLane := { dispatch.queues.select serves with state := after }
      let popped' := { dispatch with queues := dispatch.queues.replace taken serves }
      have idle := @holders_worker popped' index _ here
      have busy := @holders_setWorker popped' dispatch.journal index _ here
        ⟨serves, .popped queued.item⟩
      exact busy.trans (idle.symm.cons _)
    · exact inv
  · exact inv

theorem SingleHanded.work (inv : SingleHanded dispatch) {index : ℕ} {worker worker' : DispatchWorker}
    {id : String} {stage stage' : Stage} {journal : OperationRecovery}
    (here : dispatch.workers[index]? = some worker) (held : worker.hold = some (id, stage))
    (holds : worker'.hold = some (id, stage')) (keeps : Keeps id dispatch.journal journal)
    (recorded : stage.Recorded dispatch.journal id → stage'.Recorded journal id) :
    SingleHanded { dispatch with journal, workers := dispatch.workers.set index worker' } := by
  have before := holders_worker here
  have after : { dispatch with journal, workers := dispatch.workers.set index worker' }.holders.Perm
      (worker'.hold.toList ++ dispatch.besides index) := holders_setWorker here worker'
  rw [held, Option.toList_some] at before
  rw [holds, Option.toList_some] at after
  exact inv.advance before after keeps
    (recorded (inv.recorded _ (before.mem_iff.mpr List.mem_cons_self)))

theorem SingleHanded.rest (inv : SingleHanded dispatch) {index : ℕ} {worker worker' : DispatchWorker}
    {id : String} {stage : Stage} {journal : OperationRecovery}
    (here : dispatch.workers[index]? = some worker) (held : worker.hold = some (id, stage))
    (idle : worker'.hold = none) (keeps : Keeps id dispatch.journal journal) :
    SingleHanded { dispatch with journal, workers := dispatch.workers.set index worker' } := by
  have before := holders_worker here
  have after : { dispatch with journal, workers := dispatch.workers.set index worker' }.holders.Perm
      (worker'.hold.toList ++ dispatch.besides index) := holders_setWorker here worker'
  rw [held, Option.toList_some] at before
  rw [idle, Option.toList_none] at after
  exact inv.release before after keeps

theorem SingleHanded.withWorker (inv : SingleHanded dispatch) {index : ℕ}
    {act : DispatchWorker → DispatchAnswer × ConcurrentDispatch}
    (acts : ∀ worker, dispatch.workers[index]? = some worker → SingleHanded (act worker).2) :
    SingleHanded (withWorker dispatch index act).2 := by
  unfold Service.withWorker
  split
  · exact acts _ ‹_›
  · exact inv

theorem SingleHanded.perform (inv : SingleHanded dispatch) (action : DispatchAction)
    (patient : Patient (entry perform dispatch action)) : SingleHanded (perform dispatch action).2 := by
  cases action with
  | submit operationId priority pruned updated =>
    exact inv.submit priority pruned updated (patient _ _ _ _ rfl)
  | push index => exact inv.push index
  | withdraw index => exact inv.withdraw index
  | pop index => exact inv.pop index
  | markInFlight index updated =>
    apply inv.withWorker
    intro worker here
    unfold markRunning
    split
    · rename_i job phase
      have held : worker.hold = some (job.operationId, .queued) := by
        rw [DispatchWorker.hold, phase]
      exact inv.work here held rfl OperationRecovery.keeps_edit
        (fun recorded => OperationRecovery.inPhase_markInFlight recorded)
    · exact inv
  | handled index result =>
    apply inv.withWorker
    intro worker here
    unfold handlerReturns
    split
    · rename_i job phase
      exact inv.work here (by rw [DispatchWorker.hold, phase]) rfl (fun _ _ _ _ inPhase => inPhase)
        (fun recorded => recorded)
    · exact inv
  | mark index updated pruned =>
    apply inv.withWorker
    intro worker here
    unfold markJob
    split
    · rename_i job phase
      exact inv.work here (by rw [DispatchWorker.hold, phase]) rfl OperationRecovery.keeps_edit
        (fun _ => trivial)
    · rename_i job phase
      exact inv.work here (by rw [DispatchWorker.hold, phase]) rfl OperationRecovery.keeps_edit
        (fun _ => trivial)
    · rename_i job phase
      exact inv.rest here (by rw [DispatchWorker.hold, phase]) rfl OperationRecovery.keeps_markUnknown
    · exact inv
  | write index delivered =>
    apply inv.withWorker
    intro worker here
    unfold writeResponse
    split
    · rename_i job replied phase
      exact inv.work here (by rw [DispatchWorker.hold, phase]) rfl (fun _ _ _ _ inPhase => inPhase)
        (fun _ => trivial)
    · exact inv
  | settle index updated pruned =>
    apply inv.withWorker
    intro worker here
    unfold settleJob
    split
    · rename_i job phase
      exact inv.rest here (by rw [DispatchWorker.hold, phase]) rfl OperationRecovery.keeps_markUnknown
    · rename_i job phase
      exact inv.rest here (by rw [DispatchWorker.hold, phase]) rfl OperationRecovery.keeps_remove
    · exact inv
  | shutdown =>
    refine inv.still ?_ (fun _ _ _ inPhase => inPhase)
    simp only [Service.perform, ConcurrentDispatch.holders]
    cases dispatch.queues <;> rfl

end Preservation

section Runs

variable {dispatch start : ConcurrentDispatch}

theorem SingleHanded.duplicate (inv : SingleHanded dispatch) {id : String}
    (active : dispatch.Active id) (pruned updated : ℕ) :
    ∃ record, (dispatch.journal.admitOperation id pruned updated).1 = .error (.duplicate record) := by
  rcases active with queued | inFlight
  · exact OperationRecovery.admit_active (inv.valid _ queued) rfl (inv.recorded _ queued) pruned
      updated
  · exact OperationRecovery.admit_active (inv.valid _ inFlight) rfl (inv.recorded _ inFlight) pruned
      updated

theorem SingleHanded.oneHandler (inv : SingleHanded dispatch) {i j : ℕ} {w w' : DispatchWorker}
    {job job' : DispatchJob} (first : dispatch.workers[i]? = some w)
    (second : dispatch.workers[j]? = some w') (running : w.phase = .running job)
    (running' : w'.phase = .running job') (same : job.operationId = job'.operationId) : i = j := by
  have single := inv.single
  rw [ConcurrentDispatch.holders, List.map_append, List.map_append] at single
  have workers := (List.nodup_append.mp (List.nodup_append.mp single).2.1).2.1
  rw [List.Nodup, List.pairwise_map, List.pairwise_filterMap, List.pairwise_iff_getElem] at workers
  have hold : w.hold = some (job.operationId, .inFlight) := by rw [DispatchWorker.hold, running]
  have hold' : w'.hold = some (job.operationId, .inFlight) := by
    rw [DispatchWorker.hold, running', same]
  obtain ⟨inside, rfl⟩ := List.getElem?_eq_some_iff.mp first
  obtain ⟨inside', rfl⟩ := List.getElem?_eq_some_iff.mp second
  rcases lt_trichotomy i j with before | equal | after
  · exact (workers i j inside inside' before _ hold _ hold' rfl).elim
  · exact equal
  · exact (workers j i inside' inside after _ hold' _ hold rfl).elim

theorem SingleHanded.exclusive (inv : SingleHanded dispatch) : Exclusive dispatch :=
  { oneHandler := fun _ _ _ _ _ _ first second running running' same =>
      inv.oneHandler first second running running' same
    duplicate := fun _ active pruned updated => inv.duplicate active pruned updated }

theorem newDispatch_holders {journal : OperationRecovery} {workerCount capacity : ℕ}
    (created : newDispatch journal workerCount capacity = .ok start) : start.holders = [] := by
  have idle (serves : QueuePriority) (count : ℕ) :
      (List.replicate count (⟨serves, .idle⟩ : DispatchWorker)).filterMap DispatchWorker.hold = [] := by
    rw [List.filterMap_eq_nil_iff]
    intro worker member
    rw [(List.mem_replicate.mp member).2]
    rfl
  unfold newDispatch at created
  split_ifs at created with split reserve
  · obtain ⟨control, -, created⟩ := Drain.bind_eq_ok.mp created
    obtain ⟨normal, -, created⟩ := Drain.bind_eq_ok.mp created
    cases created
    exact idle .normal _
  · obtain ⟨queue, -, created⟩ := Drain.bind_eq_ok.mp created
    cases created
    exact idle .normal _
  · obtain ⟨queue, -, created⟩ := Drain.bind_eq_ok.mp created
    cases created
    exact idle .normal _

theorem run_singleHanded (start_single : SingleHanded start) (actions : List DispatchAction)
    (patient : ∀ moment ∈ history perform start actions, Patient moment) :
    SingleHanded (final perform start actions) := by
  induction actions generalizing start with
  | nil => exact start_single
  | cons action actions ih =>
    rw [history_cons] at patient
    exact ih (start_single.perform action (patient _ List.mem_cons_self))
      (fun moment member => patient moment (List.mem_cons_of_mem _ member))

/-- A run in which nobody submits an operation id that a worker is finishing keeps every operation
to one dispatch at a time. -/
theorem run_exclusive {journal : OperationRecovery} {workerCount capacity : ℕ}
    (created : newDispatch journal workerCount capacity = .ok start) (actions : List DispatchAction)
    (patient : ∀ moment ∈ history perform start actions, Patient moment) :
    Exclusive (final perform start actions) := by
  have holders := newDispatch_holders created
  have single : SingleHanded start :=
    { single := by rw [holders]; exact List.nodup_nil
      valid := by rw [holders]; nofun
      recorded := by rw [holders]; nofun }
  exact (run_singleHanded single actions patient).exclusive

/-- Three workers: one for control work and two for the rest. -/
def smallDispatch : ConcurrentDispatch :=
  { queues := .split ⟨⟨1, 0, by decide, by decide⟩, emptyQueue⟩ ⟨⟨3, 0, by decide, by decide⟩, emptyQueue⟩
    journal := OperationRecovery.withLimits 1024 300000
    submissions := []
    workers := [⟨.control, .idle⟩, ⟨.normal, .idle⟩, ⟨.normal, .idle⟩] }

theorem run_exclusive_smallDispatch :
    newDispatch (OperationRecovery.withLimits 1024 300000) 3 4 = .ok smallDispatch ∧
      Exclusive (final perform smallDispatch
        [.submit "op-1" .normal 0 0, .push 0, .pop 1, .markInFlight 1 0]) := by
  have created : newDispatch (OperationRecovery.withLimits 1024 300000) 3 4 = .ok smallDispatch := rfl
  refine ⟨created, run_exclusive created _ ?_⟩
  intro moment member
  simp only [history_cons, history_nil, List.mem_cons, List.not_mem_nil, or_false] at member
  rcases member with rfl | rfl | rfl | rfl
  · rintro operationId priority pruned updated - ⟨worker, member, finishing⟩
    simp only [entry, smallDispatch, List.mem_cons, List.not_mem_nil, or_false] at member
    rcases member with rfl | rfl | rfl <;> cases finishing
  all_goals
    intro operationId priority pruned updated submitted
    cases submitted

/-- The operation is submitted again while its first worker writes the response, and once more after
that worker has removed the record of the second submission. -/
def overlappingSubmissions : List DispatchAction :=
  [.submit "op-1" .normal 0 0, .push 0, .pop 1, .markInFlight 1 0, .handled 1 .response, .mark 1 0 0,
    .submit "op-1" .normal 0 0, .push 0, .write 1 true, .settle 1 0 0,
    .submit "op-1" .normal 0 0, .push 0, .pop 1, .markInFlight 1 0, .pop 2, .markInFlight 2 0]

theorem two_handlers_at_once :
    ∃ start, newDispatch (OperationRecovery.withLimits 1024 300000) 3 4 = .ok start ∧
      ¬Exclusive (final perform start overlappingSubmissions) := by
  refine ⟨smallDispatch, rfl, ?_⟩
  intro exclusive
  have workers : (final perform smallDispatch overlappingSubmissions).workers =
      [⟨.control, .idle⟩, ⟨.normal, .running ⟨"op-1"⟩⟩, ⟨.normal, .running ⟨"op-1"⟩⟩] := by
    decide +kernel
  have same := exclusive.oneHandler 1 2 _ _ _ _ (by rw [workers]; rfl) (by rw [workers]; rfl) rfl rfl
    rfl
  cases same

end Runs

end Boreal.Service
