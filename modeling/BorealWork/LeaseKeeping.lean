/- When the owner of a running lease can renew it or give it up: one expected revision is compared with
the project's and with the row's. -/
import BorealWork.LeaseExclusion

namespace Boreal.Store.Workers
open Drain JsonValue Machines

variable {σ : Type} {authority : Authority} {checksum : Value → String}
  {store : SqliteStore (OrchestrationRows σ)} {rows : OrchestrationRows σ}
  {context : V3MutationContext} {owner leaseUntil projectId : String} {completed : ℕ}
  {worker : OrchestrationWorker}

def expecting (context : V3MutationContext) (expected : ℕ) : V3MutationContext :=
  { context with expectedRevision := some expected }

/-- A call of the project that only its write can still stop, once it expects the project's current
revision. -/
structure Ready (authority : Authority) (checksum : Value → String)
    (store : SqliteStore (OrchestrationRows σ)) (projectId : String) (context : V3MutationContext)
    (call : V3MutationContext → WorkerCall σ) : Prop where
  project : ∀ expected, (call (expecting context expected)).context = expecting context expected
  own : context.projectId = projectId
  accepted : ∀ revision, store.revisions projectId = some revision →
    Acceptable authority store ((call (expecting context revision)).mutation checksum) revision

def CanSucceed (authority : Authority) (checksum : Value → String)
    (store : SqliteStore (OrchestrationRows σ)) (context : V3MutationContext)
    (call : V3MutationContext → WorkerCall σ) : Prop :=
  ∃ expected result,
    (performWorker authority checksum store (call (expecting context expected))).1 = .ok result

theorem mutation_operationId (call : WorkerCall σ) :
    (call.mutation checksum).context.operationId = call.context.operationId := by
  cases call <;> rfl

theorem mutation_expected (call : WorkerCall σ) :
    (call.mutation checksum).context.expectedRevision = call.context.expectedRevision := by
  cases call <;> rfl

variable {call : V3MutationContext → WorkerCall σ}

theorem succeeds_current {expected : ℕ}
    {result : MutationResult} (ready : Ready authority checksum store projectId context call)
    (new : ∀ row ∈ store.operations, row.operationId ≠ context.operationId)
    (succeeded : (performWorker authority checksum store (call (expecting context expected))).1 =
      .ok result) :
    store.revisions projectId = some expected ∧
      ∃ rows, ((call (expecting context expected)).mutation checksum).write store = .ok rows := by
  have asked := ready.project expected
  rw [performWorker] at succeeded
  cases bounds : (call (expecting context expected)).checkBounds with
  | error error =>
    rw [bounds] at succeeded
    cases succeeded
  | ok _ =>
    rw [bounds] at succeeded
    have ended := factMutation_outcome authority store
      ((call (expecting context expected)).mutation checksum)
    generalize factMutation authority store
      ((call (expecting context expected)).mutation checksum) = outcome at ended succeeded
    cases ended with
    | failed error => cases succeeded
    | replayed existing known answers =>
      have here := List.find?_some known
      rw [mutation_operationId, asked] at here
      exact absurd (of_decide_eq_true here) (new existing (List.mem_of_find?_eq_some known))
    | committed result _ enabled authorized commits =>
      obtain ⟨revision, current, same, _⟩ := commits.current
      rw [mutation_projectId, asked] at current
      rw [mutation_expected, asked] at same
      obtain rfl := same expected rfl
      exact ⟨ready.own ▸ current, _, commits.written⟩

variable {revision : ℕ}

theorem succeeds_of_write (ready : Ready authority checksum store projectId context call)
    (bounds : (call (expecting context revision)).checkBounds = .ok ())
    (current : store.revisions projectId = some revision)
    (written : ((call (expecting context revision)).mutation checksum).write store = .ok rows) :
    CanSucceed authority checksum store context call := by
  obtain ⟨after, done, _⟩ := factMutation_accepts (ready.accepted revision current) written
  have answered : (performWorker authority checksum store (call (expecting context revision))).1 =
      .ok ⟨((call (expecting context revision)).mutation checksum).context.operationId,
        revision + 1, false⟩ := by
    rw [performWorker, bounds]
    exact congrArg Prod.fst done
  exact ⟨revision, _, answered⟩

def beat (owner leaseUntil : String) (completed : ℕ) (context : V3MutationContext) : WorkerCall σ :=
  .heartbeat context owner leaseUntil completed

def giveUp (owner : String) (context : V3MutationContext) : WorkerCall σ := .stop context owner

/-- A renewal that can be bound. -/
structure Renewal (leaseUntil : String) (completed : ℕ) : Prop where
  limit : bindText leaseUntil = .ok ()
  count : bindI64 completed = .ok ()

theorem Ready.new (ready : Ready authority checksum store projectId context call)
    (current : store.revisions projectId = some revision) :
    ∀ row ∈ store.operations, row.operationId ≠ context.operationId := by
  have new := (ready.accepted revision current).fresh
  rw [mutation_operationId, ready.project revision] at new
  exact new

theorem heartbeat_succeeds_iff (held : store.rows.workers projectId = some worker)
    (running : worker.state = .running) (bound : bindText worker.ownerId = .ok ())
    (renewal : Renewal leaseUntil completed) (current : store.revisions projectId = some revision)
    (ready : Ready authority checksum store projectId context
      (beat worker.ownerId leaseUntil completed)) :
    CanSucceed authority checksum store context (beat worker.ownerId leaseUntil completed) ↔
      worker.revision = revision := by
  constructor
  · rintro ⟨expected, result, succeeded⟩
    obtain ⟨same, rows, written⟩ := succeeds_current ready (ready.new current) succeeded
    obtain ⟨found, beats⟩ := writeHeartbeat_eq_ok written
    have own : context.projectId = projectId := ready.own
    have found_ := beats.found
    rw [show (expecting context expected).projectId = projectId from own, held] at found_
    obtain rfl := Option.some.inj found_
    have at_ : worker.revision = expected := beats.current
    rw [at_]
    exact Option.some.inj (same.symm.trans current)
  · rintro rfl
    have accepted := ready.accepted worker.revision current
    have texts : ∀ text ∈ [context.projectId, context.now], bindText text = .ok () := by
      intro text member
      refine refuse_of_not (accepted.texts text ?_).2
      rcases List.mem_pair.mp member with rfl | rfl
      · exact List.mem_cons_of_mem _ List.mem_cons_self
      · simp [beat, WorkerCall.mutation, heartbeatMutation, v3Mutation, expecting,
          V3MutationContext.withPayload]
    have fits : bindI64 worker.revision = .ok () := bindI64_of_le accepted.room.le
    have own : context.projectId = projectId := ready.own
    suffices written : writeHeartbeat store (expecting context worker.revision) worker.ownerId leaseUntil
        completed = .ok (setWorker store (expecting context worker.revision)
          (beatWorker (expecting context worker.revision) leaseUntil completed worker)) from
      succeeds_of_write ready rfl current written
    simp only [writeHeartbeat, check_eq_ok, forM_eq_ok]
    refine ⟨?_, fits, ?_, renewal.count, ?_⟩
    · exact List.forall_mem_cons.mpr ⟨texts _ List.mem_cons_self, List.forall_mem_singleton.mpr bound⟩
    · refine List.forall_mem_cons.mpr ⟨texts context.now ?_, List.forall_mem_singleton.mpr renewal.limit⟩
      exact List.mem_cons_of_mem _ (List.mem_singleton_self _)
    · have found : (store.rows.workers (expecting context worker.revision).projectId).filter
          (fun found => found.ownerId = worker.ownerId ∧ found.state = .running ∧
            found.revision = (expecting context worker.revision).expectedRevision.getD 0) =
          some worker := by
        rw [filter_eq_some]
        exact ⟨(congrArg store.rows.workers own).trans held, rfl, running, rfl⟩
      rw [found]
      rfl

theorem stop_succeeds_iff (held : store.rows.workers projectId = some worker)
    (bound : bindText worker.ownerId = .ok ()) (current : store.revisions projectId = some revision)
    (ready : Ready authority checksum store projectId context (giveUp worker.ownerId)) :
    CanSucceed authority checksum store context (giveUp worker.ownerId) ↔
      worker.revision = revision := by
  have own : context.projectId = projectId := ready.own
  constructor
  · rintro ⟨expected, result, succeeded⟩
    obtain ⟨same, rows, written⟩ := succeeds_current ready (ready.new current) succeeded
    obtain ⟨found, stops⟩ := writeStop_eq_ok written
    have found_ := stops.found
    rw [show (expecting context expected).projectId = projectId from own, held] at found_
    obtain rfl := Option.some.inj found_
    have at_ : worker.revision = expected := stops.current
    rw [at_]
    exact Option.some.inj (same.symm.trans current)
  · rintro rfl
    have accepted := ready.accepted worker.revision current
    have project : bindText context.projectId = .ok () :=
      refuse_of_not (accepted.texts _ (List.mem_cons_of_mem _ List.mem_cons_self)).2
    have now : bindText context.now = .ok () :=
      refuse_of_not (accepted.texts _ (by
        simp [giveUp, WorkerCall.mutation, stopMutation, v3Mutation, expecting,
          V3MutationContext.withPayload])).2
    have fits : bindI64 worker.revision = .ok () := bindI64_of_le accepted.room.le
    suffices written : writeStop store (expecting context worker.revision) worker.ownerId =
        .ok (setWorker store (expecting context worker.revision)
          (stoppedWorker (expecting context worker.revision) worker)) from
      succeeds_of_write ready rfl current written
    simp only [writeStop, check_eq_ok, forM_eq_ok]
    refine ⟨?_, fits, ?_⟩
    · exact List.forall_mem_cons.mpr ⟨project, List.forall_mem_cons.mpr
        ⟨bound, List.forall_mem_singleton.mpr now⟩⟩
    · have found : (store.rows.workers (expecting context worker.revision).projectId).filter
          (fun found => found.ownerId = worker.ownerId ∧
            found.revision = (expecting context worker.revision).expectedRevision.getD 0) =
          some worker := by
        rw [filter_eq_some]
        exact ⟨(congrArg store.rows.workers own).trans held, rfl, rfl⟩
      rw [found]
      rfl

/-- The project has been mutated by nothing but calls about its worker since it had no revision. -/
def OnlyWorkerCalls (projectId : String) (base : ℕ) (history : List (WorkerEntry σ)) : Prop :=
  base = 0 ∧ ∀ entry ∈ history, Committed entry.answer → entry.call.context.projectId = projectId →
    IsWorkerCall entry.call = true

theorem filter_length_eq_iff {α : Type*} {p q : α → Prop} [DecidablePred p] [DecidablePred q]
    (narrower : ∀ a, p a → q a) {l : List α} :
    (l.filter p).length = (l.filter q).length ↔ ∀ a ∈ l, q a → p a := by
  have both : l.filter p = (l.filter q).filter p := by
    rw [List.filter_filter]
    refine List.filter_congr fun a _ => ?_
    by_cases holds : p a
    · simp [holds, narrower a holds]
    · simp [holds]
  rw [both, List.length_filter_eq_length_iff]
  simp [List.mem_filter]

theorem revisions_agree_iff {base revision : ℕ} {history : List (WorkerEntry σ)}
    (ledger : LeaseLedger projectId (some base) history store)
    (held : store.rows.workers projectId = some worker)
    (current : store.revisions projectId = some revision) :
    worker.revision = revision ↔ OnlyWorkerCalls projectId base history := by
  have counted := ledger.revision
  have total := ledger.project
  rw [held] at counted
  rw [current, Option.map_some, Option.some_inj] at total
  have own : worker.revision = workerCommits projectId history := counted
  have below : workerCommits projectId history ≤ allCommits projectId history :=
    workerCommits_le history
  have same : workerCommits projectId history = allCommits projectId history ↔
      ∀ entry ∈ history, Committed entry.answer ∧ entry.call.context.projectId = projectId →
        Committed entry.answer ∧ entry.call.context.projectId = projectId ∧
          IsWorkerCall entry.call = true :=
    filter_length_eq_iff fun entry known => ⟨known.1, known.2.1⟩
  rw [own, total]
  constructor
  · intro agree
    refine ⟨by omega, fun entry member done there => ?_⟩
    exact (same.mp (by omega) entry member ⟨done, there⟩).2.2
  · rintro ⟨rfl, only⟩
    rw [Nat.zero_add]
    exact same.mpr fun entry member known => ⟨known.1, known.2, only entry member known.1 known.2⟩

/-- In any reachable state, the owner of a running lease can renew it, and can give it up, exactly when
the project has been mutated by nothing but calls about its worker. -/
theorem worker_keeps_lease_iff (authority : Authority) (checksum : Value → String)
    (start : SqliteStore (OrchestrationRows σ)) (projectId : String) (base : ℕ)
    (fresh : WithoutWorker projectId start) (created : start.revisions projectId = some base)
    (calls : List (WorkerCall σ)) (worker : OrchestrationWorker)
    (held : (final (performWorker authority checksum) start calls).rows.workers projectId = some worker)
    (running : worker.state = .running) (context : V3MutationContext) (leaseUntil : String)
    (completed : ℕ) (renewal : Renewal leaseUntil completed)
    (beats : Ready authority checksum (final (performWorker authority checksum) start calls) projectId
      context (beat worker.ownerId leaseUntil completed))
    (stops : Ready authority checksum (final (performWorker authority checksum) start calls) projectId
      context (giveUp worker.ownerId)) :
    (CanSucceed authority checksum (final (performWorker authority checksum) start calls) context
        (beat worker.ownerId leaseUntil completed) ↔
      OnlyWorkerCalls projectId base (history (performWorker authority checksum) start calls)) ∧
    (CanSucceed authority checksum (final (performWorker authority checksum) start calls) context
        (giveUp worker.ownerId) ↔
      OnlyWorkerCalls projectId base (history (performWorker authority checksum) start calls)) := by
  have ledger := leaseLedger_run authority checksum fresh calls
  rw [created] at ledger
  have bound := ledger.bound worker held
  rw [← revisions_agree_iff ledger held ledger.project]
  exact ⟨heartbeat_succeeds_iff held running bound renewal ledger.project beats,
    stop_succeeds_iff held bound ledger.project stops⟩

/-- A new request of the operator, about rows that its journal leaves free. -/
def Unused (store : SqliteStore (OrchestrationRows Unit)) (operationId : String) (revision : ℕ) : Prop :=
  store.revisions "project-1" = some revision ∧ revision < maxInteger ∧ Speaks operationId ∧
    (∀ row ∈ store.operations, row.operationId ≠ operationId) ∧
    (∀ row ∈ store.audits, row.operationId ≠ operationId ∧
      (row.projectId, row.revision) ≠ ("project-1", revision + 1)) ∧
    ∀ row ∈ store.operationIdentities, row.operationId ≠ operationId

instance (store : SqliteStore (OrchestrationRows Unit)) (operationId : String) (revision : ℕ) :
    Decidable (Unused store operationId revision) :=
  inferInstanceAs (Decidable (_ ∧ _))

variable {store : SqliteStore (OrchestrationRows Unit)}

theorem workerMutation_acceptable
    {operationId command : String} (speaks : Speaks command)
    (unused : Unused store operationId revision)
    (write : SqliteStore (OrchestrationRows Unit) → Except StoreError (OrchestrationRows Unit)) :
    Acceptable operatorAuthority store
      (v3Mutation { workerContext operationId "unix-ms:50" revision with
        requestDigest := "sha256:request" } command write) revision where
  enabled := rfl
  authorized := (countingCall_acceptable "").authorized
  texts := by
    have rest : ∀ text ∈ ["project-1", "operator-1", "sha256:request", "unix-ms:50"], Speaks text := by
      decide
    change ∀ text ∈ [operationId, "project-1", command, "operator-1", "sha256:request", "unix-ms:50"],
      Speaks text
    simp only [List.forall_mem_cons] at rest ⊢
    obtain ⟨project, actor, digest, now, none⟩ := rest
    exact ⟨unused.2.2.1, project, speaks, actor, digest, now, none⟩
  session := (countingCall_acceptable "").session
  context := (countingCall_acceptable "").context
  current := unused.1
  room := unused.2.1
  expected := fun expected asked => (Option.mem_some_iff.mp asked).symm
  references := by
    refine ⟨?_, rfl, fun session asked => ?_⟩
    · change (store.revisions "project-1").isSome = true
      rw [unused.1]
      rfl
    · cases Option.mem_some_iff.mp asked
      decide
  fresh := unused.2.2.2.1
  unaudited := unused.2.2.2.2.1
  unidentified := unused.2.2.2.2.2

theorem beat_ready {operationId : String}
    {current : ℕ} (unused : Unused store operationId current) (owner leaseUntil : String)
    (completed : ℕ) : Ready operatorAuthority sameDigest store "project-1"
      (workerContext operationId "unix-ms:50" 0) (beat owner leaseUntil completed) where
  project _ := rfl
  own := rfl
  accepted revision found := by
    obtain rfl := Option.some.inj (unused.1.symm.trans found)
    exact workerMutation_acceptable (by decide) unused _

theorem giveUp_ready {operationId : String}
    {current : ℕ} (unused : Unused store operationId current) (owner : String) :
    Ready operatorAuthority sameDigest store "project-1"
      (workerContext operationId "unix-ms:50" 0) (giveUp owner) where
  project _ := rfl
  own := rfl
  accepted revision found := by
    obtain rfl := Option.some.inj (unused.1.symm.trans found)
    exact workerMutation_acceptable (by decide) unused _

/-- The first mutation of a project takes the lease. -/
def soleOwner : List (WorkerCall Unit) :=
  [.acquire (workerContext "operation-1" "unix-ms:0" 0) "owner-a" "unix-ms:100" 1 1]

def firstWorker : OrchestrationWorker :=
  ⟨"project-1", "owner-a", .running, "unix-ms:100", "unix-ms:0", 1, 1, 0, 1⟩

theorem soleOwner_keeps_lease :
    (CanSucceed operatorAuthority sameDigest
        (final (performWorker operatorAuthority sameDigest) idleStore soleOwner)
        (workerContext "operation-2" "unix-ms:50" 0) (beat "owner-a" "unix-ms:200" 0) ↔
      OnlyWorkerCalls "project-1" 0
        (history (performWorker operatorAuthority sameDigest) idleStore soleOwner)) ∧
    (CanSucceed operatorAuthority sameDigest
        (final (performWorker operatorAuthority sameDigest) idleStore soleOwner)
        (workerContext "operation-2" "unix-ms:50" 0) (giveUp "owner-a") ↔
      OnlyWorkerCalls "project-1" 0
        (history (performWorker operatorAuthority sameDigest) idleStore soleOwner)) := by
  have unused : Unused (final (performWorker operatorAuthority sameDigest) idleStore soleOwner)
      "operation-2" 1 := by decide +kernel
  have held : (final (performWorker operatorAuthority sameDigest) idleStore
      soleOwner).rows.workers "project-1" = some firstWorker := by rfl
  exact worker_keeps_lease_iff operatorAuthority sameDigest idleStore "project-1" 0
    idleStore_withoutWorker rfl soleOwner firstWorker held rfl
    (workerContext "operation-2" "unix-ms:50" 0) "unix-ms:200" 0 ⟨by decide, by decide⟩
    (beat_ready unused _ _ _) (giveUp_ready unused _)

/-- A mutation of something else, and then the lease. -/
def laterOwner : List (WorkerCall Unit) :=
  [.other ⟨workerContext "operation-0" "unix-ms:0" 0, "intake.create", "intake", "intake-1",
      [.operator], fun _ => .ok ()⟩,
    .acquire (workerContext "operation-1" "unix-ms:0" 1) "owner-a" "unix-ms:100" 1 1]

theorem laterOwner_loses_lease :
    (final (performWorker operatorAuthority sameDigest) idleStore laterOwner).rows.workers
        "project-1" = some firstWorker ∧ firstWorker.state = .running ∧
      Ready operatorAuthority sameDigest
        (final (performWorker operatorAuthority sameDigest) idleStore laterOwner) "project-1"
        (workerContext "operation-2" "unix-ms:50" 0) (beat "owner-a" "unix-ms:200" 0) ∧
      ¬ CanSucceed operatorAuthority sameDigest
        (final (performWorker operatorAuthority sameDigest) idleStore laterOwner)
        (workerContext "operation-2" "unix-ms:50" 0) (beat "owner-a" "unix-ms:200" 0) ∧
      ¬ CanSucceed operatorAuthority sameDigest
        (final (performWorker operatorAuthority sameDigest) idleStore laterOwner)
        (workerContext "operation-2" "unix-ms:50" 0) (giveUp "owner-a") := by
  have unused : Unused (final (performWorker operatorAuthority sameDigest) idleStore laterOwner)
      "operation-2" 2 := by decide +kernel
  have held : (final (performWorker operatorAuthority sameDigest) idleStore
      laterOwner).rows.workers "project-1" = some firstWorker := by rfl
  have bound : bindText firstWorker.ownerId = .ok () := by decide
  have apart : firstWorker.revision ≠ 2 := by decide
  refine ⟨held, rfl, beat_ready unused _ _ _, ?_, ?_⟩
  · exact fun renewed => apart ((heartbeat_succeeds_iff held rfl bound ⟨by decide, by decide⟩ unused.1
      (beat_ready unused _ _ _)).mp renewed)
  · exact fun given => apart ((stop_succeeds_iff held bound unused.1 (giveUp_ready unused _)).mp given)

end Boreal.Store.Workers
