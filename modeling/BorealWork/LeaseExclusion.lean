/- Exclusion of worker leases: the row of a project is the lease of its last committed call, which
nobody else takes before its limit and only its owner renews or stops. -/
import BorealWork.WorkerLeases

namespace Boreal.Store.Workers
open Drain JsonValue Machines

variable {σ : Type} {authority : Authority} {checksum : Value → String}
  {store store' : SqliteStore (OrchestrationRows σ)} {rows : OrchestrationRows σ}
  {context : V3MutationContext} {owner leaseUntil projectId : String}

/-- Who may run the workers of a project, until when, and whether they have given it up. -/
structure Lease where
  owner : String
  limit : String
  stopped : Bool
  deriving DecidableEq

def OrchestrationWorker.lease (worker : OrchestrationWorker) : Lease :=
  ⟨worker.ownerId, worker.leaseUntil, worker.state = .stopped⟩

def Lease.set (lease : Option Lease) : WorkerCall σ → Option Lease
  | .acquire _ owner leaseUntil _ _ => some ⟨owner, leaseUntil, false⟩
  | .heartbeat _ _ leaseUntil _ => lease.map fun lease => { lease with limit := leaseUntil }
  | .stop context _ => lease.map fun lease => { lease with limit := context.now, stopped := true }
  | .other _ => lease

def leaseAfter (projectId : String) (lease : Option Lease) (call : WorkerCall σ) : Option Lease :=
  if call.context.projectId = projectId then Lease.set lease call else lease

abbrev WorkerEntry (σ : Type) :=
  Entry (SqliteStore (OrchestrationRows σ)) (WorkerCall σ) (Except StoreError MutationResult)

/-- The call succeeded, and not as a replay. -/
def Committed (answer : Except StoreError MutationResult) : Prop :=
  ∃ result, answer = .ok result ∧ result.replayed = false

instance : DecidablePred Committed := fun answer =>
  match answer with
  | .error _ => .isFalse fun ⟨_, same, _⟩ => by cases same
  | .ok result =>
    if fresh : result.replayed = false then .isTrue ⟨result, rfl, fresh⟩
    else .isFalse fun ⟨_, same, again⟩ => fresh (Except.ok.inj same ▸ again)

def leaseOf (projectId : String) (history : List (WorkerEntry σ)) : Option Lease :=
  (history.filter fun entry => Committed entry.answer).foldl
    (fun lease entry => leaseAfter projectId lease entry.call) none

def IsWorkerCall : WorkerCall σ → Bool
  | .other _ => false
  | _ => true

def workerCommits (projectId : String) (history : List (WorkerEntry σ)) : ℕ :=
  (history.filter fun entry => Committed entry.answer ∧ entry.call.context.projectId = projectId ∧
    IsWorkerCall entry.call = true).length

def allCommits (projectId : String) (history : List (WorkerEntry σ)) : ℕ :=
  (history.filter fun entry =>
    Committed entry.answer ∧ entry.call.context.projectId = projectId).length

theorem leaseOf_append (history : List (WorkerEntry σ)) (entry : WorkerEntry σ) :
    leaseOf projectId (history ++ [entry]) =
      if Committed entry.answer then leaseAfter projectId (leaseOf projectId history) entry.call
      else leaseOf projectId history := by
  rw [leaseOf, List.filter_append, List.foldl_append, List.filter_singleton]
  split_ifs with committed
  · rw [decide_eq_true committed]
    rfl
  · rw [decide_eq_false committed]
    rfl

theorem filter_length_append {α : Type*} {p : α → Prop} [DecidablePred p] (l : List α) (a : α) :
    ((l ++ [a]).filter p).length = (l.filter p).length + if p a then 1 else 0 := by
  rw [List.filter_append, List.length_append, List.filter_singleton]
  split_ifs with holds
  · rw [decide_eq_true holds]
    rfl
  · rw [decide_eq_false holds]
    rfl

/-- What an acquisition has checked and written. -/
structure Acquires (store : SqliteStore (OrchestrationRows σ)) (context : V3MutationContext)
    (owner leaseUntil : String) (maxWorkers maxRequests : ℕ) (rows : OrchestrationRows σ) : Prop where
  free : ∀ worker ∈ store.rows.workers context.projectId,
    workerLeaseIsActive worker.leaseUntil context.now = true → worker.ownerId ≠ owner →
      worker.state = .stopped
  bound : bindText owner = .ok ()
  written : rows = setWorker store context (acquiredWorker context owner leaseUntil maxWorkers
    maxRequests (store.rows.workers context.projectId))

theorem orchestrationWorker_eq_ok {found : Option OrchestrationWorker}
    (read : orchestrationWorker store projectId = .ok found) : found = store.rows.workers projectId :=
  (Except.ok.inj (check_eq_ok.mp read).2).symm

theorem writeAcquire_eq_ok {maxWorkers maxRequests : ℕ}
    (written : writeAcquire store context owner leaseUntil maxWorkers maxRequests = .ok rows) :
    Acquires store context owner leaseUntil maxWorkers maxRequests rows := by
  obtain ⟨existing, read, written⟩ := bind_eq_ok.mp written
  obtain rfl := orchestrationWorker_eq_ok read
  simp only [check_eq_ok, option_forM_eq_ok, refuse_eq_ok, forM_eq_ok] at written
  obtain ⟨free, texts, _, _, same⟩ := written
  refine ⟨fun worker member active other => ?_, texts owner (by simp), (Except.ok.inj same).symm⟩
  by_contra going
  exact free worker member ⟨active, other, going⟩

structure Beats (store : SqliteStore (OrchestrationRows σ)) (context : V3MutationContext)
    (owner leaseUntil : String) (completed : ℕ) (worker : OrchestrationWorker)
    (rows : OrchestrationRows σ) : Prop where
  found : store.rows.workers context.projectId = some worker
  own : worker.ownerId = owner
  running : worker.state = .running
  current : worker.revision = context.expectedRevision.getD 0
  written : rows = setWorker store context (beatWorker context leaseUntil completed worker)

theorem filter_eq_some {worker : OrchestrationWorker} {found : Option OrchestrationWorker}
    {p : OrchestrationWorker → Prop} [DecidablePred p] :
    found.filter p = some worker ↔ found = some worker ∧ p worker := by
  rw [Option.filter_eq_some_iff, decide_eq_true_eq]

theorem writeHeartbeat_eq_ok {completed : ℕ}
    (written : writeHeartbeat store context owner leaseUntil completed = .ok rows) :
    ∃ worker, Beats store context owner leaseUntil completed worker rows := by
  simp only [writeHeartbeat, check_eq_ok] at written
  obtain ⟨_, _, _, _, written⟩ := written
  split at written
  · cases written
  · next worker found =>
      obtain ⟨found, own, running, current⟩ := filter_eq_some.mp found
      exact ⟨worker, found, own, running, current, (Except.ok.inj written).symm⟩

structure Stops (store : SqliteStore (OrchestrationRows σ)) (context : V3MutationContext)
    (owner : String) (worker : OrchestrationWorker) (rows : OrchestrationRows σ) : Prop where
  found : store.rows.workers context.projectId = some worker
  own : worker.ownerId = owner
  current : worker.revision = context.expectedRevision.getD 0
  written : rows = setWorker store context (stoppedWorker context worker)

theorem writeStop_eq_ok (written : writeStop store context owner = .ok rows) :
    ∃ worker, Stops store context owner worker rows := by
  simp only [writeStop, check_eq_ok] at written
  obtain ⟨_, _, written⟩ := written
  split at written
  · cases written
  · next worker found =>
      obtain ⟨found, own, current⟩ := filter_eq_some.mp found
      exact ⟨worker, found, own, current, (Except.ok.inj written).symm⟩

def revisionOf (worker : Option OrchestrationWorker) : ℕ := worker.elim 0 OrchestrationWorker.revision

structure RowsAfter (projectId : String) (call : WorkerCall σ)
    (before after : Option OrchestrationWorker) : Prop where
  lease : after.map OrchestrationWorker.lease =
    leaseAfter projectId (before.map OrchestrationWorker.lease) call
  revision : revisionOf after =
    if call.context.projectId = projectId ∧ IsWorkerCall call = true then
      nextRevision (revisionOf before) else revisionOf before
  bound : (∀ worker ∈ before, bindText worker.ownerId = .ok ()) →
    ∀ worker ∈ after, bindText worker.ownerId = .ok ()

theorem rowsAfter_elsewhere (call : WorkerCall σ) (other : call.context.projectId ≠ projectId)
    (before : Option OrchestrationWorker) : RowsAfter projectId call before before where
  lease := by rw [leaseAfter, if_neg other]
  revision := by rw [if_neg fun own => other own.1]
  bound := id

theorem setWorker_other {worker : OrchestrationWorker} (other : context.projectId ≠ projectId) :
    (setWorker store context worker).workers projectId = store.rows.workers projectId :=
  Function.update_of_ne (Ne.symm other) _ _

theorem setWorker_self {worker : OrchestrationWorker} :
    (setWorker store context worker).workers context.projectId = some worker :=
  Function.update_self _ _ _

theorem write_rowsAfter (projectId : String) {call : WorkerCall σ}
    (written : (call.mutation checksum).write store = .ok rows) :
    RowsAfter projectId call (store.rows.workers projectId) (rows.workers projectId) := by
  cases call with
  | acquire context owner leaseUntil maxWorkers maxRequests =>
    obtain ⟨free, bound, rfl⟩ := writeAcquire_eq_ok written
    by_cases own : context.projectId = projectId
    · subst own
      rw [setWorker_self]
      refine ⟨(if_pos rfl).symm, ?_, fun _ worker member => ?_⟩
      · refine Eq.trans ?_ (if_pos ⟨rfl, rfl⟩).symm
        cases store.rows.workers context.projectId <;> rfl
      · obtain rfl := Option.some.inj member
        exact bound
    · rw [setWorker_other own]
      exact rowsAfter_elsewhere _ (by exact own) _
  | heartbeat context owner leaseUntil completed =>
    obtain ⟨worker, found, _, running, _, rfl⟩ := writeHeartbeat_eq_ok written
    by_cases own : context.projectId = projectId
    · subst own
      rw [setWorker_self, found]
      refine ⟨(if_pos rfl).symm, (if_pos ⟨rfl, rfl⟩).symm, ?_⟩
      intro known worker' member
      obtain rfl := Option.some.inj member
      exact known worker rfl
    · rw [setWorker_other own]
      exact rowsAfter_elsewhere _ (by exact own) _
  | stop context owner =>
    obtain ⟨worker, found, _, _, rfl⟩ := writeStop_eq_ok written
    by_cases own : context.projectId = projectId
    · subst own
      rw [setWorker_self, found]
      refine ⟨(if_pos rfl).symm, (if_pos ⟨rfl, rfl⟩).symm, ?_⟩
      intro known worker' member
      obtain rfl := Option.some.inj member
      exact known worker rfl
    · rw [setWorker_other own]
      exact rowsAfter_elsewhere _ (by exact own) _
  | other call =>
    obtain ⟨others, _, rfl⟩ := map_eq_ok.mp written
    exact ⟨(ite_self _).symm, (if_neg fun own => nomatch own.2).symm, id⟩

theorem performWorker_outcome (authority : Authority) (checksum : Value → String)
    (store : SqliteStore (OrchestrationRows σ)) (call : WorkerCall σ) :
    (¬ Committed (performWorker authority checksum store call).1 ∧
        (performWorker authority checksum store call).2 = store) ∨
      ∃ result, (performWorker authority checksum store call).1 = .ok result ∧
        result.replayed = false ∧ Commits authority store (call.mutation checksum) result
          (performWorker authority checksum store call).2 := by
  rw [performWorker]
  cases call.checkBounds with
  | error error => exact .inl ⟨fun ⟨_, same, _⟩ => (nomatch same), rfl⟩
  | ok _ =>
    have ended := factMutation_outcome authority store (call.mutation checksum)
    generalize factMutation authority store (call.mutation checksum) = outcome at ended ⊢
    cases ended with
    | failed error => exact .inl ⟨fun ⟨_, same, _⟩ => (nomatch same), rfl⟩
    | replayed existing known answers =>
      refine .inl ⟨fun ⟨_, same, fresh⟩ => ?_, rfl⟩
      rw [← Except.ok.inj same] at fresh
      cases fresh
    | committed result _ enabled authorized commits =>
      refine .inr ⟨result, rfl, ?_, commits⟩
      rw [commits.answer]

theorem mutation_projectId (call : WorkerCall σ) :
    (call.mutation checksum).context.projectId = call.context.projectId := by
  cases call <;> rfl

structure LeaseLedger (projectId : String) (base : Option ℕ) (history : List (WorkerEntry σ))
    (store : SqliteStore (OrchestrationRows σ)) : Prop where
  lease : (store.rows.workers projectId).map OrchestrationWorker.lease = leaseOf projectId history
  revision : revisionOf (store.rows.workers projectId) = workerCommits projectId history
  project : store.revisions projectId = base.map (· + allCommits projectId history)
  countable : Countable store
  bound : ∀ worker ∈ store.rows.workers projectId, bindText worker.ownerId = .ok ()

theorem workerCommits_le (history : List (WorkerEntry σ)) :
    workerCommits projectId history ≤ allCommits projectId history := by
  unfold workerCommits allCommits
  refine (List.monotone_filter_right history fun entry worker => ?_).length_le
  rw [decide_eq_true_eq] at worker ⊢
  exact ⟨worker.1, worker.2.1⟩

theorem LeaseLedger.append {base : Option ℕ} {history : List (WorkerEntry σ)}
    (ledger : LeaseLedger projectId base history store) (call : WorkerCall σ) :
    LeaseLedger projectId base (history ++ [entry (performWorker authority checksum) store call])
      (performWorker authority checksum store call).2 := by
  rcases performWorker_outcome authority checksum store call with ⟨idle, same⟩ |
    ⟨result, answered, fresh, commits⟩
  · have none_ : ¬ Committed (entry (performWorker authority checksum) store call).answer := idle
    rw [same]
    refine ⟨?_, ?_, ?_, ledger.countable, ledger.bound⟩
    · rw [leaseOf_append, if_neg none_]
      exact ledger.lease
    · rw [workerCommits, filter_length_append, if_neg fun own => none_ own.1]
      exact ledger.revision
    · rw [allCommits, filter_length_append, if_neg fun own => none_ own.1]
      exact ledger.project
  · have done : Committed (entry (performWorker authority checksum) store call).answer :=
      ⟨result, answered, fresh⟩
    obtain ⟨revision, current, next, room⟩ := commits.raised ledger.countable
    have rowsAfter := write_rowsAfter projectId commits.written
    rw [mutation_projectId] at current
    constructor
    · rw [leaseOf_append, if_pos done, ← ledger.lease]
      exact rowsAfter.lease
    · rw [rowsAfter.revision, workerCommits, filter_length_append, ledger.revision]
      by_cases own : call.context.projectId = projectId ∧ IsWorkerCall call = true
      · rw [if_pos own, if_pos ⟨done, own⟩, nextRevision, workerCommits]
        have below : workerCommits projectId history ≤ allCommits projectId history :=
          workerCommits_le history
        obtain ⟨base, _, total⟩ := Option.map_eq_some_iff.mp
          ((ledger.project.symm.trans (own.1 ▸ current)))
        rw [workerCommits] at below
        omega
      · rw [if_neg own, if_neg fun committed => own committed.2]
        rfl
    · rw [commits.revisions, mutation_projectId, allCommits, filter_length_append]
      by_cases own : call.context.projectId = projectId
      · subst own
        rw [Function.update_self, if_pos ⟨done, rfl⟩, next]
        obtain ⟨base', named, total⟩ := Option.map_eq_some_iff.mp (ledger.project.symm.trans current)
        rw [named, Option.map_some, ← total, allCommits, Nat.add_assoc]
      · rw [Function.update_of_ne (Ne.symm own), if_neg fun committed => own committed.2]
        exact ledger.project
    · have kept : Countable (factMutation authority store (call.mutation checksum)).2 :=
        ledger.countable.kept (call.mutation checksum)
      rw [performWorker] at answered ⊢
      cases bounds : call.checkBounds with
      | error error =>
        rw [bounds] at answered
        cases answered
      | ok _ => exact kept
    · exact rowsAfter.bound ledger.bound

/-- A store whose revisions have not run out and in which a project has had no worker. -/
structure WithoutWorker (projectId : String) (store : SqliteStore (OrchestrationRows σ)) : Prop where
  counted : ∀ projectId revision, store.revisions projectId = some revision → revision < maxInteger
  idle : store.rows.workers projectId = none

theorem leaseLedger_run (authority : Authority) (checksum : Value → String)
    (fresh : WithoutWorker projectId store) (calls : List (WorkerCall σ)) :
    LeaseLedger projectId (store.revisions projectId)
      (history (performWorker authority checksum) store calls)
      (final (performWorker authority checksum) store calls) := by
  refine history_ledger ?_ calls fun history store call _ ledger => ledger.append call
  refine ⟨by rw [fresh.idle]; rfl, by rw [fresh.idle]; rfl, ?_, ?_, ?_⟩
  · exact Option.map_id'.symm
  · exact fun projectId revision found => .inl (fresh.counted projectId revision found)
  · rw [fresh.idle]
    exact nofun

/-- What a run promises about the calls of one project that are no replays: who may take the lease,
who may renew or end it, and how the row's revision counts them. -/
structure LeaseExclusion (authority : Authority) (checksum : Value → String)
    (start : SqliteStore (OrchestrationRows σ)) (calls : List (WorkerCall σ)) (projectId : String) :
    Prop where
  acquired : ∀ earlier context owner leaseUntil maxWorkers maxRequests later,
    calls = earlier ++ .acquire context owner leaseUntil maxWorkers maxRequests :: later →
    context.projectId = projectId →
    Committed (performWorker authority checksum (final (performWorker authority checksum) start earlier)
      (.acquire context owner leaseUntil maxWorkers maxRequests)).1 →
    ∀ lease ∈ leaseOf projectId (history (performWorker authority checksum) start earlier),
      lease.owner ≠ owner → lease.stopped = false → ∀ now limit, millis context.now = some now →
        millis lease.limit = some limit → limit ≤ now
  beaten : ∀ earlier context owner leaseUntil completed later,
    calls = earlier ++ .heartbeat context owner leaseUntil completed :: later →
    context.projectId = projectId →
    Committed (performWorker authority checksum (final (performWorker authority checksum) start earlier)
      (.heartbeat context owner leaseUntil completed)).1 →
    ∃ lease ∈ leaseOf projectId (history (performWorker authority checksum) start earlier),
      lease.owner = owner ∧ lease.stopped = false
  stopped : ∀ earlier context owner later, calls = earlier ++ .stop context owner :: later →
    context.projectId = projectId →
    Committed (performWorker authority checksum (final (performWorker authority checksum) start earlier)
      (.stop context owner)).1 →
    ∃ lease ∈ leaseOf projectId (history (performWorker authority checksum) start earlier),
      lease.owner = owner
  counted : ∀ entry ∈ history (performWorker authority checksum) start calls,
    entry.call.context.projectId = projectId → IsWorkerCall entry.call = true →
    Committed entry.answer →
      revisionOf ((entry.after (performWorker authority checksum)).rows.workers projectId) =
        revisionOf (entry.before.rows.workers projectId) + 1
  replayed : ∀ entry ∈ history (performWorker authority checksum) start calls,
    ¬ Committed entry.answer → entry.after (performWorker authority checksum) = entry.before

theorem committed_write {call : WorkerCall σ}
    (done : Committed (performWorker authority checksum store call).1) :
    (call.mutation checksum).write store =
      .ok (performWorker authority checksum store call).2.rows := by
  rcases performWorker_outcome authority checksum store call with ⟨idle, _⟩ | ⟨_, _, _, commits⟩
  · exact absurd done idle
  · exact commits.written

/-- Exclusion over every interleaving of calls of any owners, with whatever other mutations. -/
theorem worker_leases_exclude (authority : Authority) (checksum : Value → String)
    (start : SqliteStore (OrchestrationRows σ)) (projectId : String)
    (fresh : WithoutWorker projectId start) (calls : List (WorkerCall σ)) :
    LeaseExclusion authority checksum start calls projectId := by
  have known := fun calls => leaseLedger_run authority checksum fresh calls
  constructor
  · rintro earlier context owner leaseUntil maxWorkers maxRequests later rfl rfl done
    intro lease held other going now limit clock bound
    rw [← (known earlier).lease] at held
    obtain ⟨worker, found, rfl⟩ := Option.map_eq_some_iff.mp held
    have taken := writeAcquire_eq_ok (committed_write done)
    by_contra early
    have active : workerLeaseIsActive worker.leaseUntil context.now = true := by
      have limit_ : millis worker.leaseUntil = some limit := bound
      rw [workerLeaseIsActive, limit_, clock]
      exact decide_eq_true (not_le.mp early)
    exact of_decide_eq_false going (taken.free worker found active other)
  · rintro earlier context owner leaseUntil completed later rfl rfl done
    obtain ⟨worker, beats⟩ := writeHeartbeat_eq_ok (committed_write done)
    refine ⟨worker.lease, ?_, beats.own, decide_eq_false ?_⟩
    · rw [← (known earlier).lease, beats.found]
      rfl
    · rw [beats.running]
      exact nofun
  · rintro earlier context owner later rfl rfl done
    obtain ⟨worker, stops⟩ := writeStop_eq_ok (committed_write done)
    refine ⟨worker.lease, ?_, stops.own⟩
    rw [← (known earlier).lease, stops.found]
    rfl
  · intro entry member own worker done
    obtain ⟨earlier, call, later, rfl, rfl⟩ := mem_history.mp member
    have before := (known earlier).revision
    have after := (known (earlier ++ [call])).revision
    rw [history_append, final_append, workerCommits, history_cons, history_nil,
      filter_length_append, if_pos ⟨done, own, worker⟩] at after
    exact after.trans (congrArg (· + 1) before.symm)
  · intro entry member idle
    obtain ⟨earlier, call, later, rfl, rfl⟩ := mem_history.mp member
    rcases performWorker_outcome authority checksum
      (final (performWorker authority checksum) start earlier) call with ⟨_, same⟩ |
      ⟨result, answered, new, _⟩
    · exact same
    · exact absurd ⟨result, answered, new⟩ idle

/-- A project without a worker. -/
def idleStore : SqliteStore (OrchestrationRows Unit) where
  revisions := fun project => if project = "project-1" then some 0 else none
  operations := []
  operationIdentities := []
  audits := []
  rows := ⟨fun _ => none, ()⟩

theorem idleStore_withoutWorker : WithoutWorker "project-1" idleStore where
  counted projectId revision found := by
    change (if projectId = "project-1" then some 0 else none) = some revision at found
    split at found
    · obtain rfl := Option.some.inj found
      decide
    · cases found
  idle := rfl

def sameDigest (_ : Value) : String := "sha256:request"

def workerContext (operationId now : String) (expected : ℕ) : V3MutationContext :=
  ⟨"project-1", "operator-1", some "session-1", operationId, "sha256:scope", some expected, now⟩

/-- A lease that expires, is taken by another owner, and is asked for once more under its first
operation. -/
def displacedOwner : List (WorkerCall Unit) :=
  [.acquire (workerContext "operation-1" "unix-ms:0" 0) "owner-a" "unix-ms:100" 1 1,
    .acquire (workerContext "operation-2" "unix-ms:150" 1) "owner-b" "unix-ms:300" 1 1,
    .acquire (workerContext "operation-1" "unix-ms:200" 0) "owner-a" "unix-ms:100" 1 1]

theorem worker_leases_exclude_displaced :
    LeaseExclusion operatorAuthority sameDigest idleStore displacedOwner "project-1" :=
  worker_leases_exclude operatorAuthority sameDigest idleStore "project-1" idleStore_withoutWorker
    displacedOwner

theorem displaced_owner_replays :
    displacedOwner.getLast? = some (.acquire (workerContext "operation-1" "unix-ms:200" 0) "owner-a"
        "unix-ms:100" 1 1) ∧
      leaseOf "project-1" (history (performWorker operatorAuthority sameDigest) idleStore
        (displacedOwner.take 2)) = some ⟨"owner-b", "unix-ms:300", false⟩ ∧
      millis "unix-ms:200" = some 200 ∧ millis "unix-ms:300" = some 300 ∧
      (performWorker operatorAuthority sameDigest
        (final (performWorker operatorAuthority sameDigest) idleStore (displacedOwner.take 2))
        (.acquire (workerContext "operation-1" "unix-ms:200" 0) "owner-a" "unix-ms:100" 1 1)).1 =
        .ok ⟨"operation-1", 1, true⟩ := by
  refine ⟨rfl, ?_⟩
  decide +kernel

end Boreal.Store.Workers
