/- Worker leases: one row of a project says who runs its workers and until when, and three canonical
mutations write it. -/
import BorealWork.MutationRuns
import BorealWork.Transport
import BorealWork.WaitOperations

namespace Boreal.Store.Workers
open Drain JsonValue
open Service (parseU64)

inductive WorkerState
  | running | stopping | stopped | uncertain
  deriving DecidableEq

structure OrchestrationWorker where
  projectId : String
  ownerId : String
  state : WorkerState
  leaseUntil : String
  heartbeatAt : String
  maxWorkers : ℕ
  maxRequests : ℕ
  requestsCompleted : ℕ
  revision : ℕ
  deriving DecidableEq

/-- The worker rows by their primary key, and whatever else canonical mutations write. -/
structure OrchestrationRows (σ : Type) where
  workers : String → Option OrchestrationWorker
  others : σ

def millis (value : String) : Option ℕ :=
  let scheme := "unix-ms:".toList
  if scheme.isPrefixOf value.toList then
    parseU64 (String.ofList (value.toList.drop scheme.length))
  else none

def workerLeaseIsActive (until_ now : String) : Bool :=
  match millis until_, millis now with
  | some until_, some now => now < until_
  | _, _ => false

/-- A sum that SQLite cannot hold reads back as its largest integer. -/
def addInteger (n m : ℕ) : ℕ := min (n + m) maxInteger

section Writes
variable {σ : Type} (store : SqliteStore (OrchestrationRows σ)) (context : V3MutationContext)

def orchestrationWorker (projectId : String) : Except StoreError (Option OrchestrationWorker) := do
  bindText projectId
  return store.rows.workers projectId

def setWorker (worker : OrchestrationWorker) : OrchestrationRows σ :=
  { store.rows with
    workers := Function.update store.rows.workers context.projectId (some worker) }

/-- The row that an acquisition writes over the one there is. -/
def acquiredWorker (owner leaseUntil : String) (maxWorkers maxRequests : ℕ)
    (existing : Option OrchestrationWorker) : OrchestrationWorker where
  projectId := context.projectId
  ownerId := owner
  state := .running
  leaseUntil := leaseUntil
  heartbeatAt := context.now
  maxWorkers := maxWorkers
  maxRequests := maxRequests
  requestsCompleted := 0
  revision := match existing with
    | none => 1
    | some worker => nextRevision worker.revision

def writeAcquire (owner leaseUntil : String) (maxWorkers maxRequests : ℕ) :
    Except StoreError (OrchestrationRows σ) := do
  let existing ← orchestrationWorker store context.projectId
  existing.forM fun worker => refuse (workerLeaseIsActive worker.leaseUntil context.now = true ∧
      worker.ownerId ≠ owner ∧ worker.state ≠ .stopped)
    (.conflict s!"worker lease held by {worker.ownerId} until {worker.leaseUntil}")
  [context.projectId, owner, leaseUntil, context.now].forM bindText
  [maxWorkers, maxRequests].forM bindI64
  refuse (store.revisions context.projectId = none) foreignKey
  return setWorker store context
    (acquiredWorker context owner leaseUntil maxWorkers maxRequests existing)

def beatWorker (leaseUntil : String) (completed : ℕ) (worker : OrchestrationWorker) :
    OrchestrationWorker :=
  { worker with
    heartbeatAt := context.now
    leaseUntil := leaseUntil
    requestsCompleted := addInteger worker.requestsCompleted completed
    revision := nextRevision worker.revision }

def writeHeartbeat (owner leaseUntil : String) (completed : ℕ) :
    Except StoreError (OrchestrationRows σ) := do
  [context.projectId, owner].forM bindText
  bindI64 (context.expectedRevision.getD 0)
  [context.now, leaseUntil].forM bindText
  bindI64 completed
  match (store.rows.workers context.projectId).filter fun worker =>
      worker.ownerId = owner ∧ worker.state = .running ∧
        worker.revision = context.expectedRevision.getD 0 with
  | none => .error (.conflict "worker ownership or revision changed")
  | some worker => return setWorker store context (beatWorker context leaseUntil completed worker)

def stoppedWorker (worker : OrchestrationWorker) : OrchestrationWorker :=
  { worker with
    state := .stopped
    leaseUntil := context.now
    heartbeatAt := context.now
    revision := nextRevision worker.revision }

def writeStop (owner : String) : Except StoreError (OrchestrationRows σ) := do
  [context.projectId, owner, context.now].forM bindText
  bindI64 (context.expectedRevision.getD 0)
  match (store.rows.workers context.projectId).filter fun worker =>
      worker.ownerId = owner ∧ worker.revision = context.expectedRevision.getD 0 with
  | none => .error (.conflict "worker owner/revision changed before stop")
  | some worker => return setWorker store context (stoppedWorker context worker)

end Writes

section Mutations
variable {σ : Type} (checksum : Value → String) (context : V3MutationContext) (owner : String)

def v3Mutation (context : V3MutationContext) (command : String)
    (write : SqliteStore (OrchestrationRows σ) → Except StoreError (OrchestrationRows σ)) :
    Mutation (OrchestrationRows σ) where
  context := context
  command := command
  subjectType := "orchestration_worker"
  subjectId := context.projectId
  roles := [.agent, .operator]
  write := write

def acquireMutation (leaseUntil : String) (maxWorkers maxRequests : ℕ) :
    Mutation (OrchestrationRows σ) :=
  v3Mutation (context.withPayload checksum (.object [("owner", .string owner),
      ("lease_until", .string leaseUntil), ("max_workers", natural maxWorkers),
      ("max_requests", natural maxRequests)]))
    "orchestration.daemon.acquire"
    fun store => writeAcquire store context owner leaseUntil maxWorkers maxRequests

def heartbeatMutation (leaseUntil : String) (completed : ℕ) : Mutation (OrchestrationRows σ) :=
  v3Mutation (context.withPayload checksum (.object [("owner", .string owner),
      ("lease_until", .string leaseUntil), ("requests_completed", natural completed)]))
    "orchestration.daemon.heartbeat"
    fun store => writeHeartbeat store context owner leaseUntil completed

def stopMutation : Mutation (OrchestrationRows σ) :=
  v3Mutation (context.withPayload checksum (.object [("owner", .string owner),
      ("state", .string "stopped")]))
    "orchestration.daemon.stop"
    fun store => writeStop store context owner

structure OtherMutation (σ : Type) where
  context : V3MutationContext
  command : String
  subjectType : String
  subjectId : String
  roles : List ActorRole
  write : SqliteStore (OrchestrationRows σ) → Except StoreError σ

def OtherMutation.mutation (other : OtherMutation σ) : Mutation (OrchestrationRows σ) where
  context := other.context
  command := other.command
  subjectType := other.subjectType
  subjectId := other.subjectId
  roles := other.roles
  write := fun store => (other.write store).map fun written => { store.rows with others := written }

end Mutations

section Calls
variable {σ : Type} (authority : Authority) (checksum : Value → String)

inductive WorkerCall (σ : Type)
  | acquire (context : V3MutationContext) (owner leaseUntil : String) (maxWorkers maxRequests : ℕ)
  | heartbeat (context : V3MutationContext) (owner leaseUntil : String) (completed : ℕ)
  | stop (context : V3MutationContext) (owner : String)
  | other (call : OtherMutation σ)

namespace WorkerCall

def context : WorkerCall σ → V3MutationContext
  | .acquire context _ _ _ _ | .heartbeat context _ _ _ | .stop context _ => context
  | .other call => call.context

def mutation : WorkerCall σ → Mutation (OrchestrationRows σ)
  | .acquire context owner leaseUntil maxWorkers maxRequests =>
    acquireMutation checksum context owner leaseUntil maxWorkers maxRequests
  | .heartbeat context owner leaseUntil completed =>
    heartbeatMutation checksum context owner leaseUntil completed
  | .stop context owner => stopMutation checksum context owner
  | .other call => call.mutation

def checkBounds : WorkerCall σ → Except StoreError Unit
  | .acquire _ _ _ maxWorkers maxRequests =>
    refuse (¬ (1 ≤ maxWorkers ∧ maxWorkers ≤ 32) ∨ ¬ (1 ≤ maxRequests ∧ maxRequests ≤ 10000))
      (.invalid "worker bounds are outside supported limits")
  | _ => .ok ()

end WorkerCall

def performWorker (store : SqliteStore (OrchestrationRows σ)) (call : WorkerCall σ) :
    Except StoreError MutationResult × SqliteStore (OrchestrationRows σ) :=
  match call.checkBounds with
  | .error error => (.error error, store)
  | .ok () => factMutation authority store (call.mutation checksum)

end Calls

end Boreal.Store.Workers
