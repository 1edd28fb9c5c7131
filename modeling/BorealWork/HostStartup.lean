/- The start of a service host: what it asks of the durable recovery backend before and after the
project election, in any interleaving with other hosts and a live owner. -/
import BorealWork.OperationJournal
import BorealWork.PriorityQueue

namespace Boreal.Service
open Machines
open OperationRecovery (hydrate recover_unknown hydrate_uncertain)
open WorkModel (isControl)

inductive ElectionError
  | invalidIdentity (field : String)
  | busy (outcome : BusyOutcome)
  | io (error : String)
  deriving DecidableEq

structure ProjectLeaseConfig where
  runtimeDir : String
  projectId : String
  ownerId : String
  deriving DecidableEq

/-- The lock of a path: who holds it, and the owner that its file names. -/
structure ProjectLock (η : Type) where
  holder : Option η
  recorded : Option String

def validateIdentity (field value : String) : Except ElectionError Unit :=
  if isBlank value ∨ value.toList.any isControl then .error (.invalidIdentity field) else .ok ()

/-- The lock is taken where it is free; a fault is a failure of the file system. -/
def tryAcquire {η : Type} (lease : ProjectLeaseConfig) (lock : ProjectLock η) (self : η)
    (fault : Option String) : Except ElectionError (ProjectLock η) := do
  validateIdentity "project_id" lease.projectId
  validateIdentity "owner_id" lease.ownerId
  match fault with
  | some error => .error (.io error)
  | none => match lock.holder with
      | some _ => .error (.busy (.projectAlreadyOwned lease.projectId lock.recorded))
      | none => .ok ⟨some self, some lease.ownerId⟩

section Hosts

/-- The durable side of recovery: each call answers and may change the durable state. -/
structure RecoveryBackend (β : Type) where
  loadIncomplete : β → Except String (List RecoveryEntry) × β
  reconcile : RecoveryEntry → β → Except String RecoveryDisposition × β
  markUnknown : String → β → Except String Unit × β

inductive ServiceHostError
  | recovery (message : String)
  | recoveryJournal (error : OperationError)
  | election (error : ElectionError)
  deriving DecidableEq

structure HostConfig where
  recovery : OperationRecovery
  hasBackend : Bool
  projectLease : Option ProjectLeaseConfig

/-- Where the preparation of a host stands: the operations to reconcile one by one, one of them to
be marked, then the election. -/
inductive StartPhase
  | ready
  | reconciling (entries : List RecoveryEntry) (recovery : OperationRecovery)
      (report : RecoveryReport) (remaining : List String)
  | marking (entries : List RecoveryEntry) (recovery : OperationRecovery)
      (report : RecoveryReport) (operationId : String) (remaining : List String)
  | started (report : RecoveryReport)
  | failed (error : ServiceHostError)

def StartPhase.failure : StartPhase → Option ServiceHostError
  | .failed error => some error
  | _ => none

inductive BackendCall
  | loadIncomplete (entries : List RecoveryEntry)
  | reconcile (entry : RecoveryEntry)
  | markUnknown (operationId : String)
  deriving DecidableEq

variable {ι β : Type} [DecidableEq ι]

/-- Who may hold a lock: one of the hosts, or somebody else. -/
inductive LockHolder (ι : Type)
  | host (host : ι)
  | other
  deriving DecidableEq

structure HostWorld (ι β : Type) where
  durable : β
  locks : String → ProjectLock (LockHolder ι)
  hosts : ι → StartPhase

/-- Readings of the clock and the file system's answer, which a step of a host meets. -/
structure Surroundings where
  updated : ℕ
  pruned : ℕ
  fault : Option String
  deriving DecidableEq

inductive WorldAction (ι β : Type)
  | host (host : ι) (surroundings : Surroundings)
  | stop (host : ι)
  | acquire (path owner : String)
  | release (path : String)
  | durable (change : β → β)

/-- A call of a host on the durable backend, if the step made one. -/
abbrev WorldAnswer (ι : Type) := Option (ι × BackendCall)

variable (backend : RecoveryBackend β) (lockPath : String → String → String)
  (config : ι → HostConfig)

def loadStep (config : HostConfig) (surroundings : Surroundings) (durable : β) :
    Option BackendCall × StartPhase × β :=
  if config.hasBackend then
    match backend.loadIncomplete durable with
    | (.error message, durable) => (some (.loadIncomplete []), .failed (.recovery message), durable)
    | (.ok entries, durable) =>
      match hydrate surroundings.updated entries config.recovery with
      | (.error error, _) =>
        (some (.loadIncomplete entries), .failed (.recoveryJournal error), durable)
      | (.ok (), recovery) =>
        let (report, recovery) := recovery.recover surroundings.updated surroundings.pruned
        (some (.loadIncomplete entries), .reconciling entries recovery report report.unknown, durable)
  else
    let (report, recovery) := config.recovery.recover surroundings.updated surroundings.pruned
    (none, .reconciling [] recovery report [], durable)

/-- The loaded entry of an operation; one known to the journal only has nothing but its id. -/
def entryOf (entries : List RecoveryEntry) (operationId : String) : RecoveryEntry :=
  (entries.find? (·.operationId = operationId)).getD ⟨operationId, .unknown, none, none⟩

def reconcileStep (surroundings : Surroundings) (entries : List RecoveryEntry)
    (recovery : OperationRecovery) (report : RecoveryReport) (operationId : String)
    (remaining : List String) (durable : β) : Option BackendCall × StartPhase × β :=
  let entry := entryOf entries operationId
  match backend.reconcile entry durable with
  | (.error message, durable) => (some (.reconcile entry), .failed (.recovery message), durable)
  | (.ok (.unknown _), durable) =>
    (some (.reconcile entry), .marking entries recovery report operationId remaining, durable)
  | (.ok disposition, durable) =>
    (some (.reconcile entry),
      .reconciling entries
        (recovery.markReconciled operationId disposition surroundings.updated surroundings.pruned)
        { report with
          unknown := report.unknown.filter (· ≠ operationId)
          reconciled := report.reconciled ++ [operationId] } remaining, durable)

def markStep (entries : List RecoveryEntry) (recovery : OperationRecovery) (report : RecoveryReport)
    (operationId : String) (remaining : List String) (durable : β) :
    Option BackendCall × StartPhase × β :=
  match backend.markUnknown operationId durable with
  | (.error message, durable) =>
    (some (.markUnknown operationId), .failed (.recovery message), durable)
  | (.ok (), durable) =>
    (some (.markUnknown operationId), .reconciling entries recovery report remaining, durable)

def electStep (world : HostWorld ι β) (host : ι) (fault : Option String) (report : RecoveryReport) :
    HostWorld ι β :=
  match (config host).projectLease with
  | none => { world with hosts := Function.update world.hosts host (.started report) }
  | some lease =>
    let path := lockPath lease.runtimeDir lease.projectId
    match tryAcquire lease (world.locks path) (.host host) fault with
    | .error error =>
      { world with hosts := Function.update world.hosts host (.failed (.election error)) }
    | .ok lock =>
      { world with
        locks := Function.update world.locks path lock
        hosts := Function.update world.hosts host (.started report) }

def hostStep (world : HostWorld ι β) (host : ι) (surroundings : Surroundings) :
    WorldAnswer ι × HostWorld ι β :=
  let settle (outcome : Option BackendCall × StartPhase × β) : WorldAnswer ι × HostWorld ι β :=
    (outcome.1.map (host, ·),
      { world with
        durable := outcome.2.2, hosts := Function.update world.hosts host outcome.2.1 })
  match world.hosts host with
  | .ready => settle (loadStep backend (config host) surroundings world.durable)
  | .reconciling entries recovery report (operationId :: remaining) =>
    settle (reconcileStep backend surroundings entries recovery report operationId remaining
      world.durable)
  | .marking entries recovery report operationId remaining =>
    settle (markStep backend entries recovery report operationId remaining world.durable)
  | .reconciling _ _ report [] =>
    (none, electStep lockPath config world host surroundings.fault report)
  | .started _ | .failed _ => (none, world)

/-- Whoever holds a lock may let go of it; a host that stops does so. -/
def freeLocks (world : HostWorld ι β) (holder : LockHolder ι) : HostWorld ι β :=
  { world with locks := fun path =>
      if (world.locks path).holder = some holder then { world.locks path with holder := none }
      else world.locks path }

def worldStep (world : HostWorld ι β) : WorldAction ι β → WorldAnswer ι × HostWorld ι β
  | .host host surroundings => hostStep backend lockPath config world host surroundings
  | .stop host => (none, freeLocks world (.host host))
  | .acquire path owner =>
    if (world.locks path).holder.isNone then
      (none, { world with
        locks := Function.update world.locks path ⟨some .other, some owner⟩ })
    else (none, world)
  | .release path =>
    if (world.locks path).holder = some .other then
      (none, { world with
        locks := Function.update world.locks path { world.locks path with holder := none } })
    else (none, world)
  | .durable change => (none, { world with durable := change world.durable })

end Hosts

section Calls

variable {ι β : Type}

abbrev StartMoment (ι β : Type) := Entry (HostWorld ι β) (WorldAction ι β) (WorldAnswer ι)

def BackendCall.touches : BackendCall → Bool
  | .loadIncomplete _ => false
  | .reconcile _ | .markUnknown _ => true

/-- The host has reconciled or marked an operation. -/
def Touched (host : ι) (history : List (StartMoment ι β)) : Prop :=
  ∃ moment ∈ history, ∃ call : BackendCall, moment.answer = some (host, call) ∧ call.touches = true

/-- The journal that the host was given, or the incomplete operations that it loaded, hold an
operation in flight or unknown. -/
def Unsettled (config : HostConfig) (host : ι) (history : List (StartMoment ι β)) : Prop :=
  config.hasBackend = true ∧ (config.recovery.Uncertain ∨
    ∃ moment ∈ history, ∃ entries, moment.answer = some (host, .loadIncomplete entries) ∧
      ∃ entry ∈ entries, entry.phase.uncertain = true)

/-- The host failed because somebody else holds the election. -/
def LostElection (world : HostWorld ι β) (host : ι) : Prop :=
  ∃ outcome, (world.hosts host).failure = some (.election (.busy outcome))

variable {config : HostConfig} {host : ι} {history : List (StartMoment ι β)}
  {moment : StartMoment ι β}

theorem touched_append : Touched host (history ++ [moment]) ↔ Touched host history ∨
    ∃ call : BackendCall, moment.answer = some (host, call) ∧ call.touches = true := by
  simp only [Touched, List.mem_append, List.mem_singleton, or_and_right, exists_or, exists_eq_left]

theorem unsettled_append : Unsettled config host (history ++ [moment]) ↔
    Unsettled config host history ∨ config.hasBackend = true ∧
      ∃ entries, moment.answer = some (host, .loadIncomplete entries) ∧
        ∃ entry ∈ entries, entry.phase.uncertain = true := by
  simp only [Unsettled, List.mem_append, List.mem_singleton, or_and_right, exists_or, exists_eq_left]
  rw [← or_assoc, and_or_left]

def Accounted (config : HostConfig) (host : ι) (history : List (StartMoment ι β)) :
    StartPhase → Prop
  | .ready => ∀ moment ∈ history, ∀ call : BackendCall, moment.answer ≠ some (host, call)
  | .reconciling _ _ _ remaining =>
    Unsettled config host history ↔ Touched host history ∨ remaining ≠ []
  | .marking _ _ _ _ _ => Unsettled config host history ∧ Touched host history
  | .failed (.election _) => Unsettled config host history ↔ Touched host history
  | .started _ | .failed _ => True

theorem Accounted.other {phase : StartPhase} (accounted : Accounted config host history phase)
    (silent : ∀ call : BackendCall, moment.answer ≠ some (host, call)) :
    Accounted config host (history ++ [moment]) phase := by
  have touched : Touched host (history ++ [moment]) ↔ Touched host history := by
    rw [touched_append]
    exact or_iff_left fun ⟨call, answered, _⟩ => silent call answered
  have unsettled : Unsettled config host (history ++ [moment]) ↔ Unsettled config host history := by
    rw [unsettled_append]
    exact or_iff_left fun ⟨_, entries, answered, _⟩ => silent _ answered
  cases phase with
  | ready =>
    intro moment' member call
    rcases List.mem_append.mp member with old | new
    · exact accounted moment' old call
    · rw [List.mem_singleton.mp new]
      exact silent call
  | reconciling entries recovery report remaining =>
    rw [Accounted, touched, unsettled]
    exact accounted
  | marking entries recovery report operationId remaining =>
    rw [Accounted, touched, unsettled]
    exact accounted
  | started report => trivial
  | failed error =>
    cases error with
    | election error =>
      rw [Accounted, touched, unsettled]
      exact accounted
    | recovery message => trivial
    | recoveryJournal error => trivial

theorem Accounted.unanswered {phase : StartPhase} (accounted : Accounted config host history phase)
    (silent : moment.answer = none) :
    Accounted config host (history ++ [moment]) phase := by
  refine accounted.other fun call => ?_
  rw [silent]
  exact (Option.some_ne_none _).symm

end Calls

section Runs

variable {ι β : Type} [DecidableEq ι] {backend : RecoveryBackend β}
  {lockPath : String → String → String} {config : ι → HostConfig} {world : HostWorld ι β}
  {history : List (StartMoment ι β)} {host : ι}

omit [DecidableEq ι] in
theorem unsettled_ready (ready : Accounted (config host) host history .ready) :
    ¬Touched host history ∧
      (Unsettled (config host) host history ↔
        (config host).hasBackend = true ∧ (config host).recovery.Uncertain) := by
  refine ⟨?_, ?_⟩
  · rintro ⟨moment, member, call, answered, -⟩
    exact ready moment member call answered
  · refine and_congr_right fun _ => or_iff_left ?_
    rintro ⟨moment, member, entries, answered, -⟩
    exact ready moment member _ answered

omit [DecidableEq ι] in
/-- The account of a load: nothing has been touched, and what is uncertain remains to be done. -/
theorem accounted_load {surroundings : Surroundings} {moment : StartMoment ι β}
    (ready : Accounted (config host) host history .ready)
    (answered : moment.answer =
      ((loadStep backend (config host) surroundings world.durable).1.map (host, ·))) :
    Accounted (config host) host (history ++ [moment])
      (loadStep backend (config host) surroundings world.durable).2.1 := by
  obtain ⟨untouched, unsettled⟩ := unsettled_ready ready
  unfold loadStep at answered ⊢
  by_cases hasBackend : (config host).hasBackend = true
  · rw [if_pos hasBackend] at answered ⊢
    generalize backend.loadIncomplete world.durable = loaded at answered ⊢
    rcases loaded with ⟨_ | entries, durable⟩
    · trivial
    · dsimp only at answered ⊢
      cases hydrated : hydrate surroundings.updated entries (config host).recovery with
      | mk outcome recovery =>
        rw [hydrated] at answered
        cases outcome with
        | error error => trivial
        | ok _ =>
          rw [Accounted, touched_append, unsettled_append, unsettled, recover_unknown,
            hydrate_uncertain hydrated, answered]
          simp [untouched, hasBackend, BackendCall.touches]
  · rw [if_neg hasBackend] at answered ⊢
    rw [Accounted, touched_append, unsettled_append, unsettled, answered]
    simp [untouched, hasBackend]

omit [DecidableEq ι] in
/-- Reconciling an operation touches the backend. -/
theorem accounted_reconcile {surroundings : Surroundings} {moment : StartMoment ι β}
    {entries : List RecoveryEntry} {recovery : OperationRecovery} {report : RecoveryReport}
    {operationId : String} {remaining : List String}
    (accounted : Accounted (config host) host history
      (.reconciling entries recovery report (operationId :: remaining)))
    (answered : moment.answer = ((reconcileStep backend surroundings entries recovery report operationId
      remaining world.durable).1.map (host, ·))) :
    Accounted (config host) host (history ++ [moment])
      (reconcileStep backend surroundings entries recovery report operationId remaining
        world.durable).2.1 := by
  have unsettled : Unsettled (config host) host (history ++ [moment]) :=
    unsettled_append.mpr (.inl (accounted.mpr (.inr (List.cons_ne_nil _ _))))
  have touched : Touched host (history ++ [moment]) := by
    refine touched_append.mpr (.inr ⟨.reconcile (entryOf entries operationId), ?_, rfl⟩)
    rw [answered]
    unfold reconcileStep
    dsimp only
    generalize backend.reconcile (entryOf entries operationId) world.durable = outcome
    rcases outcome with ⟨_ | disposition, durable⟩
    · rfl
    · cases disposition <;> rfl
  unfold reconcileStep
  dsimp only
  generalize backend.reconcile (entryOf entries operationId) world.durable = outcome
  rcases outcome with ⟨_ | disposition, durable⟩
  · trivial
  · cases disposition with
    | unknown reason => exact ⟨unsettled, touched⟩
    | committed revision => exact iff_of_true unsettled (.inl touched)
    | failed reason => exact iff_of_true unsettled (.inl touched)

omit [DecidableEq ι] in
theorem accounted_mark {moment : StartMoment ι β} {entries : List RecoveryEntry}
    {recovery : OperationRecovery} {report : RecoveryReport} {operationId : String}
    {remaining : List String}
    (accounted : Accounted (config host) host history
      (.marking entries recovery report operationId remaining)) :
    Accounted (config host) host (history ++ [moment])
      (markStep backend entries recovery report operationId remaining world.durable).2.1 := by
  have unsettled : Unsettled (config host) host (history ++ [moment]) :=
    unsettled_append.mpr (.inl accounted.1)
  have touched : Touched host (history ++ [moment]) := touched_append.mpr (.inl accounted.2)
  unfold markStep
  generalize backend.markUnknown operationId world.durable = outcome
  rcases outcome with ⟨_ | _, durable⟩
  · trivial
  · exact iff_of_true unsettled (.inl touched)

theorem accounted_elect {fault : Option String} {moment : StartMoment ι β}
    {entries : List RecoveryEntry} {recovery : OperationRecovery} {report : RecoveryReport}
    (accounted : Accounted (config host) host history (.reconciling entries recovery report []))
    (silent : moment.answer = none) :
    Accounted (config host) host (history ++ [moment])
      ((electStep lockPath config world host fault report).hosts host) := by
  have kept : Accounted (config host) host (history ++ [moment])
      (.reconciling entries recovery report []) := accounted.unanswered silent
  rw [Accounted] at kept
  unfold electStep
  split
  · simp [Accounted]
  · dsimp only
    split
    · rename_i error failed
      simpa [Accounted] using kept
    · simp [Accounted]

theorem hostStep_other {host' : ι} (different : host' ≠ host) (surroundings : Surroundings) :
    (∀ call : BackendCall,
      (hostStep backend lockPath config world host' surroundings).1 ≠ some (host, call)) ∧
      (hostStep backend lockPath config world host' surroundings).2.hosts host = world.hosts host := by
  have named (outcome : Option BackendCall) (call : BackendCall) :
      outcome.map (host', ·) ≠ some (host, call) := by
    cases outcome with
    | none => exact (Option.some_ne_none _).symm
    | some other =>
      intro same
      cases same
      exact different rfl
  have moved (phase : StartPhase) : Function.update world.hosts host' phase host = world.hosts host :=
    Function.update_of_ne (Ne.symm different) _ _
  unfold hostStep
  split
  · exact ⟨named _, moved _⟩
  · exact ⟨named _, moved _⟩
  · exact ⟨named _, moved _⟩
  · refine ⟨named none, ?_⟩
    unfold electStep
    split
    · exact moved _
    · dsimp only
      split <;> exact moved _
  · exact ⟨named none, rfl⟩
  · exact ⟨named none, rfl⟩

theorem accounted_host {surroundings : Surroundings} {moment : StartMoment ι β}
    (accounted : Accounted (config host) host history (world.hosts host))
    (answered : moment.answer = (hostStep backend lockPath config world host surroundings).1) :
    Accounted (config host) host (history ++ [moment])
      ((hostStep backend lockPath config world host surroundings).2.hosts host) := by
  unfold hostStep at answered ⊢
  cases phase : world.hosts host with
  | ready =>
    simp only [phase, Function.update_self] at accounted answered ⊢
    exact accounted_load accounted answered
  | reconciling entries recovery report remaining =>
    cases remaining with
    | nil =>
      simp only [phase] at accounted answered ⊢
      exact accounted_elect accounted answered
    | cons operationId remaining =>
      simp only [phase, Function.update_self] at accounted answered ⊢
      exact accounted_reconcile accounted answered
  | marking entries recovery report operationId remaining =>
    simp only [phase, Function.update_self] at accounted answered ⊢
    exact accounted_mark accounted
  | started report =>
    simp only [phase]
    trivial
  | failed error =>
    simp only [phase] at accounted answered ⊢
    exact accounted.unanswered answered

theorem accounted_step (action : WorldAction ι β)
    (accounted : Accounted (config host) host history (world.hosts host)) :
    Accounted (config host) host
      (history ++ [entry (worldStep backend lockPath config) world action])
      ((worldStep backend lockPath config world action).2.hosts host) := by
  cases action with
  | host host' surroundings =>
    by_cases same : host' = host
    · subst same
      exact accounted_host accounted rfl
    · have other := @hostStep_other _ _ _ backend lockPath config world host host' same surroundings
      rw [worldStep, other.2]
      exact accounted.other other.1
  | stop host' => exact accounted.unanswered rfl
  | durable change => exact accounted.unanswered rfl
  | acquire path owner =>
    by_cases free : (world.locks path).holder.isNone = true
    · simp only [entry, worldStep, free, if_true]
      exact accounted.unanswered rfl
    · simp only [entry, worldStep, free]
      exact accounted.unanswered rfl
  | release path =>
    by_cases held : (world.locks path).holder = some .other
    · simp only [entry, worldStep, held, if_true]
      exact accounted.unanswered rfl
    · simp only [entry, worldStep, held, if_false]
      exact accounted.unanswered rfl

def unstarted (durable : β) (locks : String → ProjectLock (LockHolder ι)) : HostWorld ι β :=
  ⟨durable, locks, fun _ => .ready⟩

theorem run_accounted (durable : β) (locks : String → ProjectLock (LockHolder ι))
    (actions : List (WorldAction ι β)) :
    Accounted (config host) host
      (Machines.history (worldStep backend lockPath config) (unstarted durable locks) actions)
      ((final (worldStep backend lockPath config) (unstarted durable locks) actions).hosts host) :=
  @history_ledger _ _ _ (worldStep backend lockPath config)
    (fun history world => Accounted (config host) host history (world.hosts host))
    (unstarted durable locks) (by rintro moment member; cases member) actions
    fun _ _ action _ accounted => accounted_step action accounted

/-- A host that lost the election has left the durable backend alone exactly when neither its journal
nor what it loaded was unsettled. -/
theorem lostElection_untouched_iff (backend : RecoveryBackend β)
    (lockPath : String → String → String) (config : ι → HostConfig) (durable : β)
    (locks : String → ProjectLock (LockHolder ι)) (actions : List (WorldAction ι β)) (host : ι)
    (lost : LostElection
      (final (worldStep backend lockPath config) (unstarted durable locks) actions) host) :
    ¬Touched host
        (Machines.history (worldStep backend lockPath config) (unstarted durable locks) actions) ↔
      ¬Unsettled (config host) host
        (Machines.history (worldStep backend lockPath config) (unstarted durable locks) actions) := by
  have accounted := @run_accounted _ _ _ backend lockPath config host durable locks actions
  obtain ⟨outcome, failed⟩ := lost
  generalize (final (worldStep backend lockPath config) (unstarted durable locks) actions).hosts host =
    phase at accounted failed
  cases phase with
  | failed error =>
    cases failed
    exact (not_congr accounted).symm
  | ready => cases failed
  | reconciling _ _ _ _ => cases failed
  | marking _ _ _ _ _ => cases failed
  | started _ => cases failed

end Runs

def oneInFlight : RecoveryBackend (List String) :=
  { loadIncomplete := fun durable => (.ok [⟨"op-1", .inFlight, none, none⟩], durable)
    reconcile := fun _ durable =>
      (.ok (.unknown "no durable execution reconciliation was available"), durable)
    markUnknown := fun operationId durable => (.ok (), operationId :: durable) }

def sameProject (owner : Bool) : HostConfig :=
  { recovery := OperationRecovery.withLimits 1024 300000
    hasBackend := true
    projectLease := some ⟨"/run/boreal", "project-1", if owner then "host-a" else "host-b"⟩ }

def freeLock (_ : String) : ProjectLock (LockHolder Bool) := ⟨none, none⟩

def contestedStart : List (WorldAction Bool (List String)) :=
  .acquire "/run/boreal/project-1" "owner" :: List.replicate 4 (.host true ⟨0, 0, none⟩)

def joinPath (directory name : String) : String := directory ++ "/" ++ name

theorem contested_lost : LostElection
    (final (worldStep oneInFlight joinPath sameProject) (unstarted [] freeLock) contestedStart) true := by
  refine ⟨.projectAlreadyOwned "project-1" (some "owner"), ?_⟩
  decide

theorem contested_untouched_iff :
    ¬Touched true (history (worldStep oneInFlight joinPath sameProject) (unstarted [] freeLock)
        contestedStart) ↔
      ¬Unsettled (sameProject true) true
        (history (worldStep oneInFlight joinPath sameProject) (unstarted [] freeLock)
          contestedStart) :=
  lostElection_untouched_iff _ _ _ _ _ _ _ contested_lost

theorem loser_marks_unknown :
    ¬(LostElection
        (final (worldStep oneInFlight joinPath sameProject) (unstarted [] freeLock) contestedStart)
        true →
      ¬Touched true (history (worldStep oneInFlight joinPath sameProject) (unstarted [] freeLock)
        contestedStart)) := by
  intro untouched
  have answers : (history (worldStep oneInFlight joinPath sameProject) (unstarted [] freeLock)
      contestedStart).map Entry.answer =
      [none, some (true, .loadIncomplete [⟨"op-1", .inFlight, none, none⟩]),
        some (true, .reconcile ⟨"op-1", .inFlight, none, none⟩), some (true, .markUnknown "op-1"),
        none] := by
    decide
  have marked : some (true, BackendCall.markUnknown "op-1") ∈
      (history (worldStep oneInFlight joinPath sameProject) (unstarted [] freeLock)
        contestedStart).map Entry.answer := by
    rw [answers]
    decide
  obtain ⟨moment, member, answered⟩ := List.mem_map.mp marked
  exact untouched contested_lost ⟨moment, member, _, answered, rfl⟩

end Boreal.Service
