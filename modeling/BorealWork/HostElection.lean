/- The election of a project over runs: a host that has started holds the lock of its project until it
stops, so two hosts of one project never serve it together. -/
import BorealWork.HostStartup

namespace Boreal.Service
open Drain Machines

variable {ι β : Type} [DecidableEq ι] {backend : RecoveryBackend β}
  {lockPath : String → String → String} {config : ι → HostConfig} {world : HostWorld ι β} {host : ι}

def ProjectLeaseConfig.path (lockPath : String → String → String) (lease : ProjectLeaseConfig) : String :=
  lockPath lease.runtimeDir lease.projectId

def ownLock (host : ι) (lease : ProjectLeaseConfig) : ProjectLock (LockHolder ι) :=
  ⟨some (.host host), some lease.ownerId⟩

def Started (world : HostWorld ι β) (host : ι) : Prop := ∃ report, world.hosts host = .started report

def Holds (lockPath : String → String → String) (config : ι → HostConfig) (world : HostWorld ι β)
    (host : ι) : Prop :=
  ∀ lease ∈ (config host).projectLease, world.locks (lease.path lockPath) = ownLock host lease

variable {surroundings : Surroundings} {durable : β} {fault : Option String} {report result : RecoveryReport}

omit [DecidableEq ι] in
theorem loadStep_unstarted :
    (loadStep backend (config host) surroundings durable).2.1 ≠ .started result := by
  unfold loadStep
  split
  · split
    · nofun
    · split <;> nofun
  · nofun

theorem reconcileStep_unstarted {entries : List RecoveryEntry} {recovery : OperationRecovery} {id : String}
    {remaining : List String} :
    (reconcileStep backend surroundings entries recovery report id remaining durable).2.1 ≠
      .started result := by
  unfold reconcileStep
  dsimp only
  split <;> nofun

theorem markStep_unstarted {entries : List RecoveryEntry} {recovery : OperationRecovery} {id : String}
    {remaining : List String} :
    (markStep backend entries recovery report id remaining durable).2.1 ≠ .started result := by
  unfold markStep
  split <;> nofun

omit [DecidableEq ι] in
/-- A lock is taken from nobody, under the owner's name. -/
theorem tryAcquire_eq_ok {lease : ProjectLeaseConfig} {lock taken : ProjectLock (LockHolder ι)}
    (acquired : tryAcquire lease lock (.host host) fault = .ok taken) :
    lock.holder = none ∧ taken = ownLock host lease := by
  obtain ⟨_, _, acquired⟩ := bind_eq_ok.mp acquired
  obtain ⟨_, _, acquired⟩ := bind_eq_ok.mp acquired
  cases fault with
  | some error => cases acquired
  | none =>
    cases free : lock.holder with
    | some holder =>
      rw [free] at acquired
      cases acquired
    | none =>
      rw [free] at acquired
      exact ⟨rfl, (Except.ok.inj acquired).symm⟩

theorem electStep_locks {path : String} {holder : LockHolder ι}
    (held : (world.locks path).holder = some holder) :
    (electStep lockPath config world host fault report).locks path = world.locks path := by
  unfold electStep
  split
  · rfl
  · dsimp only
    split
    · rfl
    · rename_i lease _ lock acquired
      refine Function.update_of_ne ?_ _ _
      rintro rfl
      rw [(tryAcquire_eq_ok acquired).1] at held
      cases held

/-- Only a holder that stops, or lets go of it, gives a lock away. -/
theorem worldStep_locks {path : String} (held : (world.locks path).holder = some (.host host))
    {action : WorldAction ι β} (goes : action ≠ .stop host) :
    (worldStep backend lockPath config world action).2.locks path = world.locks path := by
  cases action with
  | host host' surroundings =>
    rw [worldStep]
    unfold hostStep
    split
    · rfl
    · rfl
    · rfl
    · exact electStep_locks held
    · rfl
    · rfl
  | stop host' =>
    refine if_neg fun same => goes ?_
    rw [held] at same
    cases same
    rfl
  | durable change => rfl
  | acquire other owner =>
    rw [worldStep]
    split_ifs with free
    · refine Function.update_of_ne ?_ _ _
      rintro rfl
      rw [held] at free
      cases free
    · rfl
  | release other =>
    rw [worldStep]
    split_ifs with away
    · refine Function.update_of_ne ?_ _ _
      rintro rfl
      rw [held] at away
      cases away
    · rfl

theorem electStep_started
    (started : Started (electStep lockPath config world host fault report) host) :
    Holds lockPath config (electStep lockPath config world host fault report) host := by
  intro lease leased
  unfold electStep at started ⊢
  rw [Option.mem_def.mp leased] at started ⊢
  dsimp only at started ⊢
  split at started
  · obtain ⟨report, phase⟩ := started
    exact absurd ((Function.update_self _ _ _).symm.trans phase) nofun
  · rename_i lock acquired
    exact (Function.update_self _ _ _).trans (tryAcquire_eq_ok acquired).2

/-- A host gets to its start by its own election. -/
theorem hostStep_started
    (started : Started (hostStep backend lockPath config world host surroundings).2 host) :
    Started world host ∨
      Holds lockPath config (hostStep backend lockPath config world host surroundings).2 host := by
  unfold hostStep at started ⊢
  cases phase : world.hosts host with
  | ready =>
    simp only [phase, Started, Function.update_self] at started
    exact absurd started.choose_spec loadStep_unstarted
  | reconciling entries recovery report remaining =>
    cases remaining with
    | nil =>
      simp only [phase] at started ⊢
      exact .inr (electStep_started started)
    | cons operationId remaining =>
      simp only [phase, Started, Function.update_self] at started
      exact absurd started.choose_spec reconcileStep_unstarted
  | marking entries recovery report operationId remaining =>
    simp only [phase, Started, Function.update_self] at started
    exact absurd started.choose_spec markStep_unstarted
  | started report => exact .inl ⟨report, phase⟩
  | failed error =>
    simp only [phase, Started] at started
    cases started.choose_spec

theorem worldStep_started {action : WorldAction ι β}
    (started : Started (worldStep backend lockPath config world action).2 host) :
    Started world host ∨ Holds lockPath config (worldStep backend lockPath config world action).2 host := by
  cases action with
  | host host' surroundings =>
    by_cases same : host' = host
    · subst same
      exact hostStep_started started
    · have other := @hostStep_other _ _ _ backend lockPath config world host host' same surroundings
      rw [Started, worldStep, other.2] at started
      exact .inl started
  | stop host' => exact .inl started
  | durable change => exact .inl started
  | acquire path owner =>
    rw [worldStep] at started
    split_ifs at started <;> exact .inl started
  | release path =>
    rw [worldStep] at started
    split_ifs at started <;> exact .inl started

theorem started_holds (durable : β) (locks : String → ProjectLock (LockHolder ι))
    (actions : List (WorldAction ι β)) (serving : .stop host ∉ actions)
    (started : Started (final (worldStep backend lockPath config) (unstarted durable locks) actions) host) :
    Holds lockPath config (final (worldStep backend lockPath config) (unstarted durable locks) actions) host := by
  induction actions using List.reverseRecOn with
  | nil =>
    obtain ⟨report, phase⟩ := started
    cases phase
  | append_singleton actions action ih =>
    rw [List.mem_append, List.mem_singleton, not_or] at serving
    rw [final_append] at started ⊢
    rcases worldStep_started started with before | elected
    · intro lease leased
      have held := ih serving.1 before lease leased
      rw [final_cons, final_nil, worldStep_locks (congrArg ProjectLock.holder held) (Ne.symm serving.2), held]
    · exact elected

/-- At the end of a run, every host that has started and not stopped holds the lock of its project under
its own name, and no two of them have a lease on one lock. -/
theorem election_exclusive (backend : RecoveryBackend β) (lockPath : String → String → String)
    (config : ι → HostConfig) (durable : β) (locks : String → ProjectLock (LockHolder ι))
    (actions : List (WorldAction ι β)) (host : ι) (serving : .stop host ∉ actions)
    (started : Started (final (worldStep backend lockPath config) (unstarted durable locks) actions) host) :
    Holds lockPath config (final (worldStep backend lockPath config) (unstarted durable locks) actions) host ∧
      ∀ host', .stop host' ∉ actions →
        Started (final (worldStep backend lockPath config) (unstarted durable locks) actions) host' →
        ∀ lease ∈ (config host).projectLease, ∀ lease' ∈ (config host').projectLease,
          lease.path lockPath = lease'.path lockPath → host = host' := by
  refine ⟨started_holds durable locks actions serving started, ?_⟩
  intro host' serving' started' lease leased lease' leased' same
  have held := started_holds durable locks actions serving started lease leased
  have held' := started_holds durable locks actions serving' started' lease' leased'
  rw [same, held'] at held
  have holder := congrArg ProjectLock.holder held
  cases holder
  rfl

/-- The first host is elected; the second one comes too late. -/
def twoStarts : List (WorldAction Bool (List String)) :=
  List.replicate 4 (.host true ⟨0, 0, none⟩) ++ List.replicate 4 (.host false ⟨0, 0, none⟩)

theorem election_exclusive_twoStarts :
    Holds joinPath sameProject
      (final (worldStep oneInFlight joinPath sameProject) (unstarted [] freeLock) twoStarts) true := by
  refine (election_exclusive oneInFlight joinPath sameProject [] freeLock twoStarts true ?_ ?_).1
  · simp [twoStarts]
  · exact ⟨_, rfl⟩

end Boreal.Service
