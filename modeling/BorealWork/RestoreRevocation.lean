/- A restore revokes the past where nothing is without its identity row: what each call writes, what
stays revoked, and the runs of the lineage. -/
import BorealWork.DatabaseLineage
import BorealWork.MutationOutcomes

namespace Boreal.Store.Lineage
open Drain Inserts Machines

variable {authority : Authority} {store store' : LineageStore}

/-- The keys of the tables that the identity seam reads. -/
structure Sound (store : LineageStore) : Prop where
  works : (store.rows.workItems.map WorkScope.workId).Nodup
  attempts : (store.rows.attempts.map AttemptRow.attemptId).Nodup
  owned : ∀ attempt ∈ store.rows.attempts, attempt.workId ∈ store.rows.workItems.map WorkScope.workId

def FenceOf (projectId attemptId : String) (fence : ℕ) (row : FenceIdentityRow) : Prop :=
  row.projectId = projectId ∧ row.attemptId = attemptId ∧ row.fence = fence

/-- An attempt that takes no heartbeat: it is over, or all its fence identities are revoked. -/
structure FenceBarred (attemptId : String) (fence : ℕ) (store : LineageStore) : Prop where
  attempt : ∃ row ∈ store.rows.attempts, row.attemptId = attemptId ∧ (row.current = false ∨
    ∃ projectId, ⟨row.workId, projectId⟩ ∈ store.rows.workItems ∧
      Occupied (FenceOf projectId attemptId fence) (fun fence => fence.revoked = true) store.rows.fences)

def OperationBarred (operationId : String) (store : LineageStore) : Prop :=
  Occupied (fun row : OperationIdentityRow => row.operationId = operationId)
    (fun row => row.invalidated = true) store.operationIdentities

theorem lift_eq_ok {α : Type} {result : Except IdentityError α} {a : α} :
    lift result = .ok a ↔ result = .ok a := mapError_eq_ok

theorem liftStore_eq_ok {α : Type} {result : Except StoreError α} {a : α} :
    liftStore result = .ok a ↔ result = .ok a := mapError_eq_ok

theorem bindProject_writes {projectId now : String} {binding : WorkspaceBinding} {context : IdentityContext}
    (done : bindProject authority store projectId binding now = .ok (context, store')) :
    ∃ projects, store' = { store with rows := { store.rows with projects := projects } } := by
  obtain ⟨_, _, done⟩ := bind_eq_ok.mp done
  obtain ⟨_, _, done⟩ := bind_eq_ok.mp done
  obtain ⟨_, _, done⟩ := bind_eq_ok.mp done
  obtain ⟨database, _, done⟩ := bind_eq_ok.mp done
  dsimp only at done
  split at done
  · obtain ⟨_, _, done⟩ := bind_eq_ok.mp done
    cases done
    exact ⟨store.rows.projects, rfl⟩
  · cases done
    exact ⟨_, rfl⟩

theorem createAttempt_writes {attempt : AttemptRow} (done : createAttempt store attempt = .ok store') :
    attempt.attemptId ∉ store.rows.attempts.map AttemptRow.attemptId ∧
      attempt.workId ∈ store.rows.workItems.map WorkScope.workId ∧
      store' = { store with rows := { store.rows with attempts := store.rows.attempts ++ [attempt] } } := by
  obtain ⟨_, _, done⟩ := bind_eq_ok.mp done
  obtain ⟨_, fresh, done⟩ := bind_eq_ok.mp done
  obtain ⟨_, _, done⟩ := bind_eq_ok.mp done
  obtain ⟨_, _, done⟩ := bind_eq_ok.mp done
  obtain ⟨_, owned, done⟩ := bind_eq_ok.mp done
  refine ⟨refuse_eq_ok.mp (liftStore_eq_ok.mp fresh), ?_, (Except.ok.inj done).symm⟩
  exact not_not.mp (refuse_eq_ok.mp (liftStore_eq_ok.mp owned))

theorem ensureWorkScope_eq_ok {context : IdentityContext} {workId : String} {u : Unit}
    (done : ensureWorkScope store context workId = .ok u) :
    ⟨workId, context.projectId⟩ ∈ store.rows.workItems := by
  obtain ⟨_, _, done⟩ := bind_eq_ok.mp done
  split at done
  · cases done
  · rename_i row found
    have here := List.find?_some found
    have named : row.workId = workId := of_decide_eq_true here
    have own : row.projectId = context.projectId := not_not.mp (refuse_eq_ok.mp done)
    have same : row = ⟨workId, context.projectId⟩ := by
      obtain ⟨work, project⟩ := row
      dsimp only at named own
      rw [named, own]
    exact same ▸ List.mem_of_find?_eq_some found

theorem attemptSubject_eq_ok {context : IdentityContext} {workId attemptId : String} {row : AttemptRow}
    (done : attemptSubject store context workId attemptId = .ok row) :
    row ∈ store.rows.attempts ∧ row.attemptId = attemptId ∧ row.workId = workId := by
  obtain ⟨_, _, done⟩ := bind_eq_ok.mp done
  split at done
  · cases done
  · rename_i found
    obtain ⟨_, _, done⟩ := bind_eq_ok.mp done
    cases done
    have here := List.find?_some found
    have named := of_decide_eq_true here
    exact ⟨List.mem_of_find?_eq_some found, named.1, named.2.1⟩

theorem recordAttemptFence_writes {context : IdentityContext} {workId attemptId now : String} {fence : ℕ}
    (done : recordAttemptFence authority store context workId attemptId fence now = .ok store') :
    ∃ row, store' = insertFence store row := by
  obtain ⟨_, _, done⟩ := bind_eq_ok.mp done
  obtain ⟨_, _, done⟩ := bind_eq_ok.mp done
  obtain ⟨_, _, done⟩ := bind_eq_ok.mp done
  obtain ⟨_, _, done⟩ := bind_eq_ok.mp done
  obtain ⟨_, _, done⟩ := bind_eq_ok.mp done
  obtain ⟨_, _, done⟩ := bind_eq_ok.mp done
  cases done
  exact ⟨_, rfl⟩

structure Beats (store : LineageStore) (context : IdentityContext) (workId attemptId : String)
    (fence : ℕ) (at_ : String) (store' : LineageStore) : Prop where
  scope : ⟨workId, context.projectId⟩ ∈ store.rows.workItems
  attempt : ∃ row ∈ store.rows.attempts, row.attemptId = attemptId ∧ row.workId = workId ∧
    row.current = true
  identity : ∃ row ∈ store.rows.fences, FenceOf context.projectId attemptId fence row ∧
    row.revoked = false
  written : store' = { store with rows := { store.rows with
    attempts := store.rows.attempts.map fun row =>
      if row.attemptId = attemptId ∧ row.workId = workId ∧ row.fence = fence ∧ row.current then
        { row with lastHeartbeatAt := some at_ }
      else row } }

theorem heartbeat_eq_ok {context : IdentityContext} {workId attemptId at_ : String} {fence : ℕ}
    (done : heartbeat authority store context workId attemptId fence at_ = .ok store') :
    Beats store context workId attemptId fence at_ store' := by
  obtain ⟨_, _, done⟩ := bind_eq_ok.mp done
  obtain ⟨_, _, done⟩ := bind_eq_ok.mp done
  obtain ⟨_, scope, done⟩ := bind_eq_ok.mp done
  obtain ⟨row, subject, done⟩ := bind_eq_ok.mp done
  obtain ⟨_, _, done⟩ := bind_eq_ok.mp done
  obtain ⟨_, identity, done⟩ := bind_eq_ok.mp done
  obtain ⟨_, current, done⟩ := bind_eq_ok.mp done
  cases done
  obtain ⟨member, named, work⟩ := attemptSubject_eq_ok subject
  have still : row.current = true := Bool.not_eq_false _ ▸ refuse_eq_ok.mp current
  refine ⟨ensureWorkScope_eq_ok scope, ⟨row, member, named, work, still⟩, ?_, rfl⟩
  unfold verifyFenceIdentity at identity
  split at identity
  · cases identity
  · rename_i found
    have here := List.find?_some found
    have keys := of_decide_eq_true here
    have valid := refuse_eq_ok.mp identity
    rw [not_or] at valid
    exact ⟨_, List.mem_of_find?_eq_some found, ⟨keys.1, keys.2.2.1, keys.2.2.2⟩,
      Bool.not_eq_true _ ▸ valid.2⟩

theorem recordOperationContext_writes {ρ : Type} {store store' : SqliteStore ρ}
    {context : IdentityContext} {operationId : String}
    (done : recordOperationContext authority store context operationId = .ok store') :
    store' = store ∨ (∀ row ∈ store.operationIdentities, row.operationId ≠ operationId) ∧
      ∃ row : OperationIdentityRow, row.operationId = operationId ∧
        store' = { store with operationIdentities := store.operationIdentities ++ [row] } := by
  obtain ⟨_, _, done⟩ := bind_eq_ok.mp done
  obtain ⟨_, _, done⟩ := bind_eq_ok.mp done
  split at done
  · cases done
  · obtain ⟨_, _, done⟩ := bind_eq_ok.mp done
    split at done
    · obtain ⟨_, _, done⟩ := bind_eq_ok.mp done
      obtain ⟨_, _, done⟩ := bind_eq_ok.mp done
      obtain ⟨_, _, done⟩ := bind_eq_ok.mp done
      exact .inl (Except.ok.inj done).symm
    · rename_i missing
      refine .inr ⟨fun row member same => ?_, _, rfl, (Except.ok.inj done).symm⟩
      exact absurd (decide_eq_true same) (by simpa using List.find?_eq_none.mp missing row member)

/-- What the calls about operations write: an operation, and an identity for one that had none. -/
structure OperationsKept (store store' : LineageStore) : Prop where
  rows : store'.rows = store.rows
  identities : store'.operationIdentities = store.operationIdentities ∨
    ∃ row : OperationIdentityRow, (∀ other ∈ store.operationIdentities, other.operationId ≠ row.operationId) ∧
      store'.operationIdentities = store.operationIdentities ++ [row]

theorem recordOperationContext_kept {context : IdentityContext} {operationId : String}
    (done : recordOperationContext authority store context operationId = .ok store') :
    OperationsKept store store' := by
  rcases recordOperationContext_writes done with rfl | ⟨fresh, row, named, rfl⟩
  · exact ⟨rfl, .inl rfl⟩
  · exact ⟨rfl, .inr ⟨row, named.symm ▸ fresh, rfl⟩⟩

theorem appendOperation_kept {operation : OperationRecord}
    (done : appendOperation authority store operation = .ok store') : OperationsKept store store' := by
  obtain ⟨context, _, done⟩ := bind_eq_ok.mp done
  obtain ⟨inserted, insertion, done⟩ := bind_eq_ok.mp done
  obtain ⟨_, _, rfl⟩ := insertOperation_eq_ok insertion
  cases context with
  | none =>
    cases done
    exact ⟨rfl, .inl rfl⟩
  | some context =>
    have kept := recordOperationContext_kept (mapError_eq_ok.mp done)
    exact ⟨kept.rows, kept.identities⟩

theorem install_keeps {P : LineageStore → Prop} {database : DatabaseIdentity} {now : String}
    {report : IdentityMigrationReport}
    (identity : ∀ s d, P s → P { s with rows := { s.rows with database := d } })
    (entities : ∀ s rows, P s → P { s with rows := { s.rows with entityRevisions := rows } })
    (fences : ∀ s row, P s → P (insertFence s row))
    (operations : ∀ s row, P s → P { s with
      operationIdentities := insertOrIgnore operationClashes s.operationIdentities row })
    (done : install store database now = .ok (report, store')) (start : P store) : P store' := by
  obtain ⟨_, _, done⟩ := bind_eq_ok.mp done
  obtain ⟨identified, ensured, done⟩ := bind_eq_ok.mp done
  have first : P identified := by
    unfold ensureDatabaseIdentity at ensured
    split at ensured
    · obtain ⟨_, _, ensured⟩ := bind_eq_ok.mp ensured
      cases ensured
      exact start
    · obtain ⟨_, _, ensured⟩ := bind_eq_ok.mp ensured
      cases ensured
      exact identity store _ start
  have second : P (migrateEntityRevisions identified).2 := by
    have start : P ((0, identified) : ℕ × LineageStore).2 := first
    refine List.foldlRecOn (motive := fun state => P state.2) identified.rows.workItems migrateEntity
      start fun state good work _ => ?_
    unfold migrateEntity
    split
    · exact good
    · exact entities _ _ good
  dsimp only at done
  obtain ⟨⟨filled, fenced⟩, migrated, done⟩ := bind_eq_ok.mp done
  have third : P fenced := by
    have each : ∀ (attempts : List AttemptRow) (state state' : ℕ × LineageStore), P state.2 →
        attempts.foldlM (migrateFence database) state = .ok state' → P state'.2 := by
      intro attempts
      induction attempts with
      | nil =>
        intro state state' good last
        cases last
        exact good
      | cons attempt rest ih =>
        intro state state' good more
        rw [List.foldlM_cons] at more
        obtain ⟨next, step, more⟩ := bind_eq_ok.mp more
        refine ih next state' ?_ more
        unfold migrateFence at step
        split at step
        · cases step
          exact good
        · obtain ⟨_, _, step⟩ := bind_eq_ok.mp step
          cases step
          exact fences _ _ good
    exact each _ (0, (migrateEntityRevisions identified).2) (filled, fenced) second migrated
  cases done
  have last : P (((0, 0), fenced) : (ℕ × ℕ) × LineageStore).2 := third
  exact List.foldlRecOn (motive := fun state => P state.2) fenced.operations (migrateOperation database)
    last fun state good _ _ => operations _ _ good

theorem restore_writes {databaseInstanceId now : String} {restoreEpoch : ℕ} {result : RestoreResult}
    (done : restore authority store databaseInstanceId restoreEpoch now = .ok (result, store')) :
    ∃ previous current : DatabaseIdentity, store.rows.database = some previous ∧
      current.restoreEpoch = restoreEpoch ∧ previous.restoreEpoch < restoreEpoch ∧
      store' = { store with
        operationIdentities := store.operationIdentities.map (restoredOperation current)
        rows := { store.rows with
          database := some current
          projects := store.rows.projects.map fun row => { row with database := current }
          fences := store.rows.fences.map (restoredFence current) } } := by
  obtain ⟨_, _, done⟩ := bind_eq_ok.mp done
  obtain ⟨current, requested, done⟩ := bind_eq_ok.mp done
  obtain ⟨previous, known, done⟩ := bind_eq_ok.mp done
  obtain ⟨_, larger, done⟩ := bind_eq_ok.mp done
  obtain ⟨_, _, done⟩ := bind_eq_ok.mp done
  cases done
  have epoch : current.restoreEpoch = restoreEpoch := by
    obtain ⟨_, _, requested⟩ := bind_eq_ok.mp (lift_eq_ok.mp requested)
    obtain ⟨_, _, requested⟩ := bind_eq_ok.mp requested
    cases requested
    rfl
  refine ⟨previous, current, ?_, epoch, ?_, rfl⟩
  · have stored := lift_eq_ok.mp known
    unfold databaseIdentity at stored
    split at stored
    · cases stored
    · rename_i found
      cases stored
      exact found
  · have bigger := refuse_eq_ok.mp larger
    rw [epoch] at bigger
    exact not_le.mp bigger

/-- What a call that succeeds has written. -/
inductive Writes (authority : Authority) (store : LineageStore) : LineageCall → LineageStore → Prop
  | attempt {attempt} : attempt.attemptId ∉ store.rows.attempts.map AttemptRow.attemptId →
      attempt.workId ∈ store.rows.workItems.map WorkScope.workId →
      Writes authority store (.createAttempt attempt)
        { store with rows := { store.rows with attempts := store.rows.attempts ++ [attempt] } }
  | fence {context workId attemptId fence now} (row : FenceIdentityRow) :
      Writes authority store (.recordAttemptFence context workId attemptId fence now)
        (insertFence store row)
  | beat {context workId attemptId fence at_ store'} :
      Beats store context workId attemptId fence at_ store' →
      Writes authority store (.heartbeat context workId attemptId fence at_) store'
  | appended {operation store'} : OperationsKept store store' →
      Writes authority store (.appendOperation operation) store'
  | recorded {context operationId store'} : OperationsKept store store' →
      Writes authority store (.recordOperationContext context operationId) store'
  | read {context operationId} : Writes authority store (.operation context operationId) store
  | bound {projectId binding now} (projects : List BoundProject) :
      Writes authority store (.bindProject projectId binding now)
        { store with rows := { store.rows with projects := projects } }
  | installed {databaseInstanceId restoreEpoch now database report store'} :
      install store database now = .ok (report, store') →
      Writes authority store (.install databaseInstanceId restoreEpoch now) store'
  | restored {databaseInstanceId restoreEpoch now result store'} :
      restore authority store databaseInstanceId restoreEpoch now = .ok (result, store') →
      Writes authority store (.restore databaseInstanceId restoreEpoch now) store'

theorem answer_writes {call : LineageCall} {result : LineageAnswer}
    (done : answer authority store call = .ok (result, store')) : Writes authority store call store' := by
  cases call with
  | createAttempt attempt =>
    obtain ⟨_, created, done⟩ := bind_eq_ok.mp done
    cases done
    obtain ⟨fresh, owned, rfl⟩ := createAttempt_writes created
    exact .attempt fresh owned
  | recordAttemptFence context workId attemptId fence now =>
    obtain ⟨_, recorded, done⟩ := bind_eq_ok.mp done
    cases done
    obtain ⟨row, rfl⟩ := recordAttemptFence_writes recorded
    exact .fence row
  | heartbeat context workId attemptId fence at_ =>
    obtain ⟨_, beat, done⟩ := bind_eq_ok.mp done
    cases done
    exact .beat (heartbeat_eq_ok beat)
  | appendOperation operation =>
    obtain ⟨_, appended, done⟩ := bind_eq_ok.mp done
    cases done
    exact .appended (appendOperation_kept (liftStore_eq_ok.mp appended))
  | recordOperationContext context operationId =>
    obtain ⟨_, recorded, done⟩ := bind_eq_ok.mp done
    cases done
    exact .recorded (recordOperationContext_kept (lift_eq_ok.mp recorded))
  | operation context operationId =>
    obtain ⟨_, _, done⟩ := bind_eq_ok.mp done
    cases done
    exact .read
  | bindProject projectId binding now =>
    obtain ⟨⟨context, after⟩, bound, done⟩ := bind_eq_ok.mp done
    cases done
    obtain ⟨projects, rfl⟩ := bindProject_writes bound
    exact .bound projects
  | install databaseInstanceId restoreEpoch now =>
    obtain ⟨database, _, done⟩ := bind_eq_ok.mp done
    obtain ⟨⟨report, after⟩, installed, done⟩ := bind_eq_ok.mp done
    cases done
    exact .installed installed
  | restore databaseInstanceId restoreEpoch now =>
    obtain ⟨⟨result, after⟩, restored, done⟩ := bind_eq_ok.mp done
    cases done
    exact .restored restored

theorem perform_keeps {P : LineageStore → Prop} {call : LineageCall}
    (kept : ∀ after, Writes authority store call after → P after) (start : P store) :
    P (perform authority store call).2 := by
  unfold perform
  split
  · rename_i done
    exact kept _ (answer_writes done)
  · exact start

theorem Sound.kept (sound : Sound store) (call : LineageCall) : Sound (perform authority store call).2 := by
  refine perform_keeps (fun after writes => ?_) sound
  cases writes with
  | attempt fresh owned =>
    refine ⟨sound.works, ?_, ?_⟩
    · rw [List.map_append, List.nodup_append]
      refine ⟨sound.attempts, List.nodup_singleton _, fun id old new new' same => ?_⟩
      rw [same, List.mem_singleton.mp new'] at old
      exact fresh old
    · exact List.forall_mem_append.mpr ⟨sound.owned, List.forall_mem_singleton.mpr owned⟩
  | fence row => exact ⟨sound.works, sound.attempts, sound.owned⟩
  | beat beats =>
    rw [beats.written]
    refine ⟨sound.works, ?_, ?_⟩
    · rw [List.map_map, List.map_congr_left fun row _ => ?_]
      · exact sound.attempts
      · simp only [Function.comp_apply]
        split <;> rfl
    · refine List.forall_mem_map.mpr fun row member => ?_
      have owned := sound.owned row member
      split
      · exact owned
      · exact owned
  | appended kept | recorded kept => exact ⟨kept.rows ▸ sound.works, kept.rows ▸ sound.attempts, kept.rows ▸ sound.owned⟩
  | read => exact sound
  | bound projects => exact ⟨sound.works, sound.attempts, sound.owned⟩
  | installed done =>
    exact install_keeps (fun _ _ good => ⟨good.works, good.attempts, good.owned⟩)
      (fun _ _ good => ⟨good.works, good.attempts, good.owned⟩)
      (fun _ _ good => ⟨good.works, good.attempts, good.owned⟩)
      (fun _ _ good => ⟨good.works, good.attempts, good.owned⟩) done sound
  | restored done =>
    obtain ⟨_, _, _, _, _, rfl⟩ := restore_writes done
    exact ⟨sound.works, sound.attempts, sound.owned⟩

theorem fenceClashes_of_fenceOf {projectId attemptId : String} {fence : ℕ} {row present : FenceIdentityRow}
    (here : FenceOf projectId attemptId fence present) (same : FenceOf projectId attemptId fence row) :
    fenceClashes row present = true := by
  obtain ⟨rfl, rfl, rfl⟩ := same
  exact decide_eq_true (.inl here)

theorem FenceBarred.kept {attemptId : String} {fence : ℕ} (barred : FenceBarred attemptId fence store)
    (call : LineageCall) : FenceBarred attemptId fence (perform authority store call).2 := by
  have inserted (s : LineageStore) (row : FenceIdentityRow) (barred : FenceBarred attemptId fence s) :
      FenceBarred attemptId fence (insertFence s row) := by
    obtain ⟨attempt, member, named, ended | ⟨projectId, scope, occupied⟩⟩ := barred.attempt
    · exact ⟨attempt, member, named, .inl ended⟩
    · exact ⟨attempt, member, named, .inr ⟨projectId, scope,
        occupied.insert fun _ here same => fenceClashes_of_fenceOf here same⟩⟩
  refine perform_keeps (fun after writes => ?_) barred
  obtain ⟨attempt, member, named, state⟩ := barred.attempt
  cases writes with
  | attempt _ _ => exact ⟨attempt, List.mem_append_left _ member, named, state⟩
  | fence row => exact inserted store row barred
  | beat beats =>
    rw [beats.written]
    refine ⟨_, List.mem_map_of_mem member, ?_, ?_⟩
    · split
      · exact named
      · exact named
    · split
      · exact state
      · exact state
  | appended kept | recorded kept =>
    have same := kept.rows
    exact ⟨attempt, same ▸ member, named, same ▸ state⟩
  | read => exact barred
  | bound projects => exact ⟨attempt, member, named, state⟩
  | installed done =>
    exact install_keeps (fun _ _ good => ⟨good.attempt⟩) (fun _ _ good => ⟨good.attempt⟩) inserted
      (fun _ _ good => ⟨good.attempt⟩) done barred
  | restored done =>
    obtain ⟨_, current, _, _, _, rfl⟩ := restore_writes done
    refine ⟨attempt, member, named, state.imp_right fun ⟨projectId, scope, occupied⟩ => ?_⟩
    refine ⟨projectId, scope, occupied.map (fun row => ?_) fun row revoked => ?_⟩
    · unfold restoredFence
      split
      · rfl
      · rfl
    · rw [restoredFence, if_pos revoked]
      exact revoked

theorem OperationBarred.kept {operationId : String} (barred : OperationBarred operationId store)
    (call : LineageCall) : OperationBarred operationId (perform authority store call).2 := by
  refine perform_keeps (P := OperationBarred operationId) (fun after writes => ?_) barred
  cases writes with
  | attempt _ _ => exact barred
  | fence row => exact barred
  | beat beats =>
    rw [beats.written]
    exact barred
  | appended kept | recorded kept =>
    rcases kept.identities with same | ⟨row, fresh, longer⟩
    · rw [OperationBarred, same]
      exact barred
    · obtain ⟨present, member, here⟩ := barred.present
      refine ⟨⟨present, longer ▸ List.mem_append_left _ member, here⟩, ?_⟩
      rw [longer]
      refine List.forall_mem_append.mpr ⟨barred.all, List.forall_mem_singleton.mpr fun same => ?_⟩
      exact absurd (here.trans same.symm) (fresh present member)
  | read => exact barred
  | bound projects => exact barred
  | installed done =>
    refine install_keeps (P := OperationBarred operationId) (fun _ _ good => good)
      (fun _ _ good => good) (fun _ _ good => good) (fun s row good => ?_) done barred
    exact good.insert fun present here same => decide_eq_true (here.trans same.symm)
  | restored done =>
    obtain ⟨_, current, _, _, _, rfl⟩ := restore_writes done
    refine barred.map (fun row => ?_) fun row invalidated => ?_
    · unfold restoredOperation
      split
      · rfl
      · rfl
    · rw [restoredOperation, if_pos invalidated]
      exact invalidated

theorem FenceBarred.refuses {attemptId : String} {fence : ℕ} (barred : FenceBarred attemptId fence store)
    (sound : Sound store) (context : IdentityContext) (workId at_ : String) :
    ∃ error, heartbeat authority store context workId attemptId fence at_ = .error error := by
  cases beat : heartbeat authority store context workId attemptId fence at_ with
  | error error => exact ⟨error, rfl⟩
  | ok after =>
    exfalso
    have beats := heartbeat_eq_ok beat
    obtain ⟨row, member, named, work, current⟩ := beats.attempt
    obtain ⟨attempt, listed, own, state⟩ := barred.attempt
    have same : row = attempt :=
      List.inj_on_of_nodup_map sound.attempts member listed (named.trans own.symm)
    subst same
    rcases state with ended | ⟨projectId, scope, occupied⟩
    · rw [current] at ended
      cases ended
    · have project : (⟨row.workId, projectId⟩ : WorkScope) = ⟨workId, context.projectId⟩ :=
        List.inj_on_of_nodup_map sound.works scope beats.scope work
      obtain ⟨_, rfl⟩ := WorkScope.mk.inj project
      obtain ⟨identity, present, keys, valid⟩ := beats.identity
      have revoked := occupied.all identity present keys
      rw [valid] at revoked
      cases revoked

theorem OperationBarred.refuses {operationId : String} (barred : OperationBarred operationId store)
    (authority' : Authority) (context : IdentityContext) :
    ∃ error, identityOperation authority' store context operationId = .error error := by
  cases read : identityOperation authority' store context operationId with
  | error error => exact ⟨error, rfl⟩
  | ok found =>
    exfalso
    obtain ⟨_, _, read⟩ := bind_eq_ok.mp read
    obtain ⟨_, _, read⟩ := bind_eq_ok.mp read
    obtain ⟨present, member, here⟩ := barred.present
    split at read
    · rename_i missing
      exact absurd (decide_eq_true here) (by simpa using List.find?_eq_none.mp missing present member)
    · rename_i row found
      obtain ⟨_, _, read⟩ := bind_eq_ok.mp read
      obtain ⟨_, _, read⟩ := bind_eq_ok.mp read
      obtain ⟨_, valid, read⟩ := bind_eq_ok.mp read
      have named := List.find?_some found
      have invalidated := barred.all row (List.mem_of_find?_eq_some found) (of_decide_eq_true named)
      exact absurd invalidated (refuse_eq_ok.mp valid)

section Coverage

structure Covered (store : LineageStore) : Prop where
  fences : ∀ attempt ∈ store.rows.attempts, attempt.current = true →
    ∀ work ∈ store.rows.workItems, work.workId = attempt.workId →
      ∃ row ∈ store.rows.fences, FenceOf work.projectId attempt.attemptId attempt.fence row
  operations : ∀ operation ∈ store.operations,
    ∃ row ∈ store.operationIdentities, row.operationId = operation.operationId

variable {databaseInstanceId now : String} {restoreEpoch : ℕ} {result : RestoreResult}

theorem Covered.fenceBarred (covered : Covered store) (sound : Sound store)
    (done : restore authority store databaseInstanceId restoreEpoch now = .ok (result, store'))
    {attempt : AttemptRow} (member : attempt ∈ store.rows.attempts) :
    FenceBarred attempt.attemptId attempt.fence store' := by
  obtain ⟨_, current, _, _, _, rfl⟩ := restore_writes done
  refine ⟨attempt, member, rfl, ?_⟩
  cases state : attempt.current with
  | false => exact .inl rfl
  | true =>
    obtain ⟨work, listed, named⟩ := List.mem_map.mp (sound.owned attempt member)
    obtain ⟨row, present, keys⟩ := covered.fences attempt member state work listed named
    refine .inr ⟨work.projectId, named ▸ listed, ⟨_, List.mem_map_of_mem present, ?_⟩, ?_⟩
    · unfold restoredFence
      split
      · exact keys
      · exact keys
    · refine List.forall_mem_map.mpr fun row _ _ => ?_
      unfold restoredFence
      split
      · rename_i revoked
        exact revoked
      · rfl

theorem Covered.operationBarred (covered : Covered store)
    (done : restore authority store databaseInstanceId restoreEpoch now = .ok (result, store'))
    {operation : OperationRecord} (member : operation ∈ store.operations) :
    OperationBarred operation.operationId store' := by
  obtain ⟨_, current, _, _, _, rfl⟩ := restore_writes done
  obtain ⟨row, present, named⟩ := covered.operations operation member
  refine ⟨⟨_, List.mem_map_of_mem present, ?_⟩, ?_⟩
  · unfold restoredOperation
    split
    · exact named
    · exact named
  · refine List.forall_mem_map.mpr fun row _ _ => ?_
    unfold restoredOperation
    split
    · rename_i invalidated
      exact invalidated
    · rfl

end Coverage

abbrev LineageEntry := Entry LineageStore LineageCall (Except LineageError LineageAnswer)

def Restores (entry : LineageEntry) : Prop :=
  ∃ databaseInstanceId restoreEpoch now, entry.call = .restore databaseInstanceId restoreEpoch now ∧
    ∀ database ∈ entry.before.rows.database, database.restoreEpoch < restoreEpoch

structure RevokesThePast (authority : Authority) (store : LineageStore) (calls : List LineageCall) :
    Prop where
  /-- A restore that succeeds raises the epoch. -/
  advances : ∀ entry ∈ history (perform authority) store calls, ∀ databaseInstanceId restoreEpoch now,
    entry.call = .restore databaseInstanceId restoreEpoch now → ∀ result, entry.answer = .ok result →
      ∃ previous current, entry.before.rows.database = some previous ∧
        (entry.after (perform authority)).rows.database = some current ∧
        previous.restoreEpoch < current.restoreEpoch
  /-- A restore to an epoch that is not larger fails, and changes nothing. -/
  refuses : ∀ entry ∈ history (perform authority) store calls, ∀ databaseInstanceId restoreEpoch now,
    entry.call = .restore databaseInstanceId restoreEpoch now →
    ∀ database ∈ entry.before.rows.database, restoreEpoch ≤ database.restoreEpoch →
      entry.answer.isOk = false ∧ entry.after (perform authority) = entry.before
  /-- After a restore no heartbeat succeeds for an attempt and fence from before it. -/
  fences : ∀ earlier databaseInstanceId restoreEpoch now later,
    calls = earlier ++ .restore databaseInstanceId restoreEpoch now :: later →
    (perform authority (final (perform authority) store earlier)
      (.restore databaseInstanceId restoreEpoch now)).1.isOk = true →
    ∀ entry ∈ history (perform authority)
        (perform authority (final (perform authority) store earlier)
          (.restore databaseInstanceId restoreEpoch now)).2 later,
      ∀ attempt ∈ (final (perform authority) store earlier).rows.attempts, ∀ context workId at_,
        entry.call = .heartbeat context workId attempt.attemptId attempt.fence at_ →
        entry.answer.isOk = false
  /-- And no operation from before it is read back, in any context. -/
  operations : ∀ earlier databaseInstanceId restoreEpoch now later,
    calls = earlier ++ .restore databaseInstanceId restoreEpoch now :: later →
    (perform authority (final (perform authority) store earlier)
      (.restore databaseInstanceId restoreEpoch now)).1.isOk = true →
    ∀ entry ∈ history (perform authority)
        (perform authority (final (perform authority) store earlier)
          (.restore databaseInstanceId restoreEpoch now)).2 later,
      ∀ operation ∈ (final (perform authority) store earlier).operations, ∀ context,
        entry.call = .operation context operation.operationId →
        ∀ found, entry.answer = .ok (.readback (some found)) → found.operation = none

theorem perform_of_error {call : LineageCall} {error : LineageError}
    (failed : answer authority store call = .error error) :
    perform authority store call = (.error error, store) := by
  rw [perform, failed]

theorem perform_isOk {call : LineageCall} (succeeded : (perform authority store call).1.isOk = true) :
    ∃ result, answer authority store call = .ok (result, (perform authority store call).2) := by
  unfold perform at succeeded ⊢
  split at succeeded
  · rename_i result after done
    exact ⟨result, done⟩
  · cases succeeded

theorem answer_restore {databaseInstanceId now : String} {restoreEpoch : ℕ} {result : LineageAnswer}
    (done : answer authority store (.restore databaseInstanceId restoreEpoch now) = .ok (result, store')) :
    ∃ result, restore authority store databaseInstanceId restoreEpoch now = .ok (result, store') := by
  obtain ⟨⟨result, after⟩, restored, done⟩ := bind_eq_ok.mp done
  cases done
  exact ⟨result, restored⟩

theorem restore_in_history {calls earlier later : List LineageCall} {databaseInstanceId now : String}
    {restoreEpoch : ℕ} {result : RestoreResult}
    (split : calls = earlier ++ .restore databaseInstanceId restoreEpoch now :: later)
    (done : restore authority (final (perform authority) store earlier) databaseInstanceId restoreEpoch
      now = .ok (result, store')) :
    ∃ entry ∈ history (perform authority) store calls, Restores entry ∧
      entry.before = final (perform authority) store earlier := by
  refine ⟨_, mem_history.mpr ⟨earlier, _, later, split, rfl⟩, ⟨_, _, _, rfl, ?_⟩, rfl⟩
  obtain ⟨previous, _, stored, _, larger, _⟩ := restore_writes done
  intro database known
  have same : some previous = some database := stored.symm.trans known
  exact Option.some.inj same ▸ larger

/-- In a run whose restores meet no attempt and no operation without its identity row, the past is
revoked by each of them. -/
theorem restores_revoke (sound : Sound store) {calls : List LineageCall}
    (covered : ∀ entry ∈ history (perform authority) store calls, Restores entry → Covered entry.before) :
    RevokesThePast authority store calls := by
  constructor
  case advances =>
    intro entry member databaseInstanceId restoreEpoch now asked result succeeded
    obtain ⟨earlier, call, later, _, rfl⟩ := mem_history.mp member
    dsimp only [Machines.entry] at asked succeeded
    subst asked
    obtain ⟨_, done⟩ := perform_isOk (by rw [succeeded]; rfl)
    obtain ⟨_, restored⟩ := answer_restore done
    obtain ⟨previous, current, stored, epoch, larger, after⟩ := restore_writes restored
    refine ⟨previous, current, stored, ?_, epoch ▸ larger⟩
    exact congrArg (fun store : LineageStore => store.rows.database) after
  case refuses =>
    intro entry member databaseInstanceId restoreEpoch now asked database known small
    obtain ⟨earlier, call, later, _, rfl⟩ := mem_history.mp member
    dsimp only [Machines.entry, Entry.after] at asked known ⊢
    subst asked
    cases outcome : answer authority (final (perform authority) store earlier)
        (.restore databaseInstanceId restoreEpoch now) with
    | error error =>
      rw [perform_of_error outcome]
      exact ⟨rfl, rfl⟩
    | ok pair =>
      obtain ⟨_, restored⟩ := answer_restore outcome
      obtain ⟨previous, _, stored, _, larger, _⟩ := restore_writes restored
      have same : some previous = some database := stored.symm.trans known
      rw [Option.some.inj same] at larger
      omega
  case fences =>
    intro earlier databaseInstanceId restoreEpoch now later split succeeded entry member attempt old
      context workId at_ asked
    obtain ⟨_, done⟩ := perform_isOk succeeded
    obtain ⟨_, restored⟩ := answer_restore done
    have reached : Sound (final (perform authority) store earlier) :=
      final_invariant (fun _ call sound => sound.kept call) sound earlier
    obtain ⟨first, inside, restores, met⟩ := restore_in_history split restored
    have barred := (met ▸ covered first inside restores).fenceBarred reached restored old
    obtain ⟨⟨still, good⟩, answered⟩ := history_invariant
      (P := fun s => Sound s ∧ FenceBarred attempt.attemptId attempt.fence s)
      (fun _ call both => ⟨both.1.kept call, both.2.kept call⟩)
      ⟨reached.kept _, barred⟩ member
    obtain ⟨error, refused⟩ := good.refuses still context workId at_
    have failed : answer authority entry.before entry.call = .error error := by
      rw [asked, answer, refused]
      rfl
    rw [answered, perform_of_error failed]
    rfl
  case operations =>
    intro earlier databaseInstanceId restoreEpoch now later split succeeded entry member operation old
      context asked found read
    obtain ⟨_, done⟩ := perform_isOk succeeded
    obtain ⟨_, restored⟩ := answer_restore done
    obtain ⟨first, inside, restores, met⟩ := restore_in_history split restored
    have barred := (met ▸ covered first inside restores).operationBarred restored old
    obtain ⟨good, answered⟩ := history_invariant
      (P := OperationBarred operation.operationId) (fun _ call kept => kept.kept call) barred member
    obtain ⟨error, refused⟩ := good.refuses (lineageAuthority authority entry.before) context
    have failed : answer authority entry.before entry.call = .error (.identity error) := by
      rw [asked, answer, refused]
      rfl
    rw [answered, perform_of_error failed] at read
    cases read

def registry : Authority where
  canonicalProduction := true
  workModelV3Enabled := true
  schemaVersion := 3
  actors := fun _ => none
  principals := fun _ _ => none
  sessions := []
  sessionBindings := []
  identityTablesInstalled := true
  databaseIdentity := none
  projectIdentities := fun _ => none
  evidenceExecutions := fun _ => none

def firstAttempt : AttemptRow := ⟨"attempt-1", "work-1", 1, true, none⟩

def workspace : WorkspaceBinding := ⟨"/work", "/work", "sha256:binding"⟩

def freshStore : LineageStore where
  revisions := fun projectId => if projectId = "project-1" then some 0 else none
  operations := []
  operationIdentities := []
  audits := []
  rows := ⟨[⟨"work-1", "project-1"⟩], [], none, [], [], []⟩

def claimedStore : LineageStore :=
  { freshStore with rows := { freshStore.rows with
    attempts := [firstAttempt]
    database := some ⟨"database-1", 1⟩
    projects := [⟨"project-1", ⟨"database-1", 1⟩, workspace⟩]
    fences := [⟨"project-1", "work-1", "attempt-1", 1, ⟨"database-1", 1⟩, false⟩] } }

def restoredContext : IdentityContext := ⟨"project-1", ⟨"database-2", 2⟩, "sha256:binding"⟩

instance (projectId attemptId : String) (fence : ℕ) : DecidablePred (FenceOf projectId attemptId fence) :=
  fun _ => inferInstanceAs (Decidable (_ ∧ _))

theorem claimed_revoked : RevokesThePast registry claimedStore
    [.restore "database-2" 2 "2026-01-01T00:00:00Z", .install "database-2" 2 "2026-01-01T00:00:01Z",
      .heartbeat restoredContext "work-1" "attempt-1" 1 "2026-01-01T00:00:02Z"] := by
  refine restores_revoke ⟨by decide, by decide, by decide⟩ ?_
  simp only [history_cons, history_nil, List.forall_mem_cons]
  refine ⟨fun _ => ⟨by decide, List.forall_mem_nil _⟩, ?_, ?_, List.forall_mem_nil _⟩
  · rintro ⟨_, _, _, asked, _⟩
    cases asked
  · rintro ⟨_, _, _, asked, _⟩
    cases asked

theorem unrecorded_not_revoked : ¬ RevokesThePast registry freshStore
    [.install "database-1" 1 "2026-01-01T00:00:00Z",
      .bindProject "project-1" workspace "2026-01-01T00:00:01Z", .createAttempt firstAttempt,
      .restore "database-2" 2 "2026-01-01T00:00:02Z", .install "database-2" 2 "2026-01-01T00:00:03Z",
      .heartbeat restoredContext "work-1" "attempt-1" 1 "2026-01-01T00:00:04Z"] := by
  intro revokes
  have refused := revokes.fences
    [.install "database-1" 1 "2026-01-01T00:00:00Z",
      .bindProject "project-1" workspace "2026-01-01T00:00:01Z", .createAttempt firstAttempt]
    "database-2" 2 "2026-01-01T00:00:02Z"
    [.install "database-2" 2 "2026-01-01T00:00:03Z",
      .heartbeat restoredContext "work-1" "attempt-1" 1 "2026-01-01T00:00:04Z"]
    rfl (by decide) _
    (mem_history.mpr ⟨[.install "database-2" 2 "2026-01-01T00:00:03Z"], _, [], rfl, rfl⟩)
    firstAttempt (by decide) restoredContext "work-1" "2026-01-01T00:00:04Z" rfl
  revert refused
  decide

end Boreal.Store.Lineage
