/- The stored waits of a project are the log of its committed appends: one row and the scope rows of
each, in order, with growing revisions of each wait. -/
import BorealWork.PlanningEdits
import BorealWork.MutationRuns

namespace Boreal.Store
open Drain JsonValue WorkModel Sorting

variable {rows rows' : PlanningRows} {context : V3MutationContext} {projectId : String}

section Writes
variable {input : ExternalWaitV1Input} {known : Prop} [Decidable known]

theorem insertWaitScopes_eq_ok {edges : List ExternalWaitScopeRow}
    (inserted : edges.foldlM insertWaitScope rows = .ok rows') :
    rows' = { rows with scopes := rows.scopes ++ edges } := by
  induction edges generalizing rows with
  | nil =>
    cases inserted
    rw [List.append_nil]
  | cons edge rest ih =>
    obtain ⟨next, first, inserted⟩ := bind_eq_ok.mp inserted
    obtain ⟨_, _, first⟩ := bind_eq_ok.mp first
    obtain ⟨_, _, first⟩ := bind_eq_ok.mp first
    obtain ⟨_, _, first⟩ := bind_eq_ok.mp first
    obtain ⟨_, _, first⟩ := bind_eq_ok.mp first
    obtain ⟨_, _, first⟩ := bind_eq_ok.mp first
    obtain ⟨_, _, first⟩ := bind_eq_ok.mp first
    rw [ih inserted, ← Except.ok.inj first, List.append_assoc]
    rfl

structure WaitWritten (rows : PlanningRows) (context : V3MutationContext)
    (input : ExternalWaitV1Input) (rows' : PlanningRows) : Prop where
  valid : ∃ nodes dependencies,
    workNodesDomainV3 rows input.wait.projectId.value = .ok nodes ∧
    workDependenciesDomainV3 rows input.wait.projectId.value = .ok dependencies ∧
    input.wait.validate nodes dependencies = .ok () ∧
    ∃ current,
      externalWaitV1ById rows input.wait.projectId.value input.wait.id.value = .ok current ∧
      current.elim 0 ExternalWait.revision = input.expectedWaitRevision ∧
      admitTransition context input nodes dependencies current = .ok ()
  setting : checkSettingRevision rows input.wait = .ok ()
  bound : bindText input.wait.projectId.value = .ok () ∧ bindText input.wait.id.value = .ok () ∧
    bindI64 input.wait.revision = .ok ()
  named : trimsEmpty input.wait.id.value = false
  added : ∃ origin, rows' = { rows with
    waits := rows.waits ++ [⟨input.wait.projectId.value, input.wait.id.value, input.wait.revision,
      encodeExternalWait input.wait, origin⟩]
    scopes := rows.scopes ++ scopeRows input.wait }

theorem writeExternalWait_eq_ok (written : writeExternalWait rows context input known = .ok rows') :
    WaitWritten rows context input rows' := by
  obtain ⟨nodes, readNodes, written⟩ := bind_eq_ok.mp written
  obtain ⟨dependencies, readDependencies, written⟩ := bind_eq_ok.mp written
  obtain ⟨_, valid, written⟩ := bind_eq_ok.mp written
  obtain ⟨current, readCurrent, written⟩ := bind_eq_ok.mp written
  obtain ⟨_, expected, written⟩ := bind_eq_ok.mp written
  obtain ⟨_, admitted, written⟩ := bind_eq_ok.mp written
  obtain ⟨_, setting, written⟩ := bind_eq_ok.mp written
  obtain ⟨middle, inserted, written⟩ := bind_eq_ok.mp written
  obtain ⟨_, boundProject, inserted⟩ := bind_eq_ok.mp inserted
  obtain ⟨_, boundId, inserted⟩ := bind_eq_ok.mp inserted
  obtain ⟨_, boundRevision, inserted⟩ := bind_eq_ok.mp inserted
  cases asked : context.expectedRevision with
  | none =>
    rw [asked] at inserted
    cases inserted
  | some created =>
    simp only [asked] at inserted
    obtain ⟨_, _, inserted⟩ := bind_eq_ok.mp inserted
    obtain ⟨_, _, inserted⟩ := bind_eq_ok.mp inserted
    obtain ⟨_, _, inserted⟩ := bind_eq_ok.mp inserted
    obtain ⟨_, named, inserted⟩ := bind_eq_ok.mp inserted
    obtain ⟨_, _, inserted⟩ := bind_eq_ok.mp inserted
    obtain ⟨_, _, inserted⟩ := bind_eq_ok.mp inserted
    obtain ⟨_, _, inserted⟩ := bind_eq_ok.mp inserted
    obtain ⟨_, _, inserted⟩ := bind_eq_ok.mp inserted
    exact {
      valid := ⟨nodes, dependencies, readNodes, readDependencies, mapError_eq_ok.mp valid,
        current, readCurrent, not_not.mp (refuse_eq_ok.mp expected), admitted⟩
      setting := setting
      bound := ⟨boundProject, boundId, boundRevision⟩
      named := Bool.eq_false_iff.mpr (refuse_eq_ok.mp named)
      added := by
        refine ⟨⟨created, context.operationId, context.requestDigest⟩, ?_⟩
        rw [insertWaitScopes_eq_ok written, ← Except.ok.inj inserted] }

end Writes

section Log

def ExternalWaitRow.content (row : ExternalWaitRow) : String × ℕ × Value :=
  (row.waitId, row.revision, row.payload)

def waitContent (wait : ExternalWait) : String × ℕ × Value :=
  (wait.id.value, wait.revision, encodeExternalWait wait)

structure Ledger (rows : PlanningRows) (projectId : String) (log : List ExternalWait) : Prop where
  waits : (rows.waits.filter (·.projectId = projectId)).map ExternalWaitRow.content =
    log.map waitContent
  scopes : rows.scopes.filter (·.projectId = projectId) = log.flatMap scopeRows
  own : ∀ wait ∈ log, wait.projectId.value = projectId
  dated : ∀ wait ∈ log, wait.followUp.forM BusinessDate.validate = .ok ()
  bound : ∀ wait ∈ log, bindText projectId = .ok () ∧ bindText wait.id.value = .ok () ∧
    bindI64 wait.revision = .ok ()
  growing : log.Pairwise fun a b => a.id = b.id → a.revision < b.revision

variable {log : List ExternalWait}

def lastOf (log : List ExternalWait) (id : ExternalWaitId) : Option ExternalWait :=
  (log.filter (·.id = id)).getLast?

theorem lastOf_mem {id : ExternalWaitId} {wait : ExternalWait} (last : lastOf log id = some wait) :
    wait ∈ log ∧ wait.id = id := by
  have member := List.mem_of_getLast? last
  rw [List.mem_filter] at member
  exact ⟨member.1, of_decide_eq_true member.2⟩

theorem lastOf_eq_none {id : ExternalWaitId} : lastOf log id = none ↔ ∀ wait ∈ log, wait.id ≠ id := by
  rw [lastOf, List.getLast?_eq_none_iff, List.filter_eq_nil_iff]
  simp only [decide_eq_true_eq]

theorem lastOf_append (wait : ExternalWait) (id : ExternalWaitId) :
    lastOf (log ++ [wait]) id = if wait.id = id then some wait else lastOf log id := by
  rw [lastOf, List.filter_append]
  by_cases same : wait.id = id
  · rw [if_pos same, List.filter_cons_of_pos (by simpa using same), List.filter_nil,
      List.getLast?_concat]
  · rw [if_neg same, List.filter_cons_of_neg (by simpa using same), List.filter_nil,
      List.append_nil]
    rfl

theorem Ledger.latest (ledger : Ledger rows projectId log) (id : ExternalWaitId) :
    (latestWaitRow rows projectId id.value).map ExternalWaitRow.content =
      (lastOf log id).map waitContent := by
  have filtered : rows.waits.filter
        (fun row => row.projectId = projectId ∧ row.waitId = id.value) =
      (rows.waits.filter (·.projectId = projectId)).filter (·.waitId = id.value) := by
    rw [List.filter_filter]
    refine List.filter_congr fun row _ => ?_
    rw [Bool.decide_and, Bool.and_comm]
  have contents : (rows.waits.filter
        (fun row => row.projectId = projectId ∧ row.waitId = id.value)).map
          ExternalWaitRow.content = (log.filter (·.id = id)).map waitContent := by
    rw [filtered]
    have first : (fun row : ExternalWaitRow => decide (row.waitId = id.value)) =
        (fun content : String × ℕ × Value => decide (content.1 = id.value)) ∘
          ExternalWaitRow.content := rfl
    have second : (fun wait : ExternalWait => decide (wait.id = id)) =
        (fun content : String × ℕ × Value => decide (content.1 = id.value)) ∘ waitContent := by
      funext wait
      rw [Function.comp_apply, decide_eq_decide]
      exact ⟨fun same => congrArg TypedId.value same, fun same => TypedId.value_injective same⟩
    rw [first, second, ← List.filter_map, ← List.filter_map, ledger.waits]
  have growing : (log.filter (·.id = id)).Pairwise fun a b => a.revision < b.revision := by
    rw [List.pairwise_filter]
    refine ledger.growing.imp fun less first second => less ?_
    rw [of_decide_eq_true first, of_decide_eq_true second]
  have byRow := @maxBy_map _ _ _ _ (fun content : String × ℕ × Value => content.2.1)
    ExternalWaitRow.content (rows.waits.filter
      (fun row => row.projectId = projectId ∧ row.waitId = id.value))
  have byWait := @maxBy_map _ _ _ _ (fun content : String × ℕ × Value => content.2.1)
    waitContent (log.filter (·.id = id))
  rw [contents] at byRow
  rw [lastOf, ← maxBy_of_growing growing]
  exact byRow.symm.trans byWait

theorem scopeRows_of_growing (growing : log.Pairwise fun a b => a.id = b.id → a.revision < b.revision)
    {wait : ExternalWait} (member : wait ∈ log) :
    (log.flatMap scopeRows).filter
        (fun row => row.waitId = wait.id.value ∧ row.revision = wait.revision) =
      scopeRows wait := by
  have own (other : ExternalWait) (same : other.id = wait.id ∧ other.revision = wait.revision) :
      (scopeRows other).filter
        (fun row => row.waitId = wait.id.value ∧ row.revision = wait.revision) =
      scopeRows other := by
    refine List.filter_eq_self.mpr fun row inside => ?_
    obtain ⟨affected, _, rfl⟩ := List.mem_map.mp inside
    exact decide_eq_true ⟨congrArg TypedId.value same.1, same.2⟩
  have apart (other : ExternalWait)
      (differ : ¬ (other.id = wait.id ∧ other.revision = wait.revision)) :
      (scopeRows other).filter
        (fun row => row.waitId = wait.id.value ∧ row.revision = wait.revision) = [] := by
    refine List.filter_eq_nil_iff.mpr fun row inside same => differ ?_
    obtain ⟨affected, _, rfl⟩ := List.mem_map.mp inside
    obtain ⟨id, revision⟩ := of_decide_eq_true same
    exact ⟨TypedId.value_injective id, revision⟩
  induction log with
  | nil => cases member
  | cons first rest ih =>
    rw [List.pairwise_cons] at growing
    rw [List.flatMap_cons, List.filter_append]
    rcases List.mem_cons.mp member with rfl | later
    · have others : (rest.flatMap scopeRows).filter
          (fun row => row.waitId = wait.id.value ∧ row.revision = wait.revision) = [] := by
        refine List.filter_eq_nil_iff.mpr fun row inside same => ?_
        obtain ⟨other, listed, inside⟩ := List.mem_flatMap.mp inside
        have empty := apart other fun same => by
          have less := growing.1 other listed same.1.symm
          omega
        exact List.filter_eq_nil_iff.mp empty row inside same
      rw [own wait ⟨rfl, rfl⟩, others, List.append_nil]
    · have less := growing.1 wait later
      rw [apart first fun same => absurd (less same.1) (by omega), ih growing.2 later]
      rfl

def InOrder (wait : ExternalWait) : Prop :=
  (wait.affectedWorkIds.map TypedId.value).Pairwise (· ≤ ·)

instance (wait : ExternalWait) : Decidable (InOrder wait) :=
  inferInstanceAs (Decidable (List.Pairwise _ _))

theorem inOrder_iff {wait : ExternalWait} : InOrder wait ↔
    wait.affectedWorkIds =
      (sortOn id (wait.affectedWorkIds.map TypedId.value)).map TypedId.mk := by
  have wrapped : (wait.affectedWorkIds.map TypedId.value).map TypedId.mk =
      wait.affectedWorkIds := by
    rw [List.map_map]
    exact List.map_id _
  constructor
  · intro sorted
    have same : sortOn id (wait.affectedWorkIds.map TypedId.value) =
      wait.affectedWorkIds.map TypedId.value := sortOn_of_sorted sorted
    rw [same, wrapped]
  · intro same
    rw [InOrder, same, List.map_map]
    have plain : TypedId.value ∘ (TypedId.mk : String → WorkId) = id := rfl
    rw [plain, List.map_id]
    exact sortOn_pairwise id _

theorem Ledger.scope (ledger : Ledger rows projectId log) {wait : ExternalWait}
    (member : wait ∈ log) : externalWaitScopeV1 rows projectId wait.id.value wait.revision =
      .ok ((sortOn id (wait.affectedWorkIds.map TypedId.value)).map TypedId.mk) := by
  obtain ⟨project, named, revision⟩ := ledger.bound wait member
  have filtered : rows.scopes.filter (fun row => row.projectId = projectId ∧
        row.waitId = wait.id.value ∧ row.revision = wait.revision) = scopeRows wait := by
    rw [← scopeRows_of_growing ledger.growing member, ← ledger.scopes, List.filter_filter]
    refine List.filter_congr fun row _ => ?_
    rw [Bool.decide_and, Bool.and_comm]
  have affected : (scopeRows wait).map (·.affectedWorkId) =
      wait.affectedWorkIds.map TypedId.value := by
    rw [scopeRows, List.map_map]
    rfl
  rw [externalWaitScopeV1, project, ok_bind, named, ok_bind, revision, ok_bind, filtered, affected]
  rfl

theorem Ledger.stored (ledger : Ledger rows projectId log) {wait : ExternalWait}
    (member : wait ∈ log) {row : ExternalWaitRow} (own : row.projectId = projectId)
    (content : row.content = waitContent wait) :
    storedWait rows row = if InOrder wait then .ok wait
      else .error (.corrupt
        s!"external wait {row.waitId} payload and immutable scope edges disagree") := by
  obtain ⟨waitId, content⟩ := Prod.mk.inj content
  obtain ⟨revision, payload⟩ := Prod.mk.inj content
  have project : (⟨row.projectId⟩ : ProjectId) = wait.projectId :=
    TypedId.value_injective (own.trans (ledger.own wait member).symm)
  have id : (⟨row.waitId⟩ : ExternalWaitId) = wait.id := TypedId.value_injective waitId
  rw [storedWait, project, id, revision, payload, decodeExternalWait_encode (ledger.dated wait member),
    ok_bind, own, waitId, ledger.scope member, ok_bind]
  by_cases sorted : InOrder wait
  · rw [if_pos sorted, refuse_of_not (not_not.mpr (inOrder_iff.mp sorted)), ok_bind]
    rfl
  · rw [if_neg sorted]
    have differ := mt inOrder_iff.mpr sorted
    rw [refuse, if_pos differ]
    rfl

theorem latestWaitRow_own {waitId : String} {row : ExternalWaitRow}
    (latest : latestWaitRow rows projectId waitId = some row) :
    row ∈ rows.waits ∧ row.projectId = projectId ∧ row.waitId = waitId := by
  have member := (maxBy_spec latest).mem
  rw [List.mem_filter] at member
  exact ⟨member.1, of_decide_eq_true member.2⟩

theorem Ledger.byId (ledger : Ledger rows projectId log) {id : ExternalWaitId}
    {wait : ExternalWait} (last : lastOf log id = some wait) :
    (InOrder wait → externalWaitV1ById rows projectId id.value = .ok (some wait)) ∧
      (¬ InOrder wait → ∃ error, externalWaitV1ById rows projectId id.value = .error error) := by
  obtain ⟨member, rfl⟩ := lastOf_mem last
  obtain ⟨project, named, _⟩ := ledger.bound wait member
  have latest := ledger.latest wait.id
  rw [last, Option.map_some, Option.map_eq_some_iff] at latest
  obtain ⟨row, found, content⟩ := latest
  obtain ⟨_, own, _⟩ := latestWaitRow_own found
  have stored := ledger.stored member own content
  have read : externalWaitV1ById rows projectId wait.id.value = some <$> storedWait rows row := by
    rw [externalWaitV1ById, project, ok_bind, named, ok_bind]
    simp only [found]
  constructor
  · intro sorted
    rw [read, stored, if_pos sorted]
    rfl
  · intro unsorted
    rw [read, stored, if_neg unsorted]
    exact ⟨_, rfl⟩

end Log

end Boreal.Store
