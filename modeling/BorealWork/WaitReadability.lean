/- When the stored waits of a project stay readable: every list was appended in order, and no edit
turns a work that a dependency or a stored wait names into a container. -/
import BorealWork.PlanningFrames

namespace Boreal.Store
open Drain JsonValue WorkModel Sorting

variable {authority : Authority} {checksum : Value → String} {store : SqliteStore PlanningRows}
  {rows rows' : PlanningRows} {projectId : String} {log : List ExternalWait}

def Readable (rows : PlanningRows) (projectId : String) (log : List ExternalWait) : Prop :=
  ∃ waits, externalWaitsV1 rows projectId = .ok waits ∧
    ∀ id, waits.find? (·.id = id) = lastOf log id

/-- A wait that the reads accept over the current hierarchy. -/
structure Sound (rows : PlanningRows) (projectId : String) (wait : ExternalWait) : Prop where
  sorted : InOrder wait
  valid : ∃ nodes dependencies, workNodesDomainV3 rows projectId = .ok nodes ∧
    workDependenciesDomainV3 rows projectId = .ok dependencies ∧
    wait.validate nodes dependencies = .ok ()

def Settled (rows : PlanningRows) (projectId : String) (log : List ExternalWait) : Prop :=
  ∀ id wait, lastOf log id = some wait → Sound rows projectId wait

variable {wait : ExternalWait}

theorem readWait_sound (ledger : Ledger rows projectId log)
    (member : wait ∈ log) (sound : Sound rows projectId wait) {row : ExternalWaitRow}
    (own : row.projectId = projectId) (content : row.content = waitContent wait) :
    readWait rows row = .ok wait := by
  obtain ⟨nodes, dependencies, readNodes, readDependencies, valid⟩ := sound.valid
  rw [readWait, ledger.stored member own content, if_pos sound.sorted, ok_bind, own, readNodes,
    ok_bind, readDependencies, ok_bind, valid]
  rfl

theorem readWaits_settled (ledger : Ledger rows projectId log)
    (settled : Settled rows projectId log) (ids : List String) :
    (ids.filterMap (latestWaitRow rows projectId)).mapM (readWait rows) =
      .ok (ids.filterMap fun id => lastOf log ⟨id⟩) := by
  induction ids with
  | nil => rfl
  | cons id rest ih =>
    have latest := ledger.latest ⟨id⟩
    cases last : lastOf log ⟨id⟩ with
    | none =>
      rw [last, Option.map_none, Option.map_eq_none_iff] at latest
      rw [List.filterMap_cons_none latest, List.filterMap_cons_none (f := fun id => lastOf log ⟨id⟩) last, ih]
    | some wait =>
      rw [last, Option.map_some, Option.map_eq_some_iff] at latest
      obtain ⟨row, found, content⟩ := latest
      have read := readWait_sound ledger (lastOf_mem last).1 (settled ⟨id⟩ wait last)
        (latestWaitRow_own found).2.1 content
      rw [List.filterMap_cons_some found,
        List.filterMap_cons_some (f := fun id => lastOf log ⟨id⟩) last, List.mapM_cons, read,
        ok_bind, ih, ok_bind]
      rfl

theorem mem_externalWaitIds (ledger : Ledger rows projectId log)
    (member : wait ∈ log) : wait.id.value ∈ externalWaitIds rows projectId := by
  rw [externalWaitIds, mem_sortDedup]
  have content : waitContent wait ∈
      (rows.waits.filter (·.projectId = projectId)).map ExternalWaitRow.content := by
    rw [ledger.waits]
    exact List.mem_map_of_mem member
  obtain ⟨row, held, same⟩ := List.mem_map.mp content
  exact List.mem_map.mpr ⟨row, held, congrArg Prod.fst same⟩

theorem Settled.readable (settled : Settled rows projectId log)
    (ledger : Ledger rows projectId log) (named : bindText projectId = .ok ()) :
    Readable rows projectId log := by
  refine ⟨(externalWaitIds rows projectId).filterMap fun id => lastOf log ⟨id⟩, ?_, fun id => ?_⟩
  · rw [externalWaitsV1, named, ok_bind]
    exact readWaits_settled ledger settled _
  · rw [List.find?_filterMap]
    cases found : (externalWaitIds rows projectId).find?
        (fun s => (lastOf log ⟨s⟩).any fun wait => wait.id = id) with
    | none =>
      cases last : lastOf log id with
      | none => rfl
      | some wait =>
        obtain ⟨member, rfl⟩ := lastOf_mem last
        have absent := List.find?_eq_none.mp found _ (mem_externalWaitIds ledger member)
        rw [last] at absent
        simp at absent
    | some s =>
      have chosen := List.find?_some found
      rw [Option.any_eq_true] at chosen
      obtain ⟨wait, last, own⟩ := chosen
      have same : (⟨s⟩ : ExternalWaitId) = id :=
        (lastOf_mem last).2.symm.trans (of_decide_eq_true own)
      rw [Option.bind_some, same]

def appendedWait (projectId : String)
    (entry : Machines.Entry (SqliteStore PlanningRows) PlanningCall
      (Except StoreError MutationResult)) : Option ExternalWait :=
  match entry.call, entry.answer with
  | .appendWait _ input, .ok result =>
    if result.replayed = false ∧ input.wait.projectId.value = projectId then some input.wait
    else none
  | _, _ => none

def appendedWaits (projectId : String)
    (history : List (Machines.Entry (SqliteStore PlanningRows) PlanningCall
      (Except StoreError MutationResult))) : List ExternalWait :=
  history.filterMap (appendedWait projectId)

def Names (rows : PlanningRows) (projectId workId : String) : Prop :=
  (∃ row ∈ rows.dependencies, row.projectId = projectId ∧
    (row.prerequisiteWorkId = workId ∨ row.dependentWorkId = workId)) ∨
  ∃ row ∈ rows.waits, row.projectId = projectId ∧ ∃ wait,
    row.payload = encodeExternalWait wait ∧
      (wait.sourceWorkId.value = workId ∨ workId ∈ wait.affectedWorkIds.map TypedId.value)

/-- What a call must not do to the reads of a project: store a list out of order, or, once waits
are stored, make a container of a work that they or the dependencies name. -/
def Harmless (projectId : String) (rows : PlanningRows) : PlanningCall → Prop
  | .appendWait _ input => input.wait.projectId.value = projectId → InOrder input.wait
  | .updateCivilTime _ _ => True
  | .editWork _ input _ => input.projectId = projectId → input.executionMode = some "container" →
      (∃ row ∈ rows.waits, row.projectId = projectId) → ¬ Names rows projectId input.workId

theorem appendedWait_uncommitted {entry : Machines.Entry (SqliteStore PlanningRows) PlanningCall
      (Except StoreError MutationResult)} (none : ∀ revision, ¬ IsCommit entry.answer revision) :
    appendedWait projectId entry = Option.none := by
  unfold appendedWait
  split
  · rename_i context input result _ answered
    refine if_neg fun committed => none result.revision ⟨result.operationId, ?_⟩
    rw [answered, ← committed.1]
  · rfl

theorem lastOf_greatest (growing : log.Pairwise fun a b => a.id = b.id → a.revision < b.revision)
    {id : ExternalWaitId} {last wait : ExternalWait} (found : lastOf log id = some last)
    (member : wait ∈ log) (own : wait.id = id) : wait.revision ≤ last.revision := by
  have ordered : (log.filter (·.id = id)).Pairwise fun a b => a.revision < b.revision := by
    rw [List.pairwise_filter]
    refine growing.imp fun less first second => less ?_
    rw [of_decide_eq_true first, of_decide_eq_true second]
  rw [lastOf, ← maxBy_of_growing ordered] at found
  exact (maxBy_spec found).le wait (List.mem_filter.mpr ⟨member, decide_eq_true own⟩)

theorem Ledger.nil (waits : ∀ row ∈ rows.waits, row.projectId ≠ projectId)
    (scopes : ∀ row ∈ rows.scopes, row.projectId ≠ projectId) : Ledger rows projectId [] where
  waits := by
    have empty : rows.waits.filter (·.projectId = projectId) = [] :=
      List.filter_eq_nil_iff.mpr fun row member => by simpa using waits row member
    rw [empty]
    rfl
  scopes := List.filter_eq_nil_iff.mpr fun row member => by simpa using scopes row member
  own := fun wait member => absurd member List.not_mem_nil
  dated := fun wait member => absurd member List.not_mem_nil
  bound := fun wait member => absurd member List.not_mem_nil
  growing := .nil

variable {context : V3MutationContext} {input : ExternalWaitV1Input}

theorem WaitWritten.next (written : WaitWritten rows context input rows')
    (ledger : Ledger rows input.wait.projectId.value log)
    (next : input.expectedWaitRevision + 1 = input.wait.revision)
    (member : wait ∈ log) (own : wait.id = input.wait.id) : wait.revision < input.wait.revision := by
  obtain ⟨_, _, _, _, _, current, read, expected, _⟩ := written.valid
  cases last : lastOf log input.wait.id with
  | none => exact absurd own (lastOf_eq_none.mp last wait member)
  | some latest =>
    have below := lastOf_greatest ledger.growing last member own
    obtain ⟨sorted, unsorted⟩ := ledger.byId last
    by_cases order : InOrder latest
    · rw [sorted order] at read
      rw [← Except.ok.inj read, Option.elim_some] at expected
      omega
    · obtain ⟨error, failed⟩ := unsorted order
      rw [failed] at read
      cases read

theorem WaitWritten.followUp (written : WaitWritten rows context input rows') :
    input.wait.followUp.forM BusinessDate.validate = .ok () := by
  obtain ⟨_, _, _, _, valid, _⟩ := written.valid
  obtain ⟨_, content, _⟩ := ExternalWait.validate_eq_ok.mp valid
  obtain ⟨_, _, content⟩ := bind_eq_ok.mp content
  obtain ⟨_, _, content⟩ := bind_eq_ok.mp content
  obtain ⟨_, _, content⟩ := bind_eq_ok.mp content
  obtain ⟨_, dated, _⟩ := bind_eq_ok.mp content
  exact dated

theorem Ledger.appended (ledger : Ledger rows input.wait.projectId.value log)
    (written : WaitWritten rows context input rows')
    (next : input.expectedWaitRevision + 1 = input.wait.revision) :
    Ledger rows' input.wait.projectId.value (log ++ [input.wait]) where
  waits := by
    obtain ⟨origin, rfl⟩ := written.added
    rw [List.filter_append, List.map_append, ledger.waits, List.map_append]
    simp [ExternalWaitRow.content, waitContent]
  scopes := by
    obtain ⟨origin, rfl⟩ := written.added
    have all : (scopeRows input.wait).filter (·.projectId = input.wait.projectId.value) =
        scopeRows input.wait := by
      refine List.filter_eq_self.mpr fun row member => ?_
      obtain ⟨affected, _, rfl⟩ := List.mem_map.mp member
      exact decide_eq_true rfl
    rw [List.filter_append, ledger.scopes, all, List.flatMap_append, List.flatMap_singleton]
  own := by
    rw [List.forall_mem_append, List.forall_mem_singleton]
    exact ⟨ledger.own, rfl⟩
  dated := by
    rw [List.forall_mem_append, List.forall_mem_singleton]
    exact ⟨ledger.dated, written.followUp⟩
  bound := by
    rw [List.forall_mem_append, List.forall_mem_singleton]
    exact ⟨ledger.bound, written.bound⟩
  growing := by
    refine List.pairwise_append.mpr ⟨ledger.growing, List.pairwise_singleton _ _, ?_⟩
    intro wait member other last own
    rw [List.mem_singleton.mp last] at own ⊢
    exact written.next ledger next member own

theorem Ledger.unchanged (ledger : Ledger rows projectId log)
    (waits : rows'.waits.filter (·.projectId = projectId) =
      rows.waits.filter (·.projectId = projectId))
    (scopes : rows'.scopes.filter (·.projectId = projectId) =
      rows.scopes.filter (·.projectId = projectId)) : Ledger rows' projectId log :=
  ⟨waits ▸ ledger.waits, scopes ▸ ledger.scopes, ledger.own, ledger.dated, ledger.bound, ledger.growing⟩

theorem Ledger.append_nil (ledger : Ledger rows projectId log) :
    Ledger rows projectId (log ++ (none : Option ExternalWait).toList) := by
  rw [Option.toList_none, List.append_nil]
  exact ledger

theorem writeProjectCivilTime_eq_ok {input : ProjectCivilTimeV1Input} {known : Prop} [Decidable known]
    (written : writeProjectCivilTime authority rows context input known = .ok rows') :
    (∃ current, projectCivilTimeV1 rows input.setting.projectId.value = .ok current ∧
      current.elim 0 ProjectCivilTimeSetting.revision = input.expectedSettingRevision) ∧
    ∃ origin, rows' = { rows with settings := rows.settings ++ [⟨input.setting, origin⟩] } := by
  obtain ⟨current, read, written⟩ := bind_eq_ok.mp written
  obtain ⟨_, expected, written⟩ := bind_eq_ok.mp written
  obtain ⟨_, _, written⟩ := bind_eq_ok.mp written
  obtain ⟨_, _, written⟩ := bind_eq_ok.mp written
  obtain ⟨_, _, written⟩ := bind_eq_ok.mp written
  obtain ⟨_, _, written⟩ := bind_eq_ok.mp written
  refine ⟨⟨current, read, not_not.mp (refuse_eq_ok.mp expected)⟩, ?_⟩
  cases asked : context.expectedRevision with
  | none =>
    rw [asked] at written
    cases written
  | some created =>
    simp only [asked] at written
    obtain ⟨_, _, written⟩ := bind_eq_ok.mp written
    obtain ⟨_, _, written⟩ := bind_eq_ok.mp written
    obtain ⟨_, _, written⟩ := bind_eq_ok.mp written
    obtain ⟨_, _, written⟩ := bind_eq_ok.mp written
    obtain ⟨_, _, written⟩ := bind_eq_ok.mp written
    obtain ⟨_, _, written⟩ := bind_eq_ok.mp written
    obtain ⟨_, _, written⟩ := bind_eq_ok.mp written
    obtain ⟨_, _, written⟩ := bind_eq_ok.mp written
    obtain ⟨_, _, written⟩ := bind_eq_ok.mp written
    exact ⟨⟨created, context.operationId, context.requestDigest⟩, (Except.ok.inj written).symm⟩

theorem checkWaitRequest_next {bound : V3MutationContext}
    (checked : checkWaitRequest bound input = .ok ()) :
    input.expectedWaitRevision + 1 = input.wait.revision := by
  obtain ⟨_, _, checked⟩ := bind_eq_ok.mp checked
  obtain ⟨_, _, checked⟩ := bind_eq_ok.mp checked
  have next := refuse_eq_ok.mp checked
  rw [not_or, not_not] at next
  exact next.2

theorem WaitWritten.other (written : WaitWritten rows context input rows')
    (other : input.wait.projectId.value ≠ projectId) (ledger : Ledger rows projectId log) :
    Ledger rows' projectId log := by
  obtain ⟨origin, rfl⟩ := written.added
  refine ledger.unchanged ?_ ?_
  · rw [List.filter_append, List.filter_cons_of_neg (by simpa using other), List.filter_nil,
      List.append_nil]
  · have none : (scopeRows input.wait).filter (·.projectId = projectId) = [] := by
      refine List.filter_eq_nil_iff.mpr fun row member => ?_
      obtain ⟨affected, _, rfl⟩ := List.mem_map.mp member
      simpa using other
    rw [List.filter_append, none, List.append_nil]

theorem Ledger.performed (ledger : Ledger store.rows projectId log) (call : PlanningCall) :
    Ledger (performPlanning authority checksum store call).2.rows projectId
      (log ++ (appendedWait projectId
        (Machines.entry (performPlanning authority checksum) store call)).toList) := by
  rcases performPlanning_outcome store call with ⟨same, none⟩ | ⟨checked, result, answered, commits⟩
  · rw [same, appendedWait_uncommitted none, Option.toList_none, List.append_nil]
    exact ledger
  · have changed : result.replayed = false := by rw [commits.answer]
    have written := commits.written
    cases call with
    | appendWait context input =>
      have written := writeExternalWait_eq_ok written
      have committed : appendedWait projectId
          (Machines.entry (performPlanning authority checksum) store
            (.appendWait context input)) =
          if input.wait.projectId.value = projectId then some input.wait else none := by
        simp only [appendedWait, Machines.entry, answered, changed, true_and]
      rw [committed]
      by_cases own : input.wait.projectId.value = projectId
      · subst own
        rw [if_pos rfl]
        exact ledger.appended written (checkWaitRequest_next checked)
      · rw [if_neg own, Option.toList_none, List.append_nil]
        exact written.other own ledger
    | updateCivilTime context input =>
      obtain ⟨_, origin, rows⟩ := writeProjectCivilTime_eq_ok written
      rw [rows]
      exact Ledger.append_nil (ledger.unchanged rfl rfl)
    | editWork context input contract =>
      obtain ⟨reshaped, _⟩ := writeEdit_eq_ok written
      exact Ledger.append_nil
        (ledger.unchanged (by rw [reshaped.waits]) (by rw [reshaped.scopes]))

theorem Sound.unchanged (sound : Sound rows projectId wait)
    (nodes : workNodesDomainV3 rows' projectId = workNodesDomainV3 rows projectId)
    (dependencies : rows'.dependencies = rows.dependencies) : Sound rows' projectId wait := by
  obtain ⟨found, edges, readNodes, readDependencies, valid⟩ := sound.valid
  refine ⟨sound.sorted, found, edges, nodes.trans readNodes, ?_, valid⟩
  rw [workDependenciesDomainV3, dependencies]
  exact readDependencies

theorem Reshaped.elsewhere {input : PlanningWorkEditV3Input} (reshaped : Reshaped input rows rows')
    (other : projectId ≠ input.projectId) {records : List WorkNodeV3Record}
    (read : workNodesV3 rows projectId = .ok records) : workNodesV3 rows' projectId = .ok records := by
  obtain ⟨change, changed, kept, _⟩ := reshaped.nodes
  have moved := workNodesV3_map changed (fun record => (kept record).projectId)
    (fun record => (kept record).workId) read
  have same : records.map change = records := by
    refine (List.map_congr_left fun record member => ?_).trans (List.map_id _)
    refine (kept record).outside ?_
    rw [((mem_workNodesV3 read).mp member).2]
    exact other
  rw [moved, same]

theorem mem_workDependencies {dependencies : List DirectDependency}
    (read : workDependenciesDomainV3 rows projectId = .ok dependencies) {edge : DirectDependency}
    (member : edge ∈ dependencies) : ∃ row ∈ rows.dependencies, row.projectId = projectId ∧
      edge = directDependencyOf row := by
  obtain ⟨_, _, read⟩ := bind_eq_ok.mp read
  rw [← Except.ok.inj read] at member
  obtain ⟨row, held, rfl⟩ := List.mem_map.mp member
  rw [mem_sortOn, List.mem_filter, decide_eq_true_eq] at held
  exact ⟨row, held.1, held.2, rfl⟩

theorem Ledger.row (ledger : Ledger rows projectId log) (member : wait ∈ log) :
    ∃ row ∈ rows.waits, row.projectId = projectId ∧ row.payload = encodeExternalWait wait := by
  have content : waitContent wait ∈
      (rows.waits.filter (·.projectId = projectId)).map ExternalWaitRow.content := by
    rw [ledger.waits]
    exact List.mem_map_of_mem member
  obtain ⟨row, held, same⟩ := List.mem_map.mp content
  rw [List.mem_filter, decide_eq_true_eq] at held
  exact ⟨row, held.1, held.2, congrArg (fun content : String × ℕ × Value => content.2.2) same⟩

theorem Settled.edited {input : PlanningWorkEditV3Input}
    {contract : ContractOutcome} (settled : Settled rows projectId log) (ledger : Ledger rows projectId log)
    (edited : writeEdit rows context input contract = .ok rows')
    (harmless : Harmless projectId rows (.editWork context input contract)) :
    Settled rows' projectId log := by
  obtain ⟨reshaped, nodes', read', forest⟩ := writeEdit_eq_ok edited
  intro id wait last
  have sound := settled id wait last
  obtain ⟨member, _⟩ := lastOf_mem last
  by_cases own : projectId = input.projectId
  · subst own
    obtain ⟨nodes, dependencies, read, readDependencies, valid⟩ := sound.valid
    obtain ⟨row, stored, project, payload⟩ := ledger.row member
    have unnamed (work : input.executionMode = some "container") :=
      harmless rfl work ⟨row, stored, project⟩
    refine ⟨sound.sorted, nodes', dependencies, read', ?_, ?_⟩
    · rw [workDependenciesDomainV3, reshaped.dependencies]
      exact readDependencies
    · refine ExternalWait.validate_alike (reshaped.alike read read') forest ?_ ?_ ?_ valid
      · intro edge inside
        obtain ⟨row, stored, project, rfl⟩ := mem_workDependencies readDependencies inside
        refine ⟨fun clash => ?_, fun clash => ?_⟩
        · exact unnamed clash.2.2 (.inl ⟨row, stored, project, .inl clash.2.1⟩)
        · exact unnamed clash.2.2 (.inl ⟨row, stored, project, .inr clash.2.1⟩)
      · exact fun clash => unnamed clash.2.2
          (.inr ⟨row, stored, project, wait, payload, .inl clash.2.1⟩)
      · intro workId inside clash
        exact unnamed clash.2.2 (.inr ⟨row, stored, project, wait, payload, .inr
          (clash.2.1 ▸ List.mem_map_of_mem inside)⟩)
  · refine sound.unchanged ?_ reshaped.dependencies
    obtain ⟨nodes, _, read, _⟩ := sound.valid
    obtain ⟨records, readRecords, _⟩ := bind_eq_ok.mp read
    rw [workNodesDomainV3, workNodesDomainV3, reshaped.elsewhere own readRecords, readRecords]

theorem Settled.performed (settled : Settled store.rows projectId log)
    (ledger : Ledger store.rows projectId log) {call : PlanningCall}
    (harmless : ∀ revision, IsCommit (performPlanning authority checksum store call).1 revision →
      Harmless projectId store.rows call) :
    Settled (performPlanning authority checksum store call).2.rows projectId
      (log ++ (appendedWait projectId
        (Machines.entry (performPlanning authority checksum) store call)).toList) := by
  rcases performPlanning_outcome store call with ⟨same, none⟩ | ⟨checked, result, answered, commits⟩
  · rw [same, appendedWait_uncommitted none, Option.toList_none, List.append_nil]
    exact settled
  · have changed : result.replayed = false := by rw [commits.answer]
    have safe : Harmless projectId store.rows call := by
      refine harmless result.revision ⟨result.operationId, ?_⟩
      rw [answered, ← changed]
    have written := commits.written
    cases call with
    | appendWait context input =>
      have written := writeExternalWait_eq_ok written
      obtain ⟨origin, added⟩ := written.added
      have committed : appendedWait projectId
          (Machines.entry (performPlanning authority checksum) store
            (.appendWait context input)) =
          if input.wait.projectId.value = projectId then some input.wait else none := by
        simp only [appendedWait, Machines.entry, answered, changed, true_and]
      rw [committed, added]
      by_cases own : input.wait.projectId.value = projectId
      · subst own
        rw [if_pos rfl, Option.toList_some]
        intro id wait last
        rw [lastOf_append] at last
        split at last
        · cases Option.some.inj last
          obtain ⟨nodes, dependencies, readNodes, readDependencies, valid, _⟩ := written.valid
          exact ⟨safe rfl, nodes, dependencies, readNodes, readDependencies, valid⟩
        · exact (settled id wait last).unchanged rfl rfl
      · rw [if_neg own, Option.toList_none, List.append_nil]
        exact fun id wait last => (settled id wait last).unchanged rfl rfl
    | updateCivilTime context input =>
      obtain ⟨_, origin, rows⟩ := writeProjectCivilTime_eq_ok written
      rw [rows]
      intro id wait last
      rw [show appendedWait projectId (Machines.entry (performPlanning authority checksum) store
        (.updateCivilTime context input)) = none from rfl, Option.toList_none,
        List.append_nil] at last
      exact (settled id wait last).unchanged rfl rfl
    | editWork context input contract =>
      intro id wait last
      rw [show appendedWait projectId (Machines.entry (performPlanning authority checksum) store
        (.editWork context input contract)) = none from rfl, Option.toList_none,
        List.append_nil] at last
      exact settled.edited ledger written safe id wait last

def requestDigest (_ : Value) : String := "sha256:request"

def taskRow (workId : String) : WorkRecord :=
  ⟨"project-1", workId, .task, none, .open, "automatic", 0, workId, "", "1970-01-01T00:00:00Z"⟩

def taskNode (workId : String) : WorkNodeV3Record :=
  ⟨"project-1", workId, .task, .direct, none, "1970-01-01T00:00:00Z"⟩

/-- Two direct tasks, the first of which blocks the second. -/
def twoTasks : SqliteStore PlanningRows where
  revisions := fun project => if project = "project-1" then some 0 else none
  operations := []
  operationIdentities := []
  audits := []
  rows := ⟨[taskRow "task-1", taskRow "task-2"], [taskNode "task-1", taskNode "task-2"],
    [⟨"project-1", "task-1", "task-2"⟩], [], [], [], []⟩

def regionWait (affected : List WorkId) : ExternalWait where
  id := ⟨"wait-1"⟩
  projectId := ⟨"project-1"⟩
  sourceWorkId := ⟨"task-1"⟩
  affectedWorkIds := affected
  category := .decision
  reason := "the region is not chosen"
  accountable := .role .operator
  expectedDecision := some "region"
  expectedOutput := none
  followUp := none
  civilTimeSettingRevision := none
  revision := 1
  state := .opened
  createdBy := "operator-1"
  createdAt := ⟨0⟩
  resolution := none

def operatorContext (operationId : String) (expected : ℕ) : V3MutationContext :=
  ⟨"project-1", "operator-1", some "session-1", operationId, "sha256:scope", some expected,
    "1970-01-01T00:00:00Z"⟩

def titleEdit (title : String) (mode : Option String) : PlanningWorkEditV3Input where
  projectId := "project-1"
  workId := "task-2"
  parentId := none
  title := some title
  description := none
  priority := none
  dispatchPolicy := none
  executionMode := mode
  planningContract := none
  updatedAt := "1970-01-01T00:00:00Z"

def utcSetting (revision : ℕ) : ProjectCivilTimeV1Input where
  setting := ⟨⟨"project-1"⟩, revision, "UTC", "2026a", "operator-1", ⟨0⟩⟩
  expectedSettingRevision := revision - 1

def orderedAppend : PlanningCall :=
  .appendWait (operatorContext "operation-1" 0) ⟨regionWait [⟨"task-1"⟩, ⟨"task-2"⟩], 0⟩

def unorderedAppend : PlanningCall :=
  .appendWait (operatorContext "operation-1" 0) ⟨regionWait [⟨"task-2"⟩, ⟨"task-1"⟩], 0⟩

def retitle : PlanningCall :=
  .editWork (operatorContext "operation-2" 1) (titleEdit "second" none) ⟨.ok (), .ok ()⟩

def contain : PlanningCall :=
  .editWork (operatorContext "operation-2" 1) (titleEdit "second" (some "container")) ⟨.ok (), .ok ()⟩

def setTimezone : PlanningCall :=
  .updateCivilTime (operatorContext "operation-3" 2) (utcSetting 1)

structure NoWaits (rows : PlanningRows) (projectId : String) : Prop where
  named : bindText projectId = .ok ()
  waits : ∀ row ∈ rows.waits, row.projectId ≠ projectId
  scopes : ∀ row ∈ rows.scopes, row.projectId ≠ projectId

theorem appendedWaits_append {entry : Machines.Entry (SqliteStore PlanningRows) PlanningCall
      (Except StoreError MutationResult)}
    (history : List (Machines.Entry (SqliteStore PlanningRows) PlanningCall
      (Except StoreError MutationResult))) :
    appendedWaits projectId (history ++ [entry]) =
      appendedWaits projectId history ++ (appendedWait projectId entry).toList := by
  rw [appendedWaits, List.filterMap_append]
  cases appended : appendedWait projectId entry with
  | none => rw [List.filterMap_cons_none appended]; rfl
  | some wait => rw [List.filterMap_cons_some appended]; rfl

/-- Over a run whose commits are all harmless, the project's waits are read as last appended. -/
theorem waits_stay_readable (authority : Authority) (checksum : Value → String)
    (start : SqliteStore PlanningRows) (projectId : String) (calls : List PlanningCall)
    (fresh : NoWaits start.rows projectId)
    (harmless : ∀ entry ∈ Machines.history (performPlanning authority checksum) start calls,
      ∀ revision, IsCommit entry.answer revision →
        Harmless projectId entry.before.rows entry.call) :
    Readable (Machines.final (performPlanning authority checksum) start calls).rows projectId
      (appendedWaits projectId
        (Machines.history (performPlanning authority checksum) start calls)) := by
  have kept := @Machines.history_ledger _ _ _ (performPlanning authority checksum)
    (fun history store =>
      (∀ entry ∈ history, ∀ revision, IsCommit entry.answer revision →
        Harmless projectId entry.before.rows entry.call) →
      Ledger store.rows projectId (appendedWaits projectId history) ∧
        Settled store.rows projectId (appendedWaits projectId history)) start ?_ calls ?_
  · obtain ⟨ledger, settled⟩ := kept harmless
    exact settled.readable ledger fresh.named
  · intro _
    refine ⟨.nil fresh.waits fresh.scopes, fun id wait last => ?_⟩
    cases last
  · intro history store call _ ih safe
    rw [List.forall_mem_append, List.forall_mem_singleton] at safe
    obtain ⟨ledger, settled⟩ := ih safe.1
    rw [appendedWaits_append]
    exact ⟨ledger.performed call, settled.performed ledger safe.2⟩

theorem waits_stay_readable_ordered :
    Readable (Machines.final (performPlanning operatorAuthority requestDigest) twoTasks
        [orderedAppend, retitle, setTimezone]).rows "project-1"
      (appendedWaits "project-1" (Machines.history
        (performPlanning operatorAuthority requestDigest) twoTasks
        [orderedAppend, retitle, setTimezone])) := by
  refine waits_stay_readable operatorAuthority requestDigest twoTasks "project-1" _ ?_ ?_
  · exact ⟨rfl, fun row member => absurd member List.not_mem_nil,
      fun row member => absurd member List.not_mem_nil⟩
  · intro entry member revision _
    rw [Machines.history_cons, Machines.history_cons, Machines.history_cons,
      Machines.history_nil, List.mem_cons, List.mem_cons, List.mem_singleton] at member
    rcases member with rfl | rfl | rfl
    · intro _
      change InOrder (regionWait [⟨"task-1"⟩, ⟨"task-2"⟩])
      decide
    · intro _ asked
      cases asked
    · exact trivial

theorem not_readable_of_error {store : SqliteStore PlanningRows}
    (failed : (externalWaitsV1 store.rows projectId).isOk = false) :
    ¬ Readable store.rows projectId log := by
  rintro ⟨waits, read, _⟩
  rw [read] at failed
  cases failed

theorem ordered_and_direct_needed :
    ((Machines.history (performPlanning operatorAuthority requestDigest) twoTasks
        [unorderedAppend]).all (fun entry => entry.answer.isOk) = true ∧
      ¬ Readable (Machines.final (performPlanning operatorAuthority requestDigest) twoTasks
          [unorderedAppend]).rows "project-1"
        (appendedWaits "project-1" (Machines.history
          (performPlanning operatorAuthority requestDigest) twoTasks [unorderedAppend]))) ∧
    (Machines.history (performPlanning operatorAuthority requestDigest) twoTasks
        [orderedAppend, contain]).all (fun entry => entry.answer.isOk) = true ∧
      ¬ Readable (Machines.final (performPlanning operatorAuthority requestDigest) twoTasks
          [orderedAppend, contain]).rows "project-1"
        (appendedWaits "project-1" (Machines.history
          (performPlanning operatorAuthority requestDigest) twoTasks [orderedAppend, contain])) := by
  refine ⟨⟨?_, not_readable_of_error ?_⟩, ?_, not_readable_of_error ?_⟩
  all_goals decide +kernel

end Boreal.Store
