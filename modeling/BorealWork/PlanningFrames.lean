/- What the planning calls leave as it was: a call that does not commit changes nothing, and an edit
keeps every node but the mode and the parent of the works it names. -/
import BorealWork.WaitLedger

namespace Boreal.Store
open Drain JsonValue WorkModel Sorting

variable {authority : Authority} {checksum : Value → String} {store : SqliteStore PlanningRows}
  {rows rows' rows'' : PlanningRows} {context : V3MutationContext}

section Outcomes
variable (authority : Authority) (checksum : Value → String)

/-- The transaction of a call, and the checks before it. -/
def planningMutation : PlanningCall → Mutation PlanningRows
  | .appendWait context input => waitMutation checksum context input
  | .updateCivilTime context input => settingMutation authority checksum context input
  | .editWork context input contract => editMutation checksum context input contract

def planningCheck : PlanningCall → Except StoreError Unit
  | .appendWait context input =>
    checkWaitRequest (context.withPayload checksum (waitRequest input)) input
  | .updateCivilTime context input =>
    checkSettingRequest (context.withPayload checksum (settingRequest input)) input
  | .editWork context input contract =>
    checkEditRequest input contract (context.withPayload checksum (editRequest input))

theorem performPlanning_eq (store : SqliteStore PlanningRows) (call : PlanningCall) :
    performPlanning authority checksum store call = match planningCheck checksum call with
      | .error error => (.error error, store)
      | .ok () => factMutation authority store (planningMutation authority checksum call) := by
  cases call <;> rfl

variable {authority checksum}

theorem performPlanning_outcome (store : SqliteStore PlanningRows) (call : PlanningCall) :
    ((performPlanning authority checksum store call).2 = store ∧
      ∀ revision, ¬ IsCommit (performPlanning authority checksum store call).1 revision) ∨
    planningCheck checksum call = .ok () ∧
      ∃ result, (performPlanning authority checksum store call).1 = .ok result ∧
        Commits authority store (planningMutation authority checksum call) result
          (performPlanning authority checksum store call).2 := by
  rw [performPlanning_eq]
  cases checked : planningCheck checksum call with
  | error error => exact .inl ⟨rfl, fun revision ⟨id, same⟩ => by cases same⟩
  | ok done =>
    rcases outcome : factMutation authority store (planningMutation authority checksum call) with
      ⟨answer, after⟩
    have ended := factMutation_outcome authority store (planningMutation authority checksum call)
    rw [outcome] at ended
    cases ended with
    | failed error => exact .inl ⟨rfl, fun revision ⟨id, same⟩ => by cases same⟩
    | replayed existing known answers =>
      exact .inl ⟨rfl, fun revision ⟨id, same⟩ => by cases same⟩
    | committed result _ enabled authorized commits => exact .inr ⟨rfl, result, rfl, commits⟩

end Outcomes

section Reshaping
variable {input : PlanningWorkEditV3Input}

/-- How an edit may change a node: its parent and time, and the edited node's mode if asked. -/
structure NodeKept (input : PlanningWorkEditV3Input) (record record' : WorkNodeV3Record) :
    Prop where
  projectId : record'.projectId = record.projectId
  workId : record'.workId = record.workId
  kind : record'.decompositionKind = record.decompositionKind
  outside : record.projectId ≠ input.projectId → record' = record

def ModeKept (input : PlanningWorkEditV3Input) (record record' : WorkNodeV3Record) : Prop :=
  record'.executionMode = record.executionMode ∨
    record.projectId = input.projectId ∧ record.workId = input.workId ∧
      input.executionMode.bind executionModeOf = some record'.executionMode

def workKey (row : WorkRecord) : String × String := (row.projectId, row.workId)

structure Reshaped (input : PlanningWorkEditV3Input) (rows rows' : PlanningRows) : Prop where
  nodes : ∃ change, rows'.nodes = rows.nodes.map change ∧
    (∀ record, NodeKept input record (change record)) ∧
    ∀ record ∈ rows.nodes, ModeKept input record (change record)
  works : rows'.works.map workKey = rows.works.map workKey
  dependencies : rows'.dependencies = rows.dependencies
  settings : rows'.settings = rows.settings
  waits : rows'.waits = rows.waits
  scopes : rows'.scopes = rows.scopes

theorem NodeKept.refl (record : WorkNodeV3Record) : NodeKept input record record :=
  ⟨rfl, rfl, rfl, fun _ => rfl⟩

theorem Reshaped.refl (rows : PlanningRows) : Reshaped input rows rows :=
  ⟨⟨id, (List.map_id _).symm, NodeKept.refl, fun _ _ => .inl rfl⟩, rfl, rfl, rfl, rfl, rfl⟩

theorem updateNode_reshaped {workId : String} {change : WorkNodeV3Record → WorkNodeV3Record}
    (kept : ∀ record, record.projectId = input.projectId → NodeKept input record (change record))
    (mode : ∀ record ∈ rows.nodes, record.projectId = input.projectId → record.workId = workId →
      ModeKept input record (change record)) :
    Reshaped input rows (updateNode rows input workId change) where
  nodes := by
    refine ⟨changeWhere (isNode input.projectId workId) change, rfl, fun record => ?_,
      fun record member => ?_⟩
    · unfold changeWhere
      split
      · rename_i chosen
        rw [isNode, Bool.and_eq_true, decide_eq_true_eq] at chosen
        exact kept record chosen.1
      · exact .refl record
    · unfold changeWhere
      split
      · rename_i chosen
        rw [isNode, Bool.and_eq_true, decide_eq_true_eq, decide_eq_true_eq] at chosen
        exact mode record member chosen.1 chosen.2
      · exact .inl rfl
  works := rfl
  dependencies := rfl
  settings := rfl
  waits := rfl
  scopes := rfl

theorem updateWork_reshaped {parent : Option String} {current : WorkRecord}
    (own : current.projectId = input.projectId ∧ current.workId = input.workId)
    (updated : updateWork rows input parent current = .ok rows') :
    Reshaped input rows rows' ∧ rows'.nodes = rows.nodes := by
  obtain ⟨_, _, updated⟩ := bind_eq_ok.mp updated
  obtain ⟨_, _, updated⟩ := bind_eq_ok.mp updated
  cases Except.ok.inj updated
  refine ⟨?_, rfl⟩
  exact {
    nodes := ⟨id, (List.map_id _).symm, NodeKept.refl, fun _ _ => .inl rfl⟩
    works := by
      rw [List.map_map]
      refine List.map_congr_left fun row _ => ?_
      rw [Function.comp_apply, changeWhere]
      split
      · rename_i chosen
        rw [isRow, Bool.and_eq_true, decide_eq_true_eq, decide_eq_true_eq] at chosen
        exact Prod.ext (own.1.trans chosen.1.symm) (own.2.trans chosen.2.symm)
      · rfl
    dependencies := rfl
    settings := rfl
    waits := rfl
    scopes := rfl }

theorem Reshaped.trans (first : Reshaped input rows rows') (second : Reshaped input rows' rows'') :
    Reshaped input rows rows'' where
  nodes := by
    obtain ⟨change, before, kept, mode⟩ := first.nodes
    obtain ⟨change', after, kept', mode'⟩ := second.nodes
    refine ⟨change' ∘ change, by rw [after, before, List.map_map], fun record => ?_,
      fun record member => ?_⟩
    · have early := kept record
      have late := kept' (change record)
      refine ⟨late.projectId.trans early.projectId, late.workId.trans early.workId,
        late.kind.trans early.kind, fun other => ?_⟩
      rw [Function.comp_apply, late.outside (early.projectId ▸ other), early.outside other]
    · have held : change record ∈ rows'.nodes := by
        rw [before]
        exact List.mem_map_of_mem member
      rcases mode' _ held with same | ⟨project, work, asked⟩
      · rcases mode record member with same' | ⟨project, work, asked⟩
        · exact .inl (same.trans same')
        · exact .inr ⟨project, work, asked.trans (congrArg some same.symm)⟩
      · have early := kept record
        exact .inr ⟨early.projectId ▸ project, early.workId ▸ work, asked⟩
  works := second.works.trans first.works
  dependencies := second.dependencies.trans first.dependencies
  settings := second.settings.trans first.settings
  waits := second.waits.trans first.waits
  scopes := second.scopes.trans first.scopes

end Reshaping

section Forests
variable {projectId : String}

theorem v3ParentForWork_milestone {item : WorkItem} {parent : Option String}
    (milestone : item.kind = .milestone) (read : v3ParentForWork rows item = .ok parent) :
    parent = none := by
  unfold v3ParentForWork at read
  cases named : item.parentId with
  | none =>
    simp only [named] at read
    obtain ⟨_, _, read⟩ := bind_eq_ok.mp read
    exact (Except.ok.inj read).symm
  | some parentId =>
    simp only [named] at read
    obtain ⟨found, _, read⟩ := bind_eq_ok.mp read
    cases found with
    | none => cases read
    | some above =>
      obtain ⟨_, _, read⟩ := bind_eq_ok.mp read
      obtain ⟨_, task, read⟩ := bind_eq_ok.mp read
      exact absurd (by rw [milestone]; decide) (refuse_eq_ok.mp task)

def nodeUnder (projectId : String) (parent : Option String) (mode : ExecutionMode)
    (record : WorkNodeV3Record) : WorkNode :=
  ⟨⟨record.workId⟩, ⟨projectId⟩, record.decompositionKind, mode, parent.map TypedId.mk, ""⟩

theorem projectedNode_eq_ok {row : WorkRecord} {parent : Option String} {mode : ExecutionMode}
    {record : WorkNodeV3Record} {node : WorkNode}
    (projected : projectedNode rows projectId row parent mode record = .ok node) :
    node = nodeUnder projectId parent mode record ∧
      (record.decompositionKind = .milestone → parent = none) := by
  obtain ⟨_, kind, projected⟩ := bind_eq_ok.mp projected
  obtain ⟨expected, read, projected⟩ := bind_eq_ok.mp projected
  obtain ⟨_, same, projected⟩ := bind_eq_ok.mp projected
  refine ⟨(Except.ok.inj projected).symm, fun milestone => ?_⟩
  rw [not_not.mp (refuse_eq_ok.mp same)]
  refine v3ParentForWork_milestone ?_ read
  have own := not_not.mp (refuse_eq_ok.mp kind)
  rw [milestone] at own
  exact own

theorem storedNode_eq_ok {record : WorkNodeV3Record} {node : WorkNode}
    (stored : storedNode rows projectId record = .ok node) :
    node = nodeUnder projectId record.parentId record.executionMode record ∧
      (record.decompositionKind = .milestone → record.parentId = none) := by
  obtain ⟨row, _, stored⟩ := bind_eq_ok.mp stored
  exact projectedNode_eq_ok stored

theorem workNodeOf_under {record : WorkNodeV3Record}
    (root : record.decompositionKind = .milestone → record.parentId = none)
    (container : record.decompositionKind = .milestone → record.executionMode = .container) :
    workNodeOf record =
      .ok (nodeUnder record.projectId record.parentId record.executionMode record) := by
  unfold workNodeOf nodeUnder
  cases kind : record.decompositionKind with
  | milestone => simp only [root kind, container kind, if_true, Option.map_none]
  | task => rfl

theorem mem_workNodesV3 {records : List WorkNodeV3Record}
    (read : workNodesV3 rows projectId = .ok records) {record : WorkNodeV3Record} :
    record ∈ records ↔ record ∈ rows.nodes ∧ record.projectId = projectId := by
  obtain ⟨_, _, read⟩ := bind_eq_ok.mp read
  rw [← Except.ok.inj read, mem_sortOn, List.mem_filter, decide_eq_true_eq]

theorem read_of_checked {records : List WorkNodeV3Record} {nodes : List WorkNode}
    (read : workNodesV3 rows projectId = .ok records)
    (checked : List.Forall₂ (fun record node =>
      node = nodeUnder projectId record.parentId record.executionMode record ∧
        (record.decompositionKind = .milestone → record.parentId = none)) records nodes)
    (valid : validateDecomposition nodes = .ok ()) :
    workNodesDomainV3 rows projectId = .ok nodes := by
  have containers := (validateDecomposition_indexed valid).2
  have own (record : WorkNodeV3Record) (member : record ∈ records) :=
    ((mem_workNodesV3 read).mp member).2
  rw [workNodesDomainV3, read, ok_bind]
  refine mapM_eq_ok.mpr ?_
  clear read valid
  induction checked with
  | nil => exact .nil
  | cons same _ ih =>
    obtain ⟨rfl, root⟩ := same
    rw [List.forall_mem_cons] at containers own
    refine .cons ?_ (ih containers.2 own.2)
    rw [workNodeOf_under root containers.1, own.1]

theorem workNodeOf_eq_ok {record : WorkNodeV3Record} {node : WorkNode}
    (converted : workNodeOf record = .ok node) : node.id = ⟨record.workId⟩ ∧
      node.projectId = ⟨record.projectId⟩ ∧ node.executionMode = record.executionMode := by
  unfold workNodeOf at converted
  cases kind : record.decompositionKind with
  | milestone =>
    simp only [kind] at converted
    split at converted
    · rename_i container
      rw [← Except.ok.inj converted]
      exact ⟨rfl, rfl, container.symm⟩
    · cases converted
  | task =>
    simp only [kind] at converted
    rw [← Except.ok.inj converted]
    exact ⟨rfl, rfl, rfl⟩

theorem workNodesV3_map {change : WorkNodeV3Record → WorkNodeV3Record}
    {records : List WorkNodeV3Record} (changed : rows'.nodes = rows.nodes.map change)
    (project : ∀ record, (change record).projectId = record.projectId)
    (work : ∀ record, (change record).workId = record.workId)
    (read : workNodesV3 rows projectId = .ok records) :
    workNodesV3 rows' projectId = .ok (records.map change) := by
  obtain ⟨_, bound, read⟩ := bind_eq_ok.mp read
  rw [workNodesV3, bound, ok_bind, changed, List.filter_map, sortOn_map, ← Except.ok.inj read]
  have filter : (fun record : WorkNodeV3Record => decide (record.projectId = projectId)) ∘ change =
      fun record => decide (record.projectId = projectId) := by
    funext record
    rw [Function.comp_apply, project]
  simp only [filter, work]
  rfl

end Forests

section Edits
variable {input : PlanningWorkEditV3Input} {contract : ContractOutcome} {current : WorkRecord}

/-- A valid forest: what an edit must leave of its project. -/
def Forested (rows : PlanningRows) (projectId : String) : Prop :=
  ∃ nodes, workNodesDomainV3 rows projectId = .ok nodes ∧ validateDecomposition nodes = .ok ()

theorem editedNode_eq_ok {parent parentNode : Option String} {mode : ExecutionMode}
    {record : WorkNodeV3Record} {node : WorkNode}
    (edited : editedNode rows input current parent parentNode mode record = .ok node) :
    node.id = ⟨record.workId⟩ ∧
      if record.workId = input.workId then
        node = nodeUnder input.projectId parentNode mode record ∧
          (record.decompositionKind = .milestone → parentNode = none)
      else node = nodeUnder input.projectId record.parentId record.executionMode record ∧
          (record.decompositionKind = .milestone → record.parentId = none) := by
  unfold editedNode at edited
  split at edited
  · rename_i own
    have under := projectedNode_eq_ok edited
    exact ⟨congrArg WorkNode.id under.1, by rwa [if_pos own]⟩
  · rename_i other
    have under := storedNode_eq_ok edited
    exact ⟨congrArg WorkNode.id under.1, by rwa [if_neg other]⟩

theorem editedNodes_ids {parent parentNode : Option String} {mode : ExecutionMode}
    {records : List WorkNodeV3Record} {nodes : List WorkNode}
    (edited : List.Forall₂ (fun record node =>
      editedNode rows input current parent parentNode mode record = .ok node) records nodes) :
    nodes.map WorkNode.id = (records.map WorkNodeV3Record.workId).map TypedId.mk := by
  induction edited with
  | nil => rfl
  | @cons record node _ _ first _ ih =>
    have id : node.id = ⟨record.workId⟩ := (editedNode_eq_ok first).1
    rw [List.map_cons, List.map_cons, List.map_cons, ih, id]

theorem sameRow (found : rows.works.find?
      (fun row => row.projectId = input.projectId ∧ row.workId = input.workId) = some current) :
    current.projectId = input.projectId ∧ current.workId = input.workId := by
  simpa using List.find?_some found

theorem editNodeWork_eq_ok (own : current.projectId = input.projectId ∧ current.workId = input.workId)
    (edited : editNodeWork rows context input contract current = .ok rows') :
    Reshaped input rows rows' ∧ Forested rows' input.projectId := by
  obtain ⟨found, readNode, edited⟩ := bind_eq_ok.mp edited
  cases found with
  | none => cases edited
  | some node =>
  obtain ⟨parentNode, _, edited⟩ := bind_eq_ok.mp edited
  obtain ⟨records, readRecords, edited⟩ := bind_eq_ok.mp edited
  obtain ⟨nodes, converted, edited⟩ := bind_eq_ok.mp edited
  obtain ⟨_, valid, edited⟩ := bind_eq_ok.mp edited
  obtain ⟨middle, worked, edited⟩ := bind_eq_ok.mp edited
  obtain ⟨_, _, edited⟩ := bind_eq_ok.mp edited
  obtain ⟨_, _, edited⟩ := bind_eq_ok.mp edited
  obtain ⟨_, _, edited⟩ := bind_eq_ok.mp edited
  rw [← Except.ok.inj edited]
  have valid : validateDecomposition nodes = .ok () := mapError_eq_ok.mp valid
  have converted := mapM_eq_ok.mp converted
  -- the checked forest has each id once, so the edited record is the one that was read
  have distinct : (records.map WorkNodeV3Record.workId).Nodup := by
    have typed := (validateDecomposition_indexed valid).1
    rw [editedNodes_ids converted] at typed
    exact typed.of_map
  have listed : node ∈ records ∧ node.workId = input.workId := by
    obtain ⟨_, _, readNode⟩ := bind_eq_ok.mp readNode
    obtain ⟨_, _, readNode⟩ := bind_eq_ok.mp readNode
    have found := Except.ok.inj readNode
    have key := List.find?_some found
    rw [decide_eq_true_eq] at key
    exact ⟨(mem_workNodesV3 readRecords).mpr ⟨List.mem_of_find?_eq_some found, key.1⟩, key.2⟩
  have unique (record : WorkNodeV3Record) (member : record ∈ rows.nodes)
      (project : record.projectId = input.projectId) (work : record.workId = input.workId) :
      record = node :=
    List.inj_on_of_nodup_map distinct ((mem_workNodesV3 readRecords).mpr ⟨member, project⟩)
      listed.1 (work.trans listed.2.symm)
  have before : Reshaped input rows middle ∧ middle.nodes = rows.nodes := by
    split at worked
    · exact updateWork_reshaped own worked
    · rw [← Except.ok.inj worked]
      exact ⟨.refl rows, rfl⟩
  constructor
  · refine before.1.trans (updateNode_reshaped (fun record project => ?_)
      fun record member project work => ?_)
    · exact ⟨rfl, rfl, rfl, fun other => absurd project other⟩
    · rw [before.2] at member
      rw [unique record member project work]
      unfold ModeKept editedMode
      cases asked : input.executionMode.bind executionModeOf with
      | none => exact .inl rfl
      | some mode =>
        have key := unique record member project work
        exact .inr ⟨key ▸ project, key ▸ work, rfl⟩
  · let change : WorkNodeV3Record → WorkNodeV3Record :=
      changeWhere (isNode input.projectId input.workId) fun record =>
        { record with
          parentId := parentNode
          executionMode := editedMode input node
          updatedAt := input.updatedAt }
    refine ⟨nodes, read_of_checked (@workNodesV3_map rows _ _ change records ?_ ?_ ?_ readRecords)
      ?_ valid, valid⟩
    · rw [updateNode, before.2]
    · intro record
      change (changeWhere _ _ record).projectId = _
      unfold changeWhere
      split <;> rfl
    · intro record
      change (changeWhere _ _ record).workId = _
      unfold changeWhere
      split <;> rfl
    · rw [List.forall₂_map_left_iff]
      have inside (record : WorkNodeV3Record) (member : record ∈ records) :
          record.projectId = input.projectId := ((mem_workNodesV3 readRecords).mp member).2
      have paired := (List.forall₂_and_left records nodes).mpr ⟨inside, converted⟩
      refine paired.imp fun record converted ⟨project, edited⟩ => ?_
      have under := (editedNode_eq_ok edited).2
      change converted = nodeUnder _ (changeWhere _ _ record).parentId
        (changeWhere _ _ record).executionMode (changeWhere _ _ record) ∧
          ((changeWhere _ _ record).decompositionKind = _ → (changeWhere _ _ record).parentId = none)
      unfold changeWhere isNode
      by_cases work : record.workId = input.workId
      · rw [if_pos work] at under
        simp only [project, work, decide_true, Bool.and_self, if_true]
        exact ⟨by rw [under.1]; simp [nodeUnder, work], under.2⟩
      · rw [if_neg work] at under
        simp only [work, decide_false, Bool.and_false, Bool.false_eq_true, if_false]
        exact under

theorem moveTask_reshaped {target child : String}
    (moved : moveTask input target rows child = .ok rows') : Reshaped input rows rows' := by
  obtain ⟨_, _, moved⟩ := bind_eq_ok.mp moved
  rw [← Except.ok.inj moved]
  refine updateNode_reshaped (fun record project => ?_) fun record _ _ _ => .inl rfl
  exact ⟨rfl, rfl, rfl, fun other => absurd project other⟩

theorem editSprintWorkV3_eq_ok (own : current.projectId = input.projectId ∧ current.workId = input.workId)
    (edited : editSprintWorkV3 rows input current = .ok rows') :
    Reshaped input rows rows' ∧ Forested rows' input.projectId := by
  obtain ⟨_, _, edited⟩ := bind_eq_ok.mp edited
  cases target : input.parentId.getD current.parentId with
  | none =>
    simp only [target] at edited
    cases edited
  | some target =>
    simp only [target] at edited
    obtain ⟨_, _, edited⟩ := bind_eq_ok.mp edited
    obtain ⟨_, _, edited⟩ := bind_eq_ok.mp edited
    obtain ⟨_, _, edited⟩ := bind_eq_ok.mp edited
    obtain ⟨_, _, edited⟩ := bind_eq_ok.mp edited
    obtain ⟨_, _, edited⟩ := bind_eq_ok.mp edited
    obtain ⟨middle, worked, edited⟩ := bind_eq_ok.mp edited
    obtain ⟨last, moved, edited⟩ := bind_eq_ok.mp edited
    obtain ⟨_, validated, edited⟩ := bind_eq_ok.mp edited
    rw [← Except.ok.inj edited]
    have before := (updateWork_reshaped own worked).1
    constructor
    · split at moved
      · refine foldlM_invariant (fun s child s' (kept : Reshaped input rows s) moved => ?_) before
          moved
        exact kept.trans (moveTask_reshaped moved)
      · rw [← Except.ok.inj moved]
        exact before
    · obtain ⟨records, read, validated⟩ := bind_eq_ok.mp validated
      obtain ⟨nodes, converted, valid⟩ := bind_eq_ok.mp validated
      have valid : validateDecomposition nodes = .ok () := mapError_eq_ok.mp valid
      refine ⟨nodes, read_of_checked read ?_ valid, valid⟩
      exact (mapM_eq_ok.mp converted).imp fun record node stored => storedNode_eq_ok stored

theorem writeEdit_eq_ok (edited : writeEdit rows context input contract = .ok rows') :
    Reshaped input rows rows' ∧ Forested rows' input.projectId := by
  obtain ⟨_, _, edited⟩ := bind_eq_ok.mp edited
  obtain ⟨found, read, edited⟩ := bind_eq_ok.mp edited
  cases found with
  | none => cases edited
  | some current =>
    obtain ⟨_, _, edited⟩ := bind_eq_ok.mp edited
    obtain ⟨_, _, read⟩ := bind_eq_ok.mp read
    obtain ⟨_, _, read⟩ := bind_eq_ok.mp read
    have own := sameRow (Except.ok.inj read)
    split at edited
    · obtain ⟨_, _, edited⟩ := bind_eq_ok.mp edited
      obtain ⟨_, _, edited⟩ := bind_eq_ok.mp edited
      obtain ⟨last, sprint, edited⟩ := bind_eq_ok.mp edited
      obtain ⟨_, _, edited⟩ := bind_eq_ok.mp edited
      rw [← Except.ok.inj edited]
      exact editSprintWorkV3_eq_ok own sprint
    · exact editNodeWork_eq_ok own edited

theorem executionModeOf_container {text : String}
    (named : executionModeOf text = some .container) : text = "container" := by
  unfold executionModeOf at named
  split at named
  · cases named
  · rfl
  · cases named

theorem Reshaped.alike {projectId : String} {nodes nodes' : List WorkNode}
    (reshaped : Reshaped input rows rows') (read : workNodesDomainV3 rows projectId = .ok nodes)
    (read' : workNodesDomainV3 rows' projectId = .ok nodes') :
    List.Forall₂ (Alike fun id => ¬ (projectId = input.projectId ∧ id.value = input.workId ∧
      input.executionMode = some "container")) nodes nodes' := by
  obtain ⟨change, changed, kept, mode⟩ := reshaped.nodes
  obtain ⟨records, readRecords, converted⟩ := bind_eq_ok.mp read
  rw [workNodesDomainV3, workNodesV3_map changed (fun record => (kept record).projectId)
    (fun record => (kept record).workId) readRecords, ok_bind] at read'
  have pairs := mapM_eq_ok.mp converted
  have pairs' := List.forall₂_map_left_iff.mp (mapM_eq_ok.mp read')
  have inside (record : WorkNodeV3Record) (member : record ∈ records) :=
    (mem_workNodesV3 readRecords).mp member
  clear readRecords read read' converted
  induction pairs generalizing nodes' with
  | nil =>
    cases pairs'
    exact .nil
  | @cons record node _ _ first _ ih =>
    cases pairs' with
    | @cons _ node' _ _ first' rest' =>
    rw [List.forall_mem_cons] at inside
    refine .cons ?_ (ih rest' inside.2)
    obtain ⟨member, own⟩ := inside.1
    have parts := workNodeOf_eq_ok first
    have parts' := workNodeOf_eq_ok first'
    refine ⟨?_, ?_, fun named => ?_⟩
    · rw [parts.1, parts'.1, (kept record).workId]
    · rw [parts.2.1, parts'.2.1, (kept record).projectId]
    · intro direct
      rw [WorkNode.isDirect, parts.2.2] at direct
      rw [WorkNode.isDirect, parts'.2.2]
      rcases mode record member with same | ⟨project, work, asked⟩
      · rwa [same]
      · obtain ⟨text, given, named'⟩ := Option.bind_eq_some_iff.mp asked
        cases changed : (change record).executionMode with
        | direct => rfl
        | container =>
          rw [changed] at named'
          refine absurd ⟨own.symm.trans project, ?_, ?_⟩ named
          · rw [parts.1]
            exact work
          · rw [given, executionModeOf_container named']

end Edits

end Boreal.Store
