/- When an open wait can be closed: its list was stored in order, and the civil-time setting that it
was planned against is still the current one. -/
import BorealWork.WaitReadability

namespace Boreal.Store
open Drain JsonValue WorkModel Sorting

variable {authority : Authority} {checksum : Value → String} {store : SqliteStore PlanningRows}
  {rows rows' : PlanningRows} {context : V3MutationContext} {projectId : String}
  {log : List ExternalWait}

/-- What the rows keep true of every appended wait. -/
structure Anchored (rows : PlanningRows) (wait : ExternalWait) : Prop where
  named : trimsEmpty wait.id.value = false
  works : ∀ affected ∈ wait.affectedWorkIds, bindText affected.value = .ok () ∧
    (wait.projectId.value, affected.value) ∈ rows.works.map workKey
  first : wait.state = .opened → wait.revision = 1

theorem anyWork_iff {row : ExternalWaitScopeRow} :
    rows.works.any (fun work => work.projectId = row.projectId ∧
      work.workId = row.affectedWorkId) = true ↔
      (row.projectId, row.affectedWorkId) ∈ rows.works.map workKey := by
  rw [List.any_eq_true, List.mem_map]
  refine exists_congr fun work => and_congr_right fun _ => ?_
  rw [decide_eq_true_eq, workKey, Prod.mk.injEq]

theorem insertWaitScopes_checked {edges : List ExternalWaitScopeRow}
    (inserted : edges.foldlM insertWaitScope rows = .ok rows') :
    ∀ edge ∈ edges, bindText edge.affectedWorkId = .ok () ∧
      (edge.projectId, edge.affectedWorkId) ∈ rows.works.map workKey := by
  induction edges generalizing rows with
  | nil => exact fun edge member => absurd member List.not_mem_nil
  | cons edge rest ih =>
    obtain ⟨next, first, inserted⟩ := bind_eq_ok.mp inserted
    obtain ⟨_, _, first⟩ := bind_eq_ok.mp first
    obtain ⟨_, _, first⟩ := bind_eq_ok.mp first
    obtain ⟨_, _, first⟩ := bind_eq_ok.mp first
    obtain ⟨_, bound, first⟩ := bind_eq_ok.mp first
    obtain ⟨_, _, first⟩ := bind_eq_ok.mp first
    obtain ⟨_, known, first⟩ := bind_eq_ok.mp first
    rw [List.forall_mem_cons]
    refine ⟨⟨bound, anyWork_iff.mp (not_not.mp (refuse_eq_ok.mp known))⟩, ?_⟩
    have later := ih inserted
    rw [← Except.ok.inj first] at later
    exact later

theorem admitted_first {input : ExternalWaitV1Input} {nodes : List WorkNode}
    {dependencies : List DirectDependency} {current : Option ExternalWait}
    (valid : input.wait.validate nodes dependencies = .ok ())
    (admitted : admitTransition context input nodes dependencies current = .ok ())
    (next : input.expectedWaitRevision + 1 = input.wait.revision)
    (opened : input.wait.state = .opened) : input.wait.revision = 1 := by
  cases current with
  | none =>
    have created := refuse_eq_ok.mp admitted
    rw [not_or, not_not] at created
    rw [← next, created.1]
  | some current =>
    obtain ⟨_, _, admitted⟩ := bind_eq_ok.mp admitted
    obtain ⟨_, _, admitted⟩ := bind_eq_ok.mp admitted
    obtain ⟨_, _, _, state⟩ := ExternalWait.validate_eq_ok.mp valid
    cases resolution : input.wait.resolution with
    | none => simp [resolution] at admitted
    | some resolution =>
      rw [ExternalWait.validateState, opened, ‹input.wait.resolution = some _›] at state
      cases state

theorem writeExternalWait_anchored {input : ExternalWaitV1Input} {known : Prop} [Decidable known]
    (next : input.expectedWaitRevision + 1 = input.wait.revision)
    (written : writeExternalWait rows context input known = .ok rows') : Anchored rows' input.wait := by
  have facts := writeExternalWait_eq_ok written
  obtain ⟨nodes, dependencies, _, _, valid, current, _, _, admitted⟩ := facts.valid
  obtain ⟨origin, added⟩ := facts.added
  obtain ⟨_, _, written⟩ := bind_eq_ok.mp written
  obtain ⟨_, _, written⟩ := bind_eq_ok.mp written
  obtain ⟨_, _, written⟩ := bind_eq_ok.mp written
  obtain ⟨_, _, written⟩ := bind_eq_ok.mp written
  obtain ⟨_, _, written⟩ := bind_eq_ok.mp written
  obtain ⟨_, _, written⟩ := bind_eq_ok.mp written
  obtain ⟨_, _, written⟩ := bind_eq_ok.mp written
  obtain ⟨middle, inserted, written⟩ := bind_eq_ok.mp written
  have works : rows'.works = middle.works := by rw [insertWaitScopes_eq_ok written]
  exact {
    named := facts.named
    works := by
      intro affected member
      have checked := insertWaitScopes_checked written _ (List.mem_map_of_mem member)
      rw [works]
      exact checked
    first := admitted_first valid admitted next }

def ValidSettings (rows : PlanningRows) (projectId : String) : Prop :=
  ∀ row ∈ rows.settings, row.setting.projectId.value = projectId → row.setting.validate = .ok ()

def currentSetting (rows : PlanningRows) (projectId : String) : Option ProjectCivilTimeSetting :=
  (maxBy (fun row : CivilTimeRow => row.setting.revision)
    (rows.settings.filter (·.setting.projectId.value = projectId))).map CivilTimeRow.setting

theorem projectCivilTimeV1_valid (valid : ValidSettings rows projectId)
    (named : bindText projectId = .ok ()) :
    projectCivilTimeV1 rows projectId = .ok (currentSetting rows projectId) := by
  rw [projectCivilTimeV1, named, ok_bind]
  refine bind_eq_ok.mpr ⟨(), option_forM_eq_ok.mpr fun row found => mapError_eq_ok.mpr ?_, rfl⟩
  have member := (maxBy_spec (Option.mem_def.mp found)).mem
  rw [List.mem_filter, decide_eq_true_eq] at member
  exact valid row member.1 member.2

theorem checkSettingRevision_iff {wait : ExternalWait} (valid : ValidSettings rows projectId)
    (own : wait.projectId.value = projectId) (named : bindText projectId = .ok ()) :
    checkSettingRevision rows wait = .ok () ↔ ∀ revision ∈ wait.civilTimeSettingRevision,
      (currentSetting rows projectId).map ProjectCivilTimeSetting.revision = some revision := by
  rw [checkSettingRevision, option_forM_eq_ok]
  refine forall_congr' fun revision => imp_congr_right fun _ => ?_
  rw [own, projectCivilTimeV1_valid valid named, ok_bind, refuse_eq_ok, not_not]

structure Kept (rows : PlanningRows) (projectId : String) (log : List ExternalWait) : Prop where
  ledger : Ledger rows projectId log
  anchored : ∀ wait ∈ log, Anchored rows wait
  settings : ValidSettings rows projectId

theorem Anchored.works_kept {wait : ExternalWait} (anchored : Anchored rows wait)
    (works : rows'.works.map workKey = rows.works.map workKey) : Anchored rows' wait :=
  ⟨anchored.named, works.symm ▸ anchored.works, anchored.first⟩

theorem checkSettingRequest_valid {bound : V3MutationContext} {input : ProjectCivilTimeV1Input}
    (checked : checkSettingRequest bound input = .ok ()) : input.setting.validate = .ok () := by
  obtain ⟨_, _, checked⟩ := bind_eq_ok.mp checked
  obtain ⟨_, valid, checked⟩ := bind_eq_ok.mp checked
  exact mapError_eq_ok.mp valid

theorem anchored_performed (anchored : ∀ wait ∈ log, Anchored store.rows wait)
    (call : PlanningCall) : ∀ wait ∈ log ++ (appendedWait projectId
        (Machines.entry (performPlanning authority checksum) store call)).toList,
      Anchored (performPlanning authority checksum store call).2.rows wait := by
  rcases performPlanning_outcome store call with ⟨same, none⟩ | ⟨checked, result, answered, commits⟩
  · rw [same, appendedWait_uncommitted none, Option.toList_none, List.append_nil]
    exact anchored
  · have written := commits.written
    rw [List.forall_mem_append]
    cases call with
    | appendWait context input =>
      obtain ⟨origin, added⟩ := (writeExternalWait_eq_ok written).added
      constructor
      · exact fun wait member => (anchored wait member).works_kept (by rw [added])
      · intro wait member
        have own : wait = input.wait := by
          simp only [appendedWait, Machines.entry, answered] at member
          split at member
          · exact List.mem_singleton.mp member
          · cases member
        rw [own]
        exact writeExternalWait_anchored (checkWaitRequest_next checked) written
    | updateCivilTime context input =>
      obtain ⟨_, origin, rows⟩ := writeProjectCivilTime_eq_ok written
      exact ⟨fun wait member => (anchored wait member).works_kept (by rw [rows]),
        fun wait member => absurd member List.not_mem_nil⟩
    | editWork context input contract =>
      obtain ⟨reshaped, _⟩ := writeEdit_eq_ok written
      exact ⟨fun wait member => (anchored wait member).works_kept reshaped.works,
        fun wait member => absurd member List.not_mem_nil⟩

theorem settings_performed (valid : ValidSettings store.rows projectId) (call : PlanningCall) :
    ValidSettings (performPlanning authority checksum store call).2.rows projectId := by
  rcases performPlanning_outcome store call with ⟨same, none⟩ | ⟨checked, result, answered, commits⟩
  · rw [same]
    exact valid
  · have written := commits.written
    cases call with
    | appendWait context input =>
      obtain ⟨origin, added⟩ := (writeExternalWait_eq_ok written).added
      rw [added]
      exact valid
    | updateCivilTime context input =>
      obtain ⟨_, origin, rows⟩ := writeProjectCivilTime_eq_ok written
      rw [rows, ValidSettings, List.forall_mem_append, List.forall_mem_singleton]
      exact ⟨valid, fun _ => checkSettingRequest_valid checked⟩
    | editWork context input contract =>
      obtain ⟨reshaped, _⟩ := writeEdit_eq_ok written
      rw [ValidSettings, reshaped.settings]
      exact valid

theorem Kept.performed (kept : Kept store.rows projectId log) (call : PlanningCall) :
    Kept (performPlanning authority checksum store call).2.rows projectId
      (log ++ (appendedWait projectId
        (Machines.entry (performPlanning authority checksum) store call)).toList) :=
  ⟨kept.ledger.performed call, anchored_performed kept.anchored call, settings_performed kept.settings call⟩

theorem Kept.run {start : SqliteStore PlanningRows} (fresh : NoWaits start.rows projectId)
    (settings : ValidSettings start.rows projectId) (calls : List PlanningCall) :
    Kept (Machines.final (performPlanning authority checksum) start calls).rows projectId
      (appendedWaits projectId
        (Machines.history (performPlanning authority checksum) start calls)) := by
  refine @Machines.history_ledger _ _ _ (performPlanning authority checksum)
    (fun history store => Kept store.rows projectId (appendedWaits projectId history)) start ?_
    calls fun history store call _ kept => ?_
  · exact ⟨.nil fresh.waits fresh.scopes, fun wait member => absurd member List.not_mem_nil, settings⟩
  · rw [appendedWaits_append]
    exact kept.performed call

section Closing
variable {wait closed : ExternalWait} {state : ExternalWaitState}
  {resolution : ExternalWaitResolution}

def Matches (state : ExternalWaitState) (outcome : ExternalWaitOutcome) : Prop :=
  state = .resolved ∧ outcome ≠ .cancelled ∨ state = .cancelled ∧ outcome = .cancelled

theorem close_eq_ok (closes : wait.close state resolution = .ok closed) :
    wait.state = .opened ∧ wait.revision + 1 < 2 ^ 64 ∧
      closed = { wait with
        revision := wait.revision + 1
        state := state
        resolution := some resolution } := by
  obtain ⟨_, opened, closes⟩ := bind_eq_ok.mp closes
  obtain ⟨_, room, closes⟩ := bind_eq_ok.mp closes
  exact ⟨not_not.mp (refuse_eq_ok.mp opened), not_le.mp (refuse_eq_ok.mp room), (Except.ok.inj closes).symm⟩

theorem sameExternalWaitScope_close (closes : wait.close state resolution = .ok closed) :
    sameExternalWaitScope wait closed = true := by
  obtain ⟨_, _, rfl⟩ := close_eq_ok closes
  simp [sameExternalWaitScope]

theorem validateAffected_close {nodes : List WorkNode} {dependencies : List DirectDependency}
    {seen l : List WorkId} {revision : ℕ} {opened : Option ExternalWaitResolution} :
    ExternalWait.validateAffected { wait with
        revision := revision
        state := state
        resolution := opened } nodes dependencies seen l =
      wait.validateAffected nodes dependencies seen l := by
  induction l generalizing seen with
  | nil => rfl
  | cons workId rest ih =>
    simp only [ExternalWait.validateAffected]
    cases nodes.find? (·.id = workId) with
    | none => rfl
    | some node => simp only [ih]

theorem validate_close {nodes : List WorkNode} {dependencies : List DirectDependency}
    (closes : wait.close state resolution = .ok closed) (suits : Matches state resolution.outcome)
    (resolves : resolution.validate = .ok ()) (valid : wait.validate nodes dependencies = .ok ()) :
    closed.validate nodes dependencies = .ok () := by
  obtain ⟨_, _, rfl⟩ := close_eq_ok closes
  obtain ⟨graph, content, scope, _⟩ := ExternalWait.validate_eq_ok.mp valid
  refine ExternalWait.validate_eq_ok.mpr ⟨graph, ?_, ?_, ?_⟩
  · obtain ⟨_, _, content⟩ := bind_eq_ok.mp content
    exact bind_eq_ok.mpr ⟨(), refuse_of_not (Nat.succ_ne_zero _), content⟩
  · unfold ExternalWait.validateScope at scope ⊢
    simp only [validateAffected_close]
    exact scope
  · rcases suits with ⟨rfl, outcome⟩ | ⟨rfl, outcome⟩
    · change (if resolution.outcome ≠ .cancelled then resolution.validate else _) = _
      rw [if_pos outcome]
      exact resolves
    · change (if resolution.outcome = .cancelled then resolution.validate else _) = _
      rw [if_pos outcome]
      exact resolves

theorem insertWaitScopes_succeed {edges : List ExternalWaitScopeRow} (distinct : edges.Nodup)
    (bound : ∀ edge ∈ edges, bindText edge.projectId = .ok () ∧ bindText edge.waitId = .ok () ∧
      bindI64 edge.revision = .ok () ∧ bindText edge.affectedWorkId = .ok () ∧
      (edge.projectId, edge.affectedWorkId) ∈ rows.works.map workKey)
    (apart : ∀ edge ∈ edges, edge ∉ rows.scopes) :
    edges.foldlM insertWaitScope rows = .ok { rows with scopes := rows.scopes ++ edges } := by
  induction edges generalizing rows with
  | nil =>
    rw [List.append_nil]
    rfl
  | cons edge rest ih =>
    rw [List.nodup_cons] at distinct
    rw [List.forall_mem_cons] at bound apart
    obtain ⟨project, named, revision, affected, known⟩ := bound.1
    have first : insertWaitScope rows edge =
        .ok { rows with scopes := rows.scopes ++ [edge] } := by
      rw [insertWaitScope, project, ok_bind, named, ok_bind, revision, ok_bind, affected, ok_bind,
        refuse_of_not apart.1, ok_bind, refuse_of_not (not_not.mpr (anyWork_iff.mpr known)),
        ok_bind]
      rfl
    have later := @ih { rows with scopes := rows.scopes ++ [edge] } distinct.2 bound.2 ?_
    · rw [List.foldlM_cons, first, ok_bind, later]
      simp only [List.append_assoc, List.singleton_append]
    · intro other member held
      rcases List.mem_append.mp held with early | own
      · exact apart.2 other member early
      · rw [List.mem_singleton.mp own] at member
        exact distinct.1 member

/-- The request's part of a wait's row. -/
structure Requested (context : V3MutationContext) : Prop where
  expected : ∃ created, context.expectedRevision = some created ∧ bindI64 created = .ok ()
  operationId : bindText context.operationId = .ok () ∧ trimsEmpty context.operationId = false
  digest : bindText context.requestDigest = .ok () ∧ trimsEmpty context.requestDigest = false

theorem insertExternalWait_succeeds {known : Prop} [Decidable known] (requested : Requested context)
    (bound : bindText wait.projectId.value = .ok () ∧ bindText wait.id.value = .ok () ∧
      bindI64 wait.revision = .ok ()) (named : trimsEmpty wait.id.value = false)
    (unique : ∀ row ∈ rows.waits, (row.projectId, row.waitId, row.revision) ≠
      (wait.projectId.value, wait.id.value, wait.revision)) (exists_project : known) :
    ∃ origin, insertExternalWait rows context known wait = .ok { rows with
      waits := rows.waits ++ [⟨wait.projectId.value, wait.id.value, wait.revision,
        encodeExternalWait wait, origin⟩] } := by
  obtain ⟨created, asked, small⟩ := requested.expected
  refine ⟨⟨created, context.operationId, context.requestDigest⟩, ?_⟩
  have absent : ¬ (wait.projectId.value, wait.id.value, wait.revision) ∈
      rows.waits.map fun row => (row.projectId, row.waitId, row.revision) := by
    intro member
    obtain ⟨row, held, same⟩ := List.mem_map.mp member
    exact unique row held same
  rw [insertExternalWait, bound.1, ok_bind, bound.2.1, ok_bind, bound.2.2, ok_bind]
  simp only [asked]
  rw [small, ok_bind, requested.operationId.1, ok_bind, requested.digest.1, ok_bind,
    refuse_of_not (by rw [named]; decide), ok_bind,
    refuse_of_not (by rw [requested.operationId.2]; decide), ok_bind,
    refuse_of_not (by rw [requested.digest.2]; decide), ok_bind, refuse_of_not absent, ok_bind,
    refuse_of_not (not_not.mpr exists_project), ok_bind]
  rfl

theorem Ledger.mem_row (ledger : Ledger rows projectId log) {row : ExternalWaitRow}
    (held : row ∈ rows.waits) (own : row.projectId = projectId) :
    ∃ wait ∈ log, wait.id.value = row.waitId ∧ wait.revision = row.revision := by
  have content : row.content ∈ log.map waitContent := by
    rw [← ledger.waits]
    exact List.mem_map_of_mem (List.mem_filter.mpr ⟨held, decide_eq_true own⟩)
  obtain ⟨wait, member, same⟩ := List.mem_map.mp content
  obtain ⟨id, same⟩ := Prod.mk.inj same
  exact ⟨wait, member, id, (Prod.mk.inj same).1⟩

theorem Ledger.mem_scope (ledger : Ledger rows projectId log) {row : ExternalWaitScopeRow}
    (held : row ∈ rows.scopes) (own : row.projectId = projectId) :
    ∃ wait ∈ log, wait.id.value = row.waitId ∧ wait.revision = row.revision := by
  have listed : row ∈ log.flatMap scopeRows := by
    rw [← ledger.scopes]
    exact List.mem_filter.mpr ⟨held, decide_eq_true own⟩
  obtain ⟨wait, member, inside⟩ := List.mem_flatMap.mp listed
  obtain ⟨affected, _, rfl⟩ := List.mem_map.mp inside
  exact ⟨wait, member, rfl, rfl⟩

variable {known : Prop} [Decidable known] {nodes : List WorkNode}
  {dependencies : List DirectDependency}

theorem close_written (kept : Kept rows projectId log) (last : lastOf log wait.id = some wait)
    (readNodes : workNodesDomainV3 rows projectId = .ok nodes)
    (readDependencies : workDependenciesDomainV3 rows projectId = .ok dependencies)
    (valid : wait.validate nodes dependencies = .ok ())
    (closes : wait.close state resolution = .ok closed) (suits : Matches state resolution.outcome)
    (resolves : resolution.validate = .ok ()) (recordedBy : resolution.recordedBy = context.actorId)
    (recordedAs : resolution.recordedAs = .operator) (requested : Requested context)
    (exists_project : known) (sorted : InOrder wait)
    (setting : ∀ revision ∈ wait.civilTimeSettingRevision,
      (currentSetting rows projectId).map ProjectCivilTimeSetting.revision = some revision) :
    ∃ rows', writeExternalWait rows context ⟨closed, wait.revision⟩ known = .ok rows' := by
  obtain ⟨member, _⟩ := lastOf_mem last
  have own := kept.ledger.own wait member
  obtain ⟨project, named, _⟩ := kept.ledger.bound wait member
  have anchored := kept.anchored wait member
  have validClosed := validate_close closes suits resolves valid
  have same := sameExternalWaitScope_close closes
  obtain ⟨opened, _, rfl⟩ := close_eq_ok closes
  have first := anchored.first opened
  have distinct : wait.affectedWorkIds.Nodup := by
    obtain ⟨_, _, scope, _⟩ := ExternalWait.validate_eq_ok.mp valid
    unfold ExternalWait.validateScope at scope
    cases found : nodes.find? (·.id = wait.sourceWorkId) with
    | none => simp [found] at scope
    | some source =>
      simp only [found] at scope
      obtain ⟨_, _, scope⟩ := bind_eq_ok.mp scope
      obtain ⟨_, _, scope⟩ := bind_eq_ok.mp scope
      exact (ExternalWait.validateAffected_nodup scope).1
  have older {other : ExternalWait} (held : other ∈ log) (id : other.id.value = wait.id.value) :
      other.revision ≤ wait.revision :=
    lastOf_greatest kept.ledger.growing last held (TypedId.value_injective id)
  have small : bindI64 (wait.revision + 1) = .ok () := by
    refine bindI64_of_le ?_
    rw [first]
    decide
  subst own
  have admitted : admitTransition context ⟨{ wait with
        revision := wait.revision + 1
        state := state
        resolution := some resolution }, wait.revision⟩ nodes dependencies (some wait) = .ok () := by
    refine bind_eq_ok.mpr ⟨(), mapError_eq_ok.mpr valid, bind_eq_ok.mpr ⟨(), refuse_of_not ?_, ?_⟩⟩
    · rw [not_or, not_not, not_not]
      exact ⟨opened, same⟩
    · refine refuse_of_not ?_
      rw [not_or, not_not, not_not]
      exact ⟨recordedBy, recordedAs⟩
  have current : checkSettingRevision rows { wait with
        revision := wait.revision + 1
        state := state
        resolution := some resolution } = .ok () :=
    (checkSettingRevision_iff kept.settings rfl project).mpr setting
  obtain ⟨origin, inserted⟩ := @insertExternalWait_succeeds rows context { wait with
        revision := wait.revision + 1
        state := state
        resolution := some resolution } known _ requested ⟨project, named, small⟩ anchored.named
    (fun row held clash => by
      obtain ⟨at_project, clash⟩ := Prod.mk.inj clash
      obtain ⟨at_id, at_revision⟩ := Prod.mk.inj clash
      obtain ⟨other, listed, id, revision⟩ := kept.ledger.mem_row held at_project
      have below := older listed (id.trans at_id)
      change row.revision = wait.revision + 1 at at_revision
      omega) exists_project
  have scopes := @insertWaitScopes_succeed { rows with
      waits := rows.waits ++ [⟨wait.projectId.value, wait.id.value, wait.revision + 1,
        encodeExternalWait { wait with
          revision := wait.revision + 1
          state := state
          resolution := some resolution }, origin⟩] }
    (scopeRows { wait with
      revision := wait.revision + 1
      state := state
      resolution := some resolution }) ?_ ?_ ?_
  · refine ⟨_, bind_eq_ok.mpr ⟨nodes, readNodes, bind_eq_ok.mpr ⟨dependencies, readDependencies,
      bind_eq_ok.mpr ⟨(), mapError_eq_ok.mpr validClosed, bind_eq_ok.mpr ⟨some wait,
        (kept.ledger.byId last).1 sorted, bind_eq_ok.mpr ⟨(), refuse_of_not (not_not.mpr rfl),
          bind_eq_ok.mpr ⟨(), admitted, bind_eq_ok.mpr ⟨(), current, bind_eq_ok.mpr ⟨_, inserted,
            scopes⟩⟩⟩⟩⟩⟩⟩⟩⟩
  · refine List.Nodup.map (fun a b clash => TypedId.value_injective ?_) distinct
    exact congrArg ExternalWaitScopeRow.affectedWorkId clash
  · intro edge listed
    obtain ⟨affected, inside, rfl⟩ := List.mem_map.mp listed
    obtain ⟨bound, work⟩ := anchored.works affected inside
    exact ⟨project, named, small, bound, work⟩
  · intro edge listed held
    obtain ⟨affected, inside, rfl⟩ := List.mem_map.mp listed
    obtain ⟨other, listed, id, revision⟩ := kept.ledger.mem_scope held rfl
    have below := older listed id
    change other.revision = wait.revision + 1 at revision
    omega

theorem close_conditions (kept : Kept rows projectId log) (last : lastOf log wait.id = some wait)
    (closes : wait.close state resolution = .ok closed)
    (written : writeExternalWait rows context ⟨closed, wait.revision⟩ known = .ok rows') :
    InOrder wait ∧ ∀ revision ∈ wait.civilTimeSettingRevision,
      (currentSetting rows projectId).map ProjectCivilTimeSetting.revision = some revision := by
  obtain ⟨member, _⟩ := lastOf_mem last
  have own := kept.ledger.own wait member
  have project := (kept.ledger.bound wait member).1
  have facts := writeExternalWait_eq_ok written
  obtain ⟨_, _, rfl⟩ := close_eq_ok closes
  constructor
  · obtain ⟨_, _, _, _, _, current, read, _⟩ := facts.valid
    by_contra unsorted
    obtain ⟨error, failed⟩ := (kept.ledger.byId last).2 unsorted
    subst own
    rw [failed] at read
    cases read
  · exact (checkSettingRevision_iff kept.settings own project).mp facts.setting

end Closing

section Requests
variable {wait closed : ExternalWait}

def Standing (rows : PlanningRows) (projectId : String) (wait : ExternalWait) : Prop :=
  ∃ nodes dependencies, workNodesDomainV3 rows projectId = .ok nodes ∧
    workDependenciesDomainV3 rows projectId = .ok dependencies ∧
    wait.validate nodes dependencies = .ok ()

/-- The closing of an open wait by the calling operator: a valid resolution of his own, with the
state that its outcome asks for, in a request at the current revision of the project. -/
structure CloseRequest (authority : Authority) (checksum : Value → String)
    (store : SqliteStore PlanningRows) (wait : ExternalWait) (context : V3MutationContext)
    (closed : ExternalWait) : Prop where
  closes : ∃ state resolution, wait.close state resolution = .ok closed ∧
    Matches state resolution.outcome ∧ resolution.validate = .ok () ∧
    resolution.recordedBy = context.actorId ∧ resolution.recordedAs = .operator
  project : context.projectId = wait.projectId.value
  current : ∃ revision, context.expectedRevision = some revision ∧
    Acceptable authority store (waitMutation checksum context ⟨closed, wait.revision⟩) revision

theorem trimsEmpty_of_speaks {text : String} (speaks : Speaks text) : trimsEmpty text = false := by
  rw [← Bool.not_eq_true]
  intro blank
  have spaces := List.all_eq_true.mp blank
  have white : isBlank text = true := by
    refine List.all_eq_true.mpr fun c member => ?_
    rw [of_decide_eq_true (spaces c member)]
    rfl
  rw [speaks.1] at white
  cases white

theorem CloseRequest.requested {revision : ℕ} (expected : context.expectedRevision = some revision)
    (acceptable : Acceptable authority store
      (waitMutation checksum context ⟨closed, wait.revision⟩) revision) :
    Requested (context.withPayload checksum (waitRequest ⟨closed, wait.revision⟩)) where
  expected := ⟨revision, expected, bindI64_of_le acceptable.room.le⟩
  operationId := by
    have speaks : Speaks context.operationId := acceptable.texts _ (by simp [waitMutation,
      V3MutationContext.withPayload])
    exact ⟨refuse_of_not speaks.2, trimsEmpty_of_speaks speaks⟩
  digest := by
    have speaks : Speaks (context.withPayload checksum
        (waitRequest ⟨closed, wait.revision⟩)).requestDigest :=
      acceptable.texts _ (by simp [waitMutation])
    exact ⟨refuse_of_not speaks.2, trimsEmpty_of_speaks speaks⟩

theorem CloseRequest.checked (request : CloseRequest authority checksum store wait context closed)
    (positive : wait.revision ≠ 0) :
    checkWaitRequest (context.withPayload checksum (waitRequest ⟨closed, wait.revision⟩))
      ⟨closed, wait.revision⟩ = .ok () := by
  obtain ⟨state, resolution, closes, _⟩ := request.closes
  obtain ⟨_, room, rfl⟩ := close_eq_ok closes
  refine bind_eq_ok.mpr ⟨(), refuse_of_not (not_not.mpr request.project), bind_eq_ok.mpr ⟨(),
    refuse_of_not fun clash => positive clash.2, refuse_of_not ?_⟩⟩
  rw [not_or, not_not]
  exact ⟨not_le.mpr room, rfl⟩

def Unused (store : SqliteStore PlanningRows) (operationId : String) (revision : ℕ) : Prop :=
  store.revisions "project-1" = some revision ∧ revision < maxInteger ∧ Speaks operationId ∧
    (∀ row ∈ store.operations, row.operationId ≠ operationId) ∧
    (∀ row ∈ store.audits, row.operationId ≠ operationId ∧
      (row.projectId, row.revision) ≠ ("project-1", revision + 1)) ∧
    ∀ row ∈ store.operationIdentities, row.operationId ≠ operationId

instance (store : SqliteStore PlanningRows) (operationId : String) (revision : ℕ) :
    Decidable (Unused store operationId revision) :=
  inferInstanceAs (Decidable (_ ∧ _))

theorem operator_acceptable {operationId : String} {revision : ℕ} {input : ExternalWaitV1Input}
    (unused : Unused store operationId revision) : Acceptable operatorAuthority store
      (waitMutation requestDigest (operatorContext operationId revision) input) revision where
  enabled := rfl
  authorized := by
    have principal : principalAuthority operatorAuthority "project-1" "operator-1" =
      .ok (.operator, "operator-1") := by rfl
    have session : validateProjectSession operatorAuthority "project-1" "operator-1" "session-1" =
      .ok () := authorized_session (countingCall_acceptable "").authorized rfl rfl
    refine onlyIf_eq_ok.mpr fun _ => bind_eq_ok.mpr ⟨_, principal, bind_eq_ok.mpr ⟨(),
      refuse_of_not (by simp [waitMutation]), bind_eq_ok.mpr ⟨(), refuse_of_not ?_, session⟩⟩⟩
    rintro (missing | missing)
    · cases missing
    · cases missing
  texts := by
    have rest : ∀ text ∈ ["project-1", "operator-1", "sha256:request", "1970-01-01T00:00:00Z",
      "external-wait.create.v1", "external-wait.resolve.v1"], Speaks text := by decide
    change ∀ text ∈ [operationId, "project-1", if input.expectedWaitRevision = 0 then
      "external-wait.create.v1" else "external-wait.resolve.v1", "operator-1", "sha256:request",
      "1970-01-01T00:00:00Z"], Speaks text
    simp only [List.forall_mem_cons] at rest ⊢
    obtain ⟨project, actor, digest, now, create, resolve, none⟩ := rest
    refine ⟨unused.2.2.1, project, ?_, actor, digest, now, none⟩
    split
    · exact create
    · exact resolve
  session := by
    intro session asked
    cases Option.mem_some_iff.mp asked
    decide
  context := (countingCall_acceptable "").context
  current := unused.1
  room := unused.2.1
  expected := fun expected asked => (Option.mem_some_iff.mp asked).symm
  references := by
    refine ⟨?_, rfl, fun session asked => ?_⟩
    · change (store.revisions "project-1").isSome = true
      rw [unused.1]
      rfl
    · cases Option.mem_some_iff.mp asked
      decide
  fresh := unused.2.2.2.1
  unaudited := unused.2.2.2.2.1
  unidentified := unused.2.2.2.2.2

def datedWait : ExternalWait :=
  { regionWait [⟨"task-1"⟩] with
    followUp := some (.localDate ⟨2026, 3, 1⟩)
    civilTimeSettingRevision := some 1 }

def chosenRegion : ExternalWaitResolution :=
  ⟨.decisionProvided, "eu-west", none, .role .operator, "operator-1", .operator, ⟨5⟩⟩

def datedClosed : ExternalWait :=
  { datedWait with
    revision := 2
    state := .resolved
    resolution := some chosenRegion }

def twoNodes : List WorkNode :=
  [⟨⟨"task-1"⟩, ⟨"project-1"⟩, .task, .direct, none, ""⟩,
    ⟨⟨"task-2"⟩, ⟨"project-1"⟩, .task, .direct, none, ""⟩]

def StandsOver (rows : PlanningRows) (wait : ExternalWait) : Prop :=
  workNodesDomainV3 rows "project-1" = .ok twoNodes ∧
    workDependenciesDomainV3 rows "project-1" = .ok [⟨⟨"task-1"⟩, ⟨"task-2"⟩⟩] ∧
    wait.validate twoNodes [⟨⟨"task-1"⟩, ⟨"task-2"⟩⟩] = .ok ()

instance (rows : PlanningRows) (wait : ExternalWait) : Decidable (StandsOver rows wait) :=
  inferInstanceAs (Decidable (_ ∧ _))

def datedCalls : List PlanningCall :=
  [.updateCivilTime (operatorContext "operation-1" 0) (utcSetting 1),
    .appendWait (operatorContext "operation-2" 1) ⟨datedWait, 0⟩,
    .updateCivilTime (operatorContext "operation-3" 2) (utcSetting 2)]

theorem datedClose_request {store : SqliteStore PlanningRows} {operationId : String} {revision : ℕ}
    (acceptable : Acceptable operatorAuthority store
      (waitMutation requestDigest (operatorContext operationId revision) ⟨datedClosed, 1⟩)
      revision) :
    CloseRequest operatorAuthority requestDigest store datedWait
      (operatorContext operationId revision) datedClosed where
  closes := ⟨.resolved, chosenRegion, rfl, .inl ⟨rfl, by decide⟩, by rfl, rfl, rfl⟩
  project := rfl
  current := ⟨revision, rfl, acceptable⟩

/-- In every reachable store an open wait of a valid scope is closed by the calling operator exactly
when its list was stored in order and its civil-time setting is the current one. -/
theorem open_wait_closes_iff (authority : Authority) (checksum : Value → String)
    (start store : SqliteStore PlanningRows) (projectId : String) (calls : List PlanningCall)
    (fresh : NoWaits start.rows projectId) (settings : ValidSettings start.rows projectId)
    (reached : Machines.final (performPlanning authority checksum) start calls = store)
    (wait closed : ExternalWait) (context : V3MutationContext)
    (last : lastOf (appendedWaits projectId
      (Machines.history (performPlanning authority checksum) start calls)) wait.id = some wait)
    (standing : Standing store.rows projectId wait)
    (request : CloseRequest authority checksum store wait context closed) :
    (∃ result, (appendExternalWaitV1 authority checksum store context
        ⟨closed, wait.revision⟩).1 = .ok result) ↔
      InOrder wait ∧ ∀ revision ∈ wait.civilTimeSettingRevision,
        (currentSetting store.rows projectId).map ProjectCivilTimeSetting.revision =
          some revision := by
  have kept := @Kept.run authority checksum projectId start fresh settings calls
  rw [reached] at kept
  obtain ⟨member, _⟩ := lastOf_mem last
  have own := kept.ledger.own wait member
  obtain ⟨nodes, dependencies, readNodes, readDependencies, valid⟩ := standing
  obtain ⟨state, resolution, closes, suits, resolves, recordedBy, recordedAs⟩ := request.closes
  obtain ⟨revision, expected, acceptable⟩ := request.current
  have positive : wait.revision ≠ 0 := by
    rw [(kept.anchored wait member).first (close_eq_ok closes).1]
    exact one_ne_zero
  have performed : appendExternalWaitV1 authority checksum store context
      ⟨closed, wait.revision⟩ = factMutation authority store
        (waitMutation checksum context ⟨closed, wait.revision⟩) := by
    unfold appendExternalWaitV1
    have checked : checkWaitRequest (waitMutation checksum context
      ⟨closed, wait.revision⟩).context ⟨closed, wait.revision⟩ = .ok () := request.checked positive
    simp only [checked]
  rw [performed]
  constructor
  · rintro ⟨result, answered⟩
    rcases outcome : factMutation authority store
      (waitMutation checksum context ⟨closed, wait.revision⟩) with ⟨answer, after⟩
    have ended := factMutation_outcome authority store
      (waitMutation checksum context ⟨closed, wait.revision⟩)
    rw [outcome] at ended answered
    cases ended with
    | failed error => cases answered
    | replayed existing known answers =>
      have found := List.find?_some known
      exact absurd (of_decide_eq_true found)
        (acceptable.fresh existing (List.mem_of_find?_eq_some known))
    | committed result _ enabled authorized commits =>
      exact close_conditions kept last closes commits.written
  · rintro ⟨sorted, setting⟩
    have known : (store.revisions closed.projectId.value).isSome = true := by
      obtain ⟨_, _, rfl⟩ := close_eq_ok closes
      have current : store.revisions context.projectId = some revision := acceptable.current
      rw [request.project] at current
      change (store.revisions wait.projectId.value).isSome = true
      rw [current]
      rfl
    have attributed : resolution.recordedBy = (context.withPayload checksum
      (waitRequest ⟨closed, wait.revision⟩)).actorId := recordedBy
    obtain ⟨rows', written⟩ := close_written kept last readNodes readDependencies valid closes suits
      resolves attributed recordedAs (CloseRequest.requested expected acceptable) known sorted setting
    obtain ⟨store', committed, _⟩ := factMutation_accepts acceptable written
    rw [committed]
    exact ⟨_, rfl⟩

theorem open_wait_closes_iff_dated :
    (∃ result, (appendExternalWaitV1 operatorAuthority requestDigest
        (Machines.final (performPlanning operatorAuthority requestDigest) twoTasks
          (datedCalls.take 2)) (operatorContext "operation-4" 2) ⟨datedClosed, 1⟩).1 =
        .ok result) ↔
      InOrder datedWait ∧ ∀ revision ∈ datedWait.civilTimeSettingRevision,
        (currentSetting (Machines.final (performPlanning operatorAuthority requestDigest) twoTasks
          (datedCalls.take 2)).rows "project-1").map ProjectCivilTimeSetting.revision =
          some revision := by
  have ended : lastOf (appendedWaits "project-1" (Machines.history
        (performPlanning operatorAuthority requestDigest) twoTasks (datedCalls.take 2)))
        datedWait.id = some datedWait ∧
      StandsOver (Machines.final (performPlanning operatorAuthority requestDigest) twoTasks
        (datedCalls.take 2)).rows datedWait ∧
      Unused (Machines.final (performPlanning operatorAuthority requestDigest) twoTasks
        (datedCalls.take 2)) "operation-4" 2 := by
    decide +kernel
  exact open_wait_closes_iff operatorAuthority requestDigest twoTasks _ "project-1"
    (datedCalls.take 2) ⟨rfl, fun row member => absurd member List.not_mem_nil,
      fun row member => absurd member List.not_mem_nil⟩
    (fun row member => absurd member List.not_mem_nil) rfl datedWait datedClosed
    (operatorContext "operation-4" 2) ended.1 ⟨_, _, ended.2.1⟩
    (datedClose_request (operator_acceptable ended.2.2))

theorem stale_setting_blocks_close :
    (Machines.history (performPlanning operatorAuthority requestDigest) twoTasks datedCalls).all
        (fun entry => entry.answer.isOk) = true ∧
      lastOf (appendedWaits "project-1" (Machines.history
        (performPlanning operatorAuthority requestDigest) twoTasks datedCalls)) datedWait.id =
        some datedWait ∧
      Standing (Machines.final (performPlanning operatorAuthority requestDigest) twoTasks
        datedCalls).rows "project-1" datedWait ∧
      CloseRequest operatorAuthority requestDigest
        (Machines.final (performPlanning operatorAuthority requestDigest) twoTasks datedCalls)
        datedWait (operatorContext "operation-4" 3) datedClosed ∧
      (appendExternalWaitV1 operatorAuthority requestDigest
        (Machines.final (performPlanning operatorAuthority requestDigest) twoTasks datedCalls)
        (operatorContext "operation-4" 3) ⟨datedClosed, 1⟩).1 = .error (.conflict
          "date-only wait was planned against a stale project civil-time setting") := by
  have ended : (Machines.history (performPlanning operatorAuthority requestDigest) twoTasks
        datedCalls).all (fun entry => entry.answer.isOk) = true ∧
      lastOf (appendedWaits "project-1" (Machines.history
        (performPlanning operatorAuthority requestDigest) twoTasks datedCalls)) datedWait.id =
        some datedWait ∧
      StandsOver (Machines.final (performPlanning operatorAuthority requestDigest) twoTasks
        datedCalls).rows datedWait ∧
      Unused (Machines.final (performPlanning operatorAuthority requestDigest) twoTasks datedCalls)
        "operation-4" 3 ∧
      (appendExternalWaitV1 operatorAuthority requestDigest
        (Machines.final (performPlanning operatorAuthority requestDigest) twoTasks datedCalls)
        (operatorContext "operation-4" 3) ⟨datedClosed, 1⟩).1 = .error (.conflict
          "date-only wait was planned against a stale project civil-time setting") := by
    decide +kernel
  obtain ⟨answered, last, stands, unused, blocked⟩ := ended
  exact ⟨answered, last, ⟨_, _, stands⟩, datedClose_request (operator_acceptable unused), blocked⟩

end Requests

end Boreal.Store
