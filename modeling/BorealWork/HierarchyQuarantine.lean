/- The quarantine of the status snapshot: stored hierarchy records that do not fit their work records
are set aside, then the works that the decomposition check names, one at a time. -/
import BorealWork.HealthyBranches
import BorealWork.WorkItems

namespace Boreal.HierarchyQuarantine
open Drain WorkModel

section Records

structure WorkItem extends Boreal.WorkItem where
  title : String
  deriving DecidableEq

/-- A hierarchy row as it is stored, its kind and its mode as texts. -/
structure WorkNodeV3Record where
  projectId : String
  workId : String
  decompositionKind : String
  executionMode : String
  parentId : Option String
  deriving DecidableEq

abbrev Items := Std.TreeMap WorkId WorkItem

def expectedKind (text : String) : Option (WorkKind × DecompositionKind) :=
  if text = "milestone" then some (.milestone, .milestone)
  else if text = "task" then some (.task, .task)
  else none

def modeNamed (text : String) : Option ExecutionMode :=
  if text = "direct" then some .direct else if text = "container" then some .container else none

/-- A sprint between a work and its milestone is no parent in this model. -/
def itemParent (items : Items) (item : WorkItem) : Option String :=
  match item.parentId with
  | none => none
  | some parentId => match items[parentId]? with
      | none => some parentId.value
      | some parent =>
        if parent.kind = .sprint then parent.parentId.map TypedId.value else some parent.id.value

def classifyRecord (projectId : String) (items : Items) (record : WorkNodeV3Record) : Except String WorkNode :=
  if record.projectId ≠ projectId then .error "work node belongs to a different project"
  else match items[(⟨record.workId⟩ : WorkId)]? with
    | none => .error "version-3 hierarchy node has no corresponding work record"
    | some item => match expectedKind record.decompositionKind, modeNamed record.executionMode with
        | some (itemKind, kind), some executionMode =>
          if item.kind ≠ itemKind ∨ itemParent items item ≠ record.parentId then
            .error "version-3 hierarchy identity disagrees with its work record"
          else .ok ⟨⟨record.workId⟩, ⟨projectId⟩, kind, executionMode, record.parentId.map TypedId.mk, item.title⟩
        | _, _ => .error "version-3 hierarchy contains an unknown kind or execution mode"

/-- The candidates that are left, and the issue of each work that is not. -/
structure Quarantine where
  nodes : List WorkNode
  issues : Std.TreeMap String String
  halted : Bool

def takeRecord (projectId : String) (items : Items) (s : Quarantine) (record : WorkNodeV3Record) : Quarantine :=
  match classifyRecord projectId items record with
  | .ok node => { s with nodes := s.nodes ++ [node] }
  | .error issue => { s with issues := s.issues.insert record.workId issue }

variable (debug : ModelError → String)

/-- One turn of the loop; `debug` renders an error. A turn that removes nothing is the last. -/
def quarantineStep (s : Quarantine) : Option Quarantine :=
  if s.halted then none
  else match validateDecomposition s.nodes with
    | .ok () => none
    | .error error => match affected error with
        | none => none
        | some id =>
          if s.issues.contains id then none
          else
            let nodes := s.nodes.filter (·.id.value ≠ id)
            some ⟨nodes, s.issues.insert id s!"invalid version-3 work hierarchy: {debug error}",
              nodes.length = s.nodes.length⟩

def quarantine (projectId : String) (items : Items) (records : List WorkNodeV3Record) : Quarantine :=
  drain (quarantineStep debug) (records.length + 1) (records.foldl (takeRecord projectId items) ⟨[], ∅, false⟩)

def v3HierarchyIssues (projectId : String) (items : Items) (records : List WorkNodeV3Record) :
    Std.TreeSet String × Std.TreeMap String String :=
  (records.foldl (fun ids record => ids.insert record.workId) ∅, (quarantine debug projectId items records).issues)

end Records

section Classified

variable {projectId : String} {items : Items} {record : WorkNodeV3Record} {records : List WorkNodeV3Record}

/-- A record says of its work what the work's own record says, in words that are known. -/
def Agrees (items : Items) (record : WorkNodeV3Record) : Prop :=
  ∃ item, items[(⟨record.workId⟩ : WorkId)]? = some item ∧
    (expectedKind record.decompositionKind).map Prod.fst = some item.kind ∧
    (modeNamed record.executionMode).isSome = true ∧ itemParent items item = record.parentId

structure NodeFor (projectId : String) (record : WorkNodeV3Record) (node : WorkNode) : Prop where
  id : node.id = ⟨record.workId⟩
  project : node.projectId = ⟨projectId⟩
  milestone : node.kind = .milestone ↔ record.decompositionKind = "milestone"
  container : node.executionMode = .container ↔ record.executionMode = "container"
  parent : node.parentId = record.parentId.map TypedId.mk

theorem expectedKind_milestone {text : String} {kinds : WorkKind × DecompositionKind}
    (named : expectedKind text = some kinds) : kinds.2 = .milestone ↔ text = "milestone" := by
  rw [expectedKind] at named
  split_ifs at named with first second
  · cases named
    exact iff_of_true rfl first
  · cases named
    exact iff_of_false nofun first

theorem modeNamed_container {text : String} {mode : ExecutionMode} (named : modeNamed text = some mode) :
    mode = .container ↔ text = "container" := by
  rw [modeNamed] at named
  split_ifs at named with first second
  · cases named
    exact iff_of_false nofun (by rw [first]; decide)
  · cases named
    exact iff_of_true rfl second

theorem classifyRecord_ok {node : WorkNode} (taken : classifyRecord projectId items record = .ok node) :
    record.projectId = projectId ∧ Agrees items record ∧ NodeFor projectId record node := by
  rw [classifyRecord] at taken
  split_ifs at taken with own
  cases found : items[(⟨record.workId⟩ : WorkId)]? with
  | none =>
    rw [found] at taken
    cases taken
  | some item =>
    simp only [found] at taken
    cases kinds : expectedKind record.decompositionKind with
    | none =>
      rw [kinds] at taken
      cases taken
    | some kinds' =>
      obtain ⟨itemKind, kind⟩ := kinds'
      cases mode : modeNamed record.executionMode with
      | none =>
        rw [kinds, mode] at taken
        cases taken
      | some mode' =>
        rw [kinds, mode] at taken
        dsimp only at taken
        split_ifs at taken with other
        rw [not_or, not_not, not_not] at other
        cases taken
        refine ⟨not_not.mp own, ⟨item, found, ?_, ?_, other.2⟩, ?_⟩
        · rw [kinds, Option.map_some, other.1]
        · rw [mode, Option.isSome_some]
        · exact ⟨rfl, rfl, expectedKind_milestone kinds, modeNamed_container mode, rfl⟩

theorem classifyRecord_agrees (own : record.projectId = projectId) (agrees : Agrees items record) :
    ∃ node, classifyRecord projectId items record = .ok node := by
  obtain ⟨item, found, kinds, mode, parent⟩ := agrees
  obtain ⟨⟨itemKind, kind⟩, named, same⟩ := Option.map_eq_some_iff.mp kinds
  obtain ⟨executionMode, mode⟩ := Option.isSome_iff_exists.mp mode
  refine ⟨⟨⟨record.workId⟩, ⟨projectId⟩, kind, executionMode, record.parentId.map TypedId.mk, item.title⟩, ?_⟩
  rw [classifyRecord, if_neg (not_not.mpr own), found]
  dsimp only
  rw [named, mode]
  dsimp only
  rw [if_neg]
  rw [not_or, not_not, not_not]
  exact ⟨same.symm, parent⟩

def classified (projectId : String) (items : Items) (records : List WorkNodeV3Record) : List WorkNode :=
  records.filterMap fun record => (classifyRecord projectId items record).toOption

theorem toOption_eq_some {ε α : Type} {x : Except ε α} {a : α} : x.toOption = some a ↔ x = .ok a := by
  cases x <;> simp [Except.toOption]

theorem mem_classified {node : WorkNode} : node ∈ classified projectId items records ↔
    ∃ record ∈ records, classifyRecord projectId items record = .ok node := by
  simp only [classified, List.mem_filterMap, toOption_eq_some]

theorem classified_cons : classified projectId items (record :: records) =
    (classifyRecord projectId items record).toOption.toList ++ classified projectId items records := by
  rw [classified, List.filterMap_cons]
  cases (classifyRecord projectId items record).toOption with
  | none => rfl
  | some node => rfl

theorem classified_ids (records : List WorkNodeV3Record) :
    ((classified projectId items records).map (·.id.value)).Sublist (records.map (·.workId)) := by
  induction records with
  | nil => exact List.Sublist.refl []
  | cons record rest ih =>
    rw [classified_cons, List.map_append, List.map_cons]
    cases taken : classifyRecord projectId items record with
    | error issue => exact ih.cons record.workId
    | ok node =>
      have same : node.id.value = record.workId := by rw [(classifyRecord_ok taken).2.2.id]
      change (node.id.value :: (classified projectId items rest).map (·.id.value)).Sublist _
      rw [same]
      exact ih.cons_cons record.workId

theorem foldl_takeRecord (s : Quarantine) :
    (records.foldl (takeRecord projectId items) s).nodes = s.nodes ++ classified projectId items records ∧
      (records.foldl (takeRecord projectId items) s).halted = s.halted ∧
      ∀ id, (records.foldl (takeRecord projectId items) s).issues.contains id = true ↔
        s.issues.contains id = true ∨ ∃ record ∈ records, record.workId = id ∧
          ∀ node, classifyRecord projectId items record ≠ .ok node := by
  induction records generalizing s with
  | nil => simp [classified]
  | cons record rest ih =>
    obtain ⟨nodes, halted, issues⟩ := ih (takeRecord projectId items s record)
    rw [List.foldl_cons, nodes, halted, classified_cons, ← List.append_assoc]
    simp only [issues, List.exists_mem_cons_iff, ← or_assoc]
    rw [takeRecord]
    cases taken : classifyRecord projectId items record with
    | ok node =>
      refine ⟨rfl, rfl, fun id => or_congr_left (or_iff_left ?_).symm⟩
      exact fun refused => refused.2 node rfl
    | error issue =>
      refine ⟨congrArg (· ++ _) (List.append_nil s.nodes).symm, rfl, fun id => or_congr_left ?_⟩
      dsimp only
      rw [← Std.TreeMap.mem_iff_contains, Std.TreeMap.mem_insert, compare_eq_iff_eq, Std.TreeMap.mem_iff_contains,
        or_comm]
      exact or_congr_right (and_iff_left nofun).symm

end Classified

section Loop

variable {debug : ModelError → String} {nodes : List WorkNode} {started : Std.TreeMap String String}
  {s s' : Quarantine}

/-- What the loop keeps: the candidates are the works without an issue, and no healthy work has one. -/
structure Pruning (nodes : List WorkNode) (started : Std.TreeMap String String) (s : Quarantine) : Prop where
  kept : s.nodes = nodes.filter fun node => !s.issues.contains node.id.value
  ill : ∀ node ∈ nodes, s.issues.contains node.id.value = true → ¬ Healthy nodes node
  started : ∀ id, started.contains id = true → s.issues.contains id = true
  running : s.halted = false

theorem Pruning.mem_nodes (pruning : Pruning nodes started s) {node : WorkNode} :
    node ∈ s.nodes ↔ node ∈ nodes ∧ s.issues.contains node.id.value = false := by
  rw [pruning.kept, List.mem_filter, Bool.not_eq_true']

theorem Pruning.healthy_iff (pruning : Pruning nodes started s) {node : WorkNode} :
    Healthy s.nodes node ↔ Healthy nodes node := by
  constructor
  · exact fun healthy => healthy.mono fun other member => (pruning.mem_nodes.mp member).1
  · intro healthy
    refine healthy.keep fun other sound => pruning.mem_nodes.mpr ⟨sound.listed, ?_⟩
    rw [← Bool.not_eq_true]
    exact fun issue => pruning.ill other sound.listed issue sound

theorem Pruning.refused (distinct : (nodes.map WorkNode.id).Nodup) (pruning : Pruning nodes started s)
    {error : ModelError} (refused : validateDecomposition s.nodes = .error error) :
    ∃ node ∈ nodes, affected error = some node.id.value ∧ s.issues.contains node.id.value = false ∧
      ¬ Healthy nodes node := by
  have fewer : (s.nodes.map WorkNode.id).Nodup := by
    rw [pruning.kept]
    exact distinct.sublist (List.filter_sublist.map WorkNode.id)
  obtain ⟨node, member, about, ill⟩ := validateDecomposition_error fewer refused
  rw [pruning.healthy_iff] at ill
  obtain ⟨listed, free⟩ := pruning.mem_nodes.mp member
  exact ⟨node, listed, about, free, ill⟩

theorem Pruning.stopped (distinct : (nodes.map WorkNode.id).Nodup) (pruning : Pruning nodes started s)
    (stopped : quarantineStep debug s = none) : validateDecomposition s.nodes = .ok () := by
  cases checked : validateDecomposition s.nodes with
  | ok done => rfl
  | error error =>
    obtain ⟨node, -, about, free, -⟩ := pruning.refused distinct checked
    simp only [quarantineStep, pruning.running, Bool.false_eq_true, if_false, checked, about, free] at stopped
    cases stopped

theorem Pruning.step (distinct : (nodes.map WorkNode.id).Nodup) (pruning : Pruning nodes started s)
    (step : quarantineStep debug s = some s') :
    Pruning nodes started s' ∧ s'.nodes.length < s.nodes.length := by
  cases checked : validateDecomposition s.nodes with
  | ok done =>
    simp only [quarantineStep, pruning.running, Bool.false_eq_true, if_false, checked] at step
    cases step
  | error error =>
    obtain ⟨node, listed, about, free, ill⟩ := pruning.refused distinct checked
    simp only [quarantineStep, pruning.running, Bool.false_eq_true, if_false, checked, about, free] at step
    have shorter : (s.nodes.filter (·.id.value ≠ node.id.value)).length < s.nodes.length := by
      refine List.length_filter_lt_length_iff_exists.mpr ⟨node, pruning.mem_nodes.mpr ⟨listed, free⟩, ?_⟩
      simp
    have inserted (id : String) (issue : String) : (s.issues.insert node.id.value issue).contains id = true ↔
        node.id.value = id ∨ s.issues.contains id = true := by
      rw [← Std.TreeMap.mem_iff_contains, Std.TreeMap.mem_insert, compare_eq_iff_eq, Std.TreeMap.mem_iff_contains]
    cases step
    refine ⟨⟨?_, ?_, ?_, ?_⟩, shorter⟩
    · rw [pruning.kept, List.filter_filter]
      apply List.filter_congr
      intro other member
      rw [Bool.eq_iff_iff]
      simp only [Bool.and_eq_true, decide_eq_true_eq, Bool.not_eq_true', ← Bool.not_eq_true, inserted, not_or,
        ne_comm, ne_eq]
    · intro other member issue
      rcases (inserted _ _).mp issue with same | earlier
      · obtain rfl := List.inj_on_of_nodup_map distinct listed member (TypedId.value_injective same)
        exact ill
      · exact pruning.ill other member earlier
    · exact fun id issue => (inserted _ _).mpr (.inr (pruning.started id issue))
    · exact decide_eq_false shorter.ne

end Loop

section Chains

variable {projectId : String} {items : Items} {records : List WorkNodeV3Record}

def AllowedChild (parent record : WorkNodeV3Record) : Prop :=
  parent.executionMode = "container" ∧
    (record.decompositionKind = "milestone" → parent.decompositionKind = "milestone")

/-- A chain of parent records that ends, every record on it agreeing with its work, an allowed child
of the next and `fit` besides. -/
inductive SoundChain (items : Items) (fit : WorkNodeV3Record → Prop) (records : List WorkNodeV3Record) :
    WorkNodeV3Record → Prop
  | root {record} (listed : record ∈ records) (agrees : Agrees items record) (fits : fit record)
      (alone : record.parentId = none) : SoundChain items fit records record
  | child {record parent} (listed : record ∈ records) (agrees : Agrees items record) (fits : fit record)
      (named : record.parentId = some parent.workId) (allowed : AllowedChild parent record)
      (above : SoundChain items fit records parent) : SoundChain items fit records record

def FitsProject (projectId : String) (record : WorkNodeV3Record) : Prop :=
  record.projectId = projectId ∧ (record.decompositionKind = "milestone" → record.executionMode = "container")

theorem mayHold_iff {parent record : WorkNodeV3Record} {parentNode node : WorkNode}
    (above : NodeFor projectId parent parentNode) (here : NodeFor projectId record node) :
    MayHold parentNode node ↔ AllowedChild parent record := by
  rw [MayHold, AllowedChild, above.container, above.milestone, here.milestone]

theorem SoundChain.taken {record : WorkNodeV3Record} (sound : SoundChain items (FitsProject projectId) records record) :
    ∃ node, classifyRecord projectId items record = .ok node := by
  cases sound with
  | root _ agrees fits => exact classifyRecord_agrees fits.1 agrees
  | child _ agrees fits => exact classifyRecord_agrees fits.1 agrees

theorem SoundChain.healthy {record : WorkNodeV3Record} (sound : SoundChain items (FitsProject projectId) records record)
    {node : WorkNode} (taken : classifyRecord projectId items record = .ok node) :
    Healthy (classified projectId items records) node := by
  induction sound generalizing node with
  | root listed _ fits alone =>
    have here := (classifyRecord_ok taken).2.2
    refine .root (mem_classified.mpr ⟨_, listed, taken⟩) ?_ (by rw [here.parent, alone, Option.map_none])
    rw [here.milestone, here.container]
    exact fits.2
  | child listed _ fits named allowed above ih =>
    have here := (classifyRecord_ok taken).2.2
    obtain ⟨parentNode, found⟩ := above.taken
    have there := (classifyRecord_ok found).2.2
    refine .child (mem_classified.mpr ⟨_, listed, taken⟩) ?_ ?_ ?_ ((mayHold_iff there here).mpr allowed) (ih found)
    · rw [here.milestone, here.container]
      exact fits.2
    · rw [here.parent, named, Option.map_some, there.id]
    · rw [here.project, there.project]

theorem soundChain_of_healthy {node : WorkNode} (healthy : Healthy (classified projectId items records) node)
    {record : WorkNodeV3Record} (listed : record ∈ records)
    (taken : classifyRecord projectId items record = .ok node) :
    SoundChain items (FitsProject projectId) records record := by
  induction healthy generalizing record with
  | root _ container alone =>
    obtain ⟨own, agrees, here⟩ := classifyRecord_ok taken
    rw [here.milestone, here.container] at container
    rw [here.parent, Option.map_eq_none_iff] at alone
    exact .root listed agrees ⟨own, container⟩ alone
  | child _ container named _ shape above ih =>
    obtain ⟨own, agrees, here⟩ := classifyRecord_ok taken
    obtain ⟨parent, inside, found⟩ := mem_classified.mp above.listed
    have there := (classifyRecord_ok found).2.2
    rw [here.milestone, here.container] at container
    rw [here.parent, there.id, Option.map_eq_some_iff] at named
    obtain ⟨parentId, named, same⟩ := named
    obtain rfl := congrArg TypedId.value same
    exact .child listed agrees ⟨own, container⟩ named ((mayHold_iff there here).mp shape) (ih inside found)

end Chains

section Exactness

variable {debug : ModelError → String} {projectId : String} {items : Items} {records : List WorkNodeV3Record}

theorem classified_distinct (distinct : (records.map (·.workId)).Nodup) :
    ((classified projectId items records).map WorkNode.id).Nodup := by
  have values := distinct.sublist (@classified_ids projectId items records)
  exact List.Nodup.of_map TypedId.value (by rwa [List.map_map])

theorem pruning_start (distinct : (records.map (·.workId)).Nodup) :
    Pruning (classified projectId items records)
      (records.foldl (takeRecord projectId items) ⟨[], ∅, false⟩).issues
      (records.foldl (takeRecord projectId items) ⟨[], ∅, false⟩) := by
  obtain ⟨nodes, halted, issues⟩ := @foldl_takeRecord projectId items records ⟨[], ∅, false⟩
  have free (node : WorkNode) (member : node ∈ classified projectId items records) :
      (records.foldl (takeRecord projectId items) ⟨[], ∅, false⟩).issues.contains node.id.value = false := by
    obtain ⟨record, listed, taken⟩ := mem_classified.mp member
    rw [← Bool.not_eq_true, issues, not_or]
    refine ⟨by simp, ?_⟩
    rintro ⟨other, inside, same, refused⟩
    rw [(classifyRecord_ok taken).2.2.id] at same
    obtain rfl := List.inj_on_of_nodup_map distinct inside listed same
    exact refused node taken
  refine ⟨?_, fun node member issue => ?_, fun _ => id, halted⟩
  · rw [nodes, List.nil_append]
    refine (List.filter_eq_self.mpr fun node member => ?_).symm
    rw [free node member, Bool.not_false]
  · rw [free node member] at issue
    cases issue

theorem quarantine_spec (debug : ModelError → String) (distinct : (records.map (·.workId)).Nodup) :
    Pruning (classified projectId items records)
        (records.foldl (takeRecord projectId items) ⟨[], ∅, false⟩).issues
        (quarantine debug projectId items records) ∧
      quarantineStep debug (quarantine debug projectId items records) = none := by
  have nodes := @classified_distinct projectId items records distinct
  have start := @pruning_start projectId items records distinct
  have kept (s s' : Quarantine) (pruning : Pruning (classified projectId items records)
      (records.foldl (takeRecord projectId items) ⟨[], ∅, false⟩).issues s)
      (step : quarantineStep debug s = some s') := pruning.step nodes step
  refine ⟨drain_invariant (fun s s' pruning step => (kept s s' pruning step).1) _ start, ?_⟩
  refine drain_stopped (fun s => s.nodes.length) (fun s s' pruning step => (kept s s' pruning step).1)
    (fun s s' pruning step => (kept s s' pruning step).2) start ?_
  rw [(foldl_takeRecord _).1, List.nil_append, classified]
  exact (List.length_filterMap_le _ _).trans (Nat.le_succ _)

theorem issue_free_iff (distinct : (records.map (·.workId)).Nodup) {record : WorkNodeV3Record}
    (listed : record ∈ records) :
    (v3HierarchyIssues debug projectId items records).2.contains record.workId = false ↔
      ∃ node, classifyRecord projectId items record = .ok node ∧
        node ∈ (quarantine debug projectId items records).nodes := by
  obtain ⟨pruning, -⟩ := @quarantine_spec projectId items records debug distinct
  rw [v3HierarchyIssues]
  constructor
  · intro free
    cases taken : classifyRecord projectId items record with
    | ok node =>
      refine ⟨node, rfl, pruning.mem_nodes.mpr ⟨mem_classified.mpr ⟨record, listed, taken⟩, ?_⟩⟩
      rw [(classifyRecord_ok taken).2.2.id]
      exact free
    | error issue =>
      have early := ((foldl_takeRecord ⟨[], ∅, false⟩).2.2 record.workId).mpr
        (.inr ⟨record, listed, rfl, fun node taken' => nomatch taken.symm.trans taken'⟩)
      rw [pruning.started _ early] at free
      cases free
  · rintro ⟨node, taken, member⟩
    have free := (pruning.mem_nodes.mp member).2
    rwa [(classifyRecord_ok taken).2.2.id] at free

theorem mapM_issue_free {issues : Std.TreeMap String String}
    (taken : ∀ record ∈ records, issues.contains record.workId = false →
      ∃ node, classifyRecord projectId items record = .ok node) :
    (records.filter fun record => !issues.contains record.workId).mapM (classifyRecord projectId items) =
      .ok ((classified projectId items records).filter fun node => !issues.contains node.id.value) := by
  induction records with
  | nil => rfl
  | cons record rest ih =>
    rw [List.forall_mem_cons] at taken
    have later := ih taken.2
    rw [List.filter_cons, classified_cons, List.filter_append]
    cases issue : issues.contains record.workId with
    | true =>
      have none : (classifyRecord projectId items record).toOption.toList.filter
          (fun node => !issues.contains node.id.value) = [] := by
        refine List.filter_eq_nil_iff.mpr fun node member => ?_
        rw [Option.mem_toList, toOption_eq_some] at member
        rw [(classifyRecord_ok member).2.2.id, issue]
        exact Bool.false_ne_true
      rw [none]
      exact later
    | false =>
      obtain ⟨node, here⟩ := taken.1 issue
      have free : issues.contains node.id.value = false := by rwa [(classifyRecord_ok here).2.2.id]
      rw [here, Bool.not_false, if_pos rfl, List.mapM_cons, here, ok_bind, later, ok_bind]
      change _ = Except.ok ([node].filter _ ++ _)
      rw [List.filter_cons_of_pos (by rw [free, Bool.not_false])]
      rfl

/-- The loop ends, what is left is accepted, and a record is left exactly if it and those above it
belong to the project, are containers where they are milestones, and fit their works and each other. -/
theorem v3HierarchyIssues_exact (debug : ModelError → String) (projectId : String) (items : Items)
    (records : List WorkNodeV3Record) (distinct : (records.map (·.workId)).Nodup) :
    quarantineStep debug (quarantine debug projectId items records) = none ∧
    (∃ nodes, (records.filter fun record =>
          !(v3HierarchyIssues debug projectId items records).2.contains record.workId).mapM
            (classifyRecord projectId items) = .ok nodes ∧ validateDecomposition nodes = .ok ()) ∧
    ∀ record ∈ records, (v3HierarchyIssues debug projectId items records).2.contains record.workId = false ↔
      SoundChain items (FitsProject projectId) records record := by
  obtain ⟨pruning, stopped⟩ := @quarantine_spec projectId items records debug distinct
  have nodes := @classified_distinct projectId items records distinct
  have valid := pruning.stopped nodes stopped
  refine ⟨stopped, ⟨(quarantine debug projectId items records).nodes, ?_, valid⟩, fun record listed => ?_⟩
  · rw [pruning.kept]
    refine mapM_issue_free fun record listed free => ?_
    obtain ⟨node, taken, -⟩ := (issue_free_iff distinct listed).mp free
    exact ⟨node, taken⟩
  · rw [issue_free_iff distinct listed]
    constructor
    · rintro ⟨node, taken, member⟩
      have healthy := pruning.healthy_iff.mp (validateDecomposition_healthy valid node member)
      exact soundChain_of_healthy healthy listed taken
    · intro sound
      obtain ⟨node, taken⟩ := sound.taken
      have healthy := sound.healthy taken
      refine ⟨node, taken, pruning.mem_nodes.mpr ⟨healthy.listed, ?_⟩⟩
      rw [← Bool.not_eq_true]
      exact fun issue => pruning.ill node healthy.listed issue healthy

theorem v3HierarchyIssues_exact_siblings :
    let items : Items := [⟨⟨⟨"direct"⟩, ⟨"p"⟩, .task, none⟩, "direct"⟩,
      ⟨⟨⟨"inner"⟩, ⟨"p"⟩, .task, some ⟨"direct"⟩⟩, "inner"⟩,
      ⟨⟨⟨"other"⟩, ⟨"p"⟩, .task, none⟩, "other"⟩].foldl (Lookup.indexBy fun item : WorkItem => item.id) ∅
    let records : List WorkNodeV3Record := [⟨"p", "direct", "task", "direct", none⟩,
      ⟨"p", "inner", "task", "direct", some "direct"⟩, ⟨"p", "other", "task", "direct", none⟩]
    (v3HierarchyIssues (fun _ => "") "p" items records).2.keys = ["inner"] ∧
      quarantineStep (fun _ => "") (quarantine (fun _ => "") "p" items records) = none :=
  ⟨by decide +kernel, (v3HierarchyIssues_exact (fun _ => "") "p" _ _ (by decide)).1⟩

theorem v3HierarchyIssues_direct_milestone :
    let items : Items := [⟨⟨⟨"m"⟩, ⟨"p"⟩, .milestone, none⟩, "m"⟩].foldl
      (Lookup.indexBy fun item : WorkItem => item.id) ∅
    let record : WorkNodeV3Record := ⟨"p", "m", "milestone", "direct", none⟩
    SoundChain items (fun _ => True) [record] record ∧
      (v3HierarchyIssues (fun _ => "") "p" items [record]).2.contains "m" = true := by
  refine ⟨.root List.mem_cons_self ⟨⟨⟨⟨"m"⟩, ⟨"p"⟩, .milestone, none⟩, "m"⟩, ?_, rfl, rfl, rfl⟩ trivial rfl, ?_⟩
  · decide +kernel
  · decide +kernel

end Exactness

end Boreal.HierarchyQuarantine
