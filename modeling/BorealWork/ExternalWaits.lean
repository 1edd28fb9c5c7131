/- External waits: an obligation on one direct task that blocks the task and its dependents until an
operator records how it was resolved. -/
import BorealWork.BusinessTime

namespace Boreal.WorkModel
open Drain

def LocalDate.debug (date : LocalDate) : String :=
  s!"LocalDate \x7b year: {date.year}, month: {date.month}, day: {date.day} \x7d"

def LocalTime.debug (time : LocalTime) : String :=
  s!"LocalTime \x7b hour: {time.hour}, minute: {time.minute}, second: {time.second} \x7d"

def ModelError.display : ModelError → String
  | .duplicateIdentifier id => s!"duplicate identifier: {id}"
  | .missingParent id => s!"missing parent: {id.value}"
  | .missingWork id => s!"missing work: {id.value}"
  | .crossProjectReference source target =>
    s!"cross-project reference: {source.value} -> {target.value}"
  | .milestoneMustBeContainer id => s!"milestone must be a container: {id.value}"
  | .invalidParentShape parent child => s!"invalid parent shape: {parent.value} -> {child.value}"
  | .directTaskHasChildren id => s!"direct task has children: {id.value}"
  | .decompositionCycle id => s!"decomposition cycle at {id.value}"
  | .dependencyEndpointNotDirect blocker blocked =>
    s!"dependency endpoints must be direct tasks: {blocker.value} -> {blocked.value}"
  | .duplicateDependency blocker blocked =>
    s!"duplicate dependency: {blocker.value} -> {blocked.value}"
  | .dependencyCycle id => s!"dependency cycle at {id.value}"
  | .invalidSchedule reason | .invalidExternalWait reason => reason
  | .invalidLocalDate date => s!"invalid local date: {date.debug}"
  | .invalidLocalTime time => s!"invalid local time: {time.debug}"
  | .invalidUtcOffset minutes => s!"invalid UTC offset: {minutes}"
  | .missingTimeZoneIdentity => "timezone and tzdb identity are required"

inductive ExternalWaitAccountable
  | person (reference displayName : String)
  | role (role : ActorRole)
  | service (reference displayName : String)
  deriving DecidableEq

inductive ExternalWaitCategory
  | decision | approval | information | access | service | other
  deriving DecidableEq

inductive ExternalWaitState
  | opened | resolved | cancelled
  deriving DecidableEq

inductive ExternalWaitOutcome
  | approved | rejected | decisionProvided | outputProvided | declined | unavailable | cancelled
  deriving DecidableEq

def isBoundedText (limit : ℕ) (text : String) : Bool :=
  !isBlank text && text.utf8ByteSize ≤ limit && !text.toList.any isControl

def ExternalWaitAccountable.validate : ExternalWaitAccountable → Except ModelError Unit
  | .person reference displayName | .service reference displayName =>
    refuse (¬ isBoundedText 512 reference ∨ ¬ isBoundedText 512 displayName) (.invalidExternalWait
      "accountable person or service needs a bounded reference and display name")
  | .role _ => .ok ()

structure ExternalWaitResolution where
  outcome : ExternalWaitOutcome
  detail : String
  outputRef : Option String
  suppliedBy : ExternalWaitAccountable
  recordedBy : String
  recordedAs : ActorRole
  recordedAt : TimestampMs
  deriving DecidableEq

def ExternalWaitResolution.validate (resolution : ExternalWaitResolution) :
    Except ModelError Unit := do
  resolution.suppliedBy.validate
  refuse (¬ isBoundedText 16384 resolution.detail)
    (.invalidExternalWait "resolution detail must be bounded, nonempty text")
  refuse (¬ isBoundedText 255 resolution.recordedBy)
    (.invalidExternalWait "resolution recorder identity is invalid")
  refuse (resolution.outputRef.any fun value => !isBoundedText 2048 value)
    (.invalidExternalWait "resolution output reference is invalid")

abbrev ExternalWaitId := TypedId "ExternalWaitId"

structure ExternalWait where
  id : ExternalWaitId
  projectId : ProjectId
  sourceWorkId : WorkId
  affectedWorkIds : List WorkId
  category : ExternalWaitCategory
  reason : String
  accountable : ExternalWaitAccountable
  expectedDecision : Option String
  expectedOutput : Option String
  followUp : Option BusinessDate
  civilTimeSettingRevision : Option ℕ
  revision : ℕ
  state : ExternalWaitState
  createdBy : String
  createdAt : TimestampMs
  resolution : Option ExternalWaitResolution
  deriving DecidableEq

/-- A depth-first walk along the stored edges, from blocker to blocked. -/
def dependentStep (affected : WorkId) (dependencies : List DirectDependency) (s : Search) :
    Option Search :=
  if s.found then none
  else match s.stack with
    | [] => none
    | current :: rest =>
      if s.visited.contains current then some ⟨rest, s.visited, false⟩
      else
        let next := (dependencies.filter (·.blockerId = current)).map DirectDependency.blockedId
        if affected ∈ next then some ⟨rest, s.visited.insert current, true⟩
        else some ⟨next.reverse ++ rest, s.visited.insert current, false⟩

def isDependencyOf (source affected : WorkId) (dependencies : List DirectDependency) : Bool :=
  if source = affected then true
  else (drain (dependentStep affected dependencies) (dependencies.length + 1)
    ⟨[source], ∅, false⟩).found

namespace ExternalWait

def validateExpectations (wait : ExternalWait) : Except ModelError Unit := do
  refuse (¬ wait.expectedDecision.any (isBoundedText 4096) ∧
      ¬ wait.expectedOutput.any (isBoundedText 4096))
    (.invalidExternalWait "expected decision or output is required")
  refuse ((wait.expectedDecision.any fun value => !isBoundedText 4096 value) ∨
      (wait.expectedOutput.any fun value => !isBoundedText 4096 value))
    (.invalidExternalWait
      "expected decision and output must be bounded, nonempty text when supplied")

def validateContent (wait : ExternalWait) : Except ModelError Unit := do
  refuse (wait.revision = 0) (.invalidExternalWait "wait revision must be positive")
  refuse (¬ isBoundedText 4096 wait.reason)
    (.invalidExternalWait "wait reason must be bounded, nonempty text")
  wait.accountable.validate
  wait.followUp.forM BusinessDate.validate
  refuse (wait.followUp.any BusinessDate.isLocalDate ≠ wait.civilTimeSettingRevision.isSome ∨
      wait.civilTimeSettingRevision = some 0)
    (.invalidExternalWait "date-only follow-up requires its project civil-time setting revision")
  wait.validateExpectations
  refuse (¬ isBoundedText 255 wait.createdBy) (.invalidExternalWait "creator identity is invalid")

def validateAffected (wait : ExternalWait) (nodes : List WorkNode)
    (dependencies : List DirectDependency) : List WorkId → List WorkId → Except ModelError Unit
  | _, [] => .ok ()
  | seen, workId :: rest => do
    refuse (workId ∈ seen)
      (.invalidExternalWait "affected work scope contains a duplicate task")
    match nodes.find? (·.id = workId) with
    | none => .error (.missingWork workId)
    | some node => do
      refuse (node.projectId ≠ wait.projectId ∨ ¬ node.isDirect)
        (.invalidExternalWait "affected work must be direct tasks in the wait's project")
      refuse (¬ isDependencyOf wait.sourceWorkId workId dependencies) (.invalidExternalWait
        "affected work must be the source task or one of its dependents")
      validateAffected wait nodes dependencies (workId :: seen) rest

def validateScope (wait : ExternalWait) (nodes : List WorkNode)
    (dependencies : List DirectDependency) : Except ModelError Unit :=
  match nodes.find? (·.id = wait.sourceWorkId) with
  | none => .error (.missingWork wait.sourceWorkId)
  | some source => do
    refuse (source.projectId ≠ wait.projectId ∨ ¬ source.isDirect)
      (.invalidExternalWait "wait source must be a direct task in its project")
    refuse (wait.affectedWorkIds = [])
      (.invalidExternalWait "wait must name at least one affected task")
    wait.validateAffected nodes dependencies [] wait.affectedWorkIds

def validateState (wait : ExternalWait) : Except ModelError Unit :=
  match wait.state, wait.resolution with
  | .opened, none => .ok ()
  | .opened, some _ => .error (.invalidExternalWait "an open wait cannot contain a resolution")
  | .resolved, some resolution =>
    if resolution.outcome ≠ .cancelled then resolution.validate
    else .error (.invalidExternalWait "wait state and resolution outcome disagree")
  | .cancelled, some resolution =>
    if resolution.outcome = .cancelled then resolution.validate
    else .error (.invalidExternalWait "wait state and resolution outcome disagree")
  | .resolved, none | .cancelled, none =>
    .error (.invalidExternalWait "closed waits require an attributed resolution")

def validate (wait : ExternalWait) (nodes : List WorkNode) (dependencies : List DirectDependency) :
    Except ModelError Unit := do
  validateDirectDependencies nodes dependencies
  wait.validateContent
  wait.validateScope nodes dependencies
  wait.validateState

def close (wait : ExternalWait) (state : ExternalWaitState) (resolution : ExternalWaitResolution) :
    Except ModelError ExternalWait := do
  refuse (wait.state ≠ .opened)
    (.invalidExternalWait "only an open wait can be resolved or cancelled")
  refuse (2 ^ 64 ≤ wait.revision + 1) (.invalidExternalWait "wait revision overflow")
  return { wait with
    revision := wait.revision + 1
    state := state
    resolution := some resolution }

end ExternalWait

section Validation
variable {wait : ExternalWait} {nodes nodes' : List WorkNode} {dependencies : List DirectDependency}

theorem ExternalWait.validate_eq_ok {u : Unit} : wait.validate nodes dependencies = .ok u ↔
    validateDirectDependencies nodes dependencies = .ok () ∧ wait.validateContent = .ok () ∧
      wait.validateScope nodes dependencies = .ok () ∧ wait.validateState = .ok () := by
  constructor
  · intro valid
    obtain ⟨_, graph, valid⟩ := bind_eq_ok.mp valid
    obtain ⟨_, content, valid⟩ := bind_eq_ok.mp valid
    obtain ⟨_, scope, state⟩ := bind_eq_ok.mp valid
    exact ⟨graph, content, scope, state⟩
  · rintro ⟨graph, content, scope, state⟩
    exact bind_eq_ok.mpr ⟨(), graph, bind_eq_ok.mpr ⟨(), content, bind_eq_ok.mpr ⟨(), scope, state⟩⟩⟩

theorem ExternalWait.validateAffected_nodup {wait : ExternalWait} {seen l : List WorkId} {u : Unit}
    (valid : wait.validateAffected nodes dependencies seen l = .ok u) :
    l.Nodup ∧ ∀ workId ∈ l, workId ∉ seen := by
  induction l generalizing seen with
  | nil => exact ⟨List.nodup_nil, fun workId member => absurd member List.not_mem_nil⟩
  | cons workId rest ih =>
    obtain ⟨_, fresh, valid⟩ := bind_eq_ok.mp valid
    cases found : nodes.find? (·.id = workId) with
    | none => simp [found] at valid
    | some node =>
      simp only [found] at valid
      obtain ⟨_, _, valid⟩ := bind_eq_ok.mp valid
      obtain ⟨_, _, valid⟩ := bind_eq_ok.mp valid
      obtain ⟨distinct, apart⟩ := ih valid
      rw [List.nodup_cons, List.forall_mem_cons]
      refine ⟨⟨fun member => ?_, distinct⟩, refuse_eq_ok.mp fresh, fun other member => ?_⟩
      · exact apart workId member List.mem_cons_self
      · exact fun early => apart other member (List.mem_cons_of_mem _ early)

structure Alike (named : WorkId → Prop) (node node' : WorkNode) : Prop where
  id : node'.id = node.id
  projectId : node'.projectId = node.projectId
  direct : named node.id → node.isDirect = true → node'.isDirect = true

variable {named : WorkId → Prop}

theorem Alike.find? (alike : List.Forall₂ (Alike named) nodes nodes') {id : WorkId}
    {node : WorkNode} (found : nodes.find? (·.id = id) = some node) :
    ∃ node', nodes'.find? (·.id = id) = some node' ∧ Alike named node node' := by
  induction alike with
  | nil => cases found
  | @cons first first' rest rest' same _ ih =>
    rw [List.find?_cons] at found ⊢
    rw [same.id]
    by_cases own : first.id = id
    · simp only [own, decide_true] at found ⊢
      exact ⟨first', rfl, Option.some.inj found ▸ same⟩
    · simp only [own, decide_false] at found ⊢
      exact ih found

theorem Alike.getElem? {byId byId' : WorkIndex} (alike : List.Forall₂ (Alike named) nodes nodes')
    (start : ∀ (id : WorkId) (node : WorkNode), byId[id]? = some node →
      ∃ node', byId'[id]? = some node' ∧ Alike named node node') {id : WorkId} {node : WorkNode}
    (found : (nodes.foldl (Lookup.indexBy WorkNode.id) byId)[id]? = some node) :
    ∃ node', (nodes'.foldl (Lookup.indexBy WorkNode.id) byId')[id]? = some node' ∧
      Alike named node node' := by
  induction alike generalizing byId byId' with
  | nil => exact start id node found
  | @cons first first' rest rest' same _ ih =>
    rw [List.foldl_cons] at found ⊢
    refine ih (fun id node found => ?_) found
    rw [Lookup.indexBy, Lookup.getElem?_insert] at found ⊢
    rw [same.id]
    by_cases own : first.id = id
    · rw [if_pos own] at found ⊢
      exact ⟨first', rfl, Option.some.inj found ▸ same⟩
    · rw [if_neg own] at found ⊢
      exact start id node found

theorem checkDependencies_alike {byId byId' : WorkIndex} {edges : Std.TreeSet Arc}
    (alike : ∀ (id : WorkId) (node : WorkNode), byId[id]? = some node →
      ∃ node', byId'[id]? = some node' ∧ Alike named node node')
    (own : ∀ (id : WorkId) (node : WorkNode), byId[id]? = some node → node.id = id)
    (ends : ∀ edge ∈ dependencies, named edge.blockerId ∧ named edge.blockedId)
    (accepted : checkDependencies byId dependencies edges = .ok ()) :
    checkDependencies byId' dependencies edges = .ok () := by
  induction dependencies generalizing edges with
  | nil => rfl
  | cons edge rest ih =>
    rw [List.forall_mem_cons] at ends
    rw [checkDependencies] at accepted ⊢
    cases found : byId[edge.blockerId]? with
    | none => simp [found] at accepted
    | some blocker =>
      cases found₂ : byId[edge.blockedId]? with
      | none => simp [found, found₂] at accepted
      | some blocked =>
        obtain ⟨blocker', held, same⟩ := alike _ _ found
        obtain ⟨blocked', held₂, same₂⟩ := alike _ _ found₂
        have direct := same.direct (own _ _ found ▸ ends.1.1)
        have direct₂ := same₂.direct (own _ _ found₂ ▸ ends.1.2)
        simp only [found, found₂] at accepted
        split_ifs at accepted with scope shape old cycle
        rw [Bool.or_eq_true, not_or, Bool.not_eq_true', Bool.not_eq_true',
          Bool.not_eq_false, Bool.not_eq_false] at shape
        simp only [held, held₂, same.projectId, same₂.projectId, direct shape.1,
          direct₂ shape.2, if_neg scope, if_neg old, if_neg cycle, Bool.not_true,
          Bool.or_self, Bool.false_eq_true, if_false]
        exact ih ends.2 accepted

theorem Alike.scoped {node node' : WorkNode} {projectId : ProjectId} {error : ModelError} {u : Unit}
    (alike : Alike named node node')
    (scope : refuse (node.projectId ≠ projectId ∨ ¬ node.isDirect) error = .ok u)
    (direct : node.isDirect = true → node'.isDirect = true) :
    refuse (node'.projectId ≠ projectId ∨ ¬ node'.isDirect) error = .ok () := by
  have kept := refuse_eq_ok.mp scope
  rw [not_or, not_not, not_not] at kept
  refine refuse_of_not ?_
  rw [not_or, not_not, not_not]
  exact ⟨alike.projectId.trans kept.1, direct kept.2⟩

theorem ExternalWait.validateAffected_alike {wait : ExternalWait} {seen l : List WorkId}
    (alike : List.Forall₂ (Alike named) nodes nodes') (inside : ∀ workId ∈ l, named workId)
    (valid : wait.validateAffected nodes dependencies seen l = .ok ()) :
    wait.validateAffected nodes' dependencies seen l = .ok () := by
  induction l generalizing seen with
  | nil => rfl
  | cons workId rest ih =>
    rw [List.forall_mem_cons] at inside
    obtain ⟨_, fresh, valid⟩ := bind_eq_ok.mp valid
    refine bind_eq_ok.mpr ⟨(), fresh, ?_⟩
    cases found : nodes.find? (·.id = workId) with
    | none => simp [found] at valid
    | some node =>
      obtain ⟨node', held, same⟩ := Alike.find? alike found
      have own : node.id = workId := by simpa using List.find?_some found
      have direct := same.direct (own ▸ inside.1)
      simp only [found] at valid
      simp only [held]
      obtain ⟨_, scope, valid⟩ := bind_eq_ok.mp valid
      obtain ⟨_, reached, valid⟩ := bind_eq_ok.mp valid
      exact bind_eq_ok.mpr ⟨(), same.scoped scope direct, bind_eq_ok.mpr ⟨(), reached,
        ih inside.2 valid⟩⟩

theorem foldl_indexBy_own {byId : WorkIndex}
    (start : ∀ (id : WorkId) (node : WorkNode), byId[id]? = some node → node.id = id)
    {id : WorkId} {node : WorkNode}
    (found : (nodes.foldl (Lookup.indexBy WorkNode.id) byId)[id]? = some node) : node.id = id := by
  induction nodes generalizing byId with
  | nil => exact start id node found
  | cons first rest ih =>
    rw [List.foldl_cons] at found
    refine ih (fun id node found => ?_) found
    rw [Lookup.indexBy, Lookup.getElem?_insert] at found
    split_ifs at found with own
    · rw [← Option.some.inj found, own]
    · exact start id node found

theorem ExternalWait.validate_alike {wait : ExternalWait} (alike : List.Forall₂ (Alike named) nodes nodes')
    (forest : validateDecomposition nodes' = .ok ())
    (ends : ∀ edge ∈ dependencies, named edge.blockerId ∧ named edge.blockedId)
    (source : named wait.sourceWorkId) (affected : ∀ workId ∈ wait.affectedWorkIds, named workId)
    (valid : wait.validate nodes dependencies = .ok ()) : wait.validate nodes' dependencies = .ok () := by
  obtain ⟨graph, content, scope, state⟩ := validate_eq_ok.mp valid
  have absent (id : WorkId) (node : WorkNode) : (∅ : WorkIndex)[id]? ≠ some node := by simp
  refine validate_eq_ok.mpr ⟨?_, content, ?_, state⟩
  · rw [validateDirectDependencies] at graph ⊢
    rw [forest]
    cases decomposed : validateDecomposition nodes with
    | error error => simp [decomposed] at graph
    | ok done =>
      simp only [decomposed] at graph
      refine checkDependencies_alike (fun id node found => ?_) (fun id node found => ?_) ends graph
      · exact Alike.getElem? alike (fun id node found => absurd found (absent id node)) found
      · exact foldl_indexBy_own (fun id node found => absurd found (absent id node)) found
  · rw [validateScope] at scope ⊢
    cases found : nodes.find? (·.id = wait.sourceWorkId) with
    | none => simp [found] at scope
    | some node =>
      obtain ⟨node', held, same⟩ := Alike.find? alike found
      have own : node.id = wait.sourceWorkId := by simpa using List.find?_some found
      have direct := same.direct (own ▸ source)
      simp only [found] at scope
      simp only [held]
      obtain ⟨_, shape, scope⟩ := bind_eq_ok.mp scope
      obtain ⟨_, present, scope⟩ := bind_eq_ok.mp scope
      exact bind_eq_ok.mpr ⟨(), same.scoped shape direct, bind_eq_ok.mpr ⟨(), present,
        validateAffected_alike alike affected scope⟩⟩

end Validation

end Boreal.WorkModel
