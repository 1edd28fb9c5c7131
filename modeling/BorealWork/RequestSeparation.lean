/- What the request digests tell apart. Two requests of one planning operation with one digest agree in
the fields their payload names; the planned values agree when the fields it leaves out do too. -/
import BorealWork.IntakePlanning

namespace Boreal.Planning
open Drain JsonValue Sorting WorkModel

section Digests

@[simp] theorem canonicalize_string (text : String) : canonicalize (.string text) = .string text := rfl

@[simp] theorem canonicalize_jsonText (text : Option String) : canonicalize (jsonText text) = jsonText text := by
  cases text <;> rfl

@[simp] theorem canonicalize_jsonNatural (n : ℕ) : canonicalize (jsonNatural n) = jsonNatural n := rfl

@[simp] theorem canonicalize_jsonOptionalNatural (n : Option ℕ) :
    canonicalize (jsonOptionalNatural n) = jsonOptionalNatural n := by
  cases n <;> rfl

theorem jsonText_injective : Function.Injective jsonText := by
  intro a b same
  cases a <;> cases b <;> simp [jsonText] at same ⊢
  exact same

theorem jsonNatural_injective : Function.Injective jsonNatural := by
  intro a b same
  simpa [jsonNatural] using same

theorem jsonOptionalNatural_injective : Function.Injective jsonOptionalNatural := by
  intro a b same
  cases a <;> cases b <;> simp [jsonOptionalNatural, jsonNatural] at same ⊢
  exact same

theorem canonicalizeMembers_keys (members : List (String × Value)) :
    (canonicalizeMembers members).map Prod.fst = members.map Prod.fst := by
  induction members with
  | nil => rfl
  | cons member rest ih =>
    obtain ⟨key, value⟩ := member
    rw [canonicalizeMembers, List.map_cons, List.map_cons, ih]

theorem members_unique {members members' : List (String × Value)} (perm : members.Perm members')
    (keys : members.map Prod.fst = members'.map Prod.fst) (distinct : (members.map Prod.fst).Nodup) :
    members = members' := by
  induction members generalizing members' with
  | nil => exact (List.nil_perm.mp perm).symm
  | cons member rest ih =>
    cases members' with
    | nil => cases keys
    | cons member' rest' =>
      obtain ⟨first, later⟩ := List.cons.inj keys
      rw [List.map_cons, List.nodup_cons] at distinct
      have same : member = member' := by
        rcases List.mem_cons.mp (perm.subset List.mem_cons_self) with same | inside
        · exact same
        · refine absurd ?_ distinct.1
          rw [later]
          exact List.mem_map_of_mem inside
      subst same
      rw [ih (List.perm_cons _ |>.mp perm) later distinct.2]

variable {hash : Value → String} (injective : Function.Injective hash)
include injective

theorem canonicalRequestDigest_inj {command command' : String} {payload payload' : Value}
    (same : canonicalRequestDigest hash command payload = canonicalRequestDigest hash command' payload') :
    command = command' ∧ canonicalize payload = canonicalize payload' := by
  have sorted (command : String) (payload : Value) : canonicalize (.object [("command", .string command),
      ("payload", payload), ("schema", .string "boreal.operation-request.v1")]) =
        .object [("command", .string command), ("payload", canonicalize payload),
          ("schema", .string "boreal.operation-request.v1")] := by
    have ordered : [("command", Value.string command), ("payload", canonicalize payload),
        ("schema", Value.string "boreal.operation-request.v1")].Pairwise
          fun a b => a.1 ≤ b.1 := by
      have keys : ["command", "payload", "schema"].Pairwise (· ≤ ·) := by simp
      exact List.pairwise_map.mp keys
    simp only [canonicalize, canonicalizeMembers]
    rw [sortOn_of_sorted ordered]
  have equal := injective same
  rw [sorted, sorted] at equal
  simpa using equal

theorem payload_inj {command : String} {members members' : List (String × Value)}
    (keys : members.map Prod.fst = members'.map Prod.fst) (distinct : (members.map Prod.fst).Nodup)
    (same : canonicalRequestDigest hash command (.object members) =
      canonicalRequestDigest hash command (.object members')) :
    canonicalizeMembers members = canonicalizeMembers members' := by
  have equal := (canonicalRequestDigest_inj injective same).2
  rw [canonicalize, canonicalize, Value.object.injEq] at equal
  have perm := (sortOn_perm Prod.fst (canonicalizeMembers members)).symm.trans
    (equal ▸ sortOn_perm Prod.fst (canonicalizeMembers members'))
  refine members_unique perm ?_ ?_
  · rw [canonicalizeMembers_keys, canonicalizeMembers_keys, keys]
  · rwa [canonicalizeMembers_keys]

end Digests

theorem executionModeName_injective : Function.Injective executionModeName := by
  intro a b same
  cases a <;> cases b <;> first | rfl | simp [executionModeName] at same

theorem lifecycleName_injective : Function.Injective IntakeLifecycle.name := by
  intro a b same
  cases a <;> cases b <;> first | rfl | simp [IntakeLifecycle.name] at same

theorem targetKindName_injective : Function.Injective PromotionTargetKind.name := by
  intro a b same
  cases a <;> cases b <;> first | rfl | simp [PromotionTargetKind.name] at same

theorem dispositionKindName_injective : Function.Injective DispositionKind.name := by
  intro a b same
  cases a <;> cases b <;> first | rfl | simp [DispositionKind.name] at same

theorem PlanningScope.check_eq_ok {scope : PlanningScope} {projectId : ProjectId} {revision : ℕ}
    (passed : scope.check projectId revision = .ok ()) :
    scope.projectId = projectId ∧ scope.expectedRevision = some revision := by
  obtain ⟨-, passed⟩ := Drain.check_eq_ok.mp passed
  obtain ⟨project, passed⟩ := Drain.check_eq_ok.mp passed
  refine ⟨not_not.mp (refuse_eq_ok.mp project), ?_⟩
  rw [PlanningScope.requireRevision] at passed
  split at passed
  next expected given =>
    split_ifs at passed with same
    rw [given, same]
  next => cases passed

section WorkEdits

variable {hash : Value → String} {snapshot : HierarchySnapshot} {a b : WorkEditRequest}
  {p q : PlannedOperation WorkNode}

/-- The two requests agree in what the payload says. It writes an absent parent as it writes an empty
one. -/
structure WorkEditRequest.Alike (a b : WorkEditRequest) : Prop where
  actor : a.scope.actorId = b.scope.actorId
  session : a.scope.sessionId = b.scope.sessionId
  work : a.workId = b.workId
  parent : a.parentId.join = b.parentId.join
  title : a.title = b.title
  mode : a.executionMode = b.executionMode

def WorkEditRequest.Separable (snapshot : HierarchySnapshot) (a b : WorkEditRequest) : Prop :=
  a.Alike b → ∀ node ∈ snapshot.nodes.find? (·.id = a.workId), a.parentId = b.parentId ∨ node.parentId = none

theorem planWorkEdit_eq_ok (plan : planWorkEdit hash snapshot a = .ok p) :
    (a.scope.projectId = snapshot.projectId ∧ a.scope.expectedRevision = some snapshot.revision) ∧
    ∃ node, snapshot.nodes.find? (·.id = a.workId) = some node ∧ p.value = a.updated node ∧
      p.requestDigest = canonicalRequestDigest hash "work.edit/v3" a.payload := by
  obtain ⟨scope, plan⟩ := check_eq_ok.mp plan
  obtain ⟨node, found, plan⟩ := bind_eq_ok.mp plan
  obtain ⟨-, plan⟩ := check_eq_ok.mp plan
  obtain ⟨-, made⟩ := check_eq_ok.mp plan
  obtain rfl := Except.ok.inj made
  exact ⟨PlanningScope.check_eq_ok scope, node, found_eq_ok.mp found, rfl, rfl⟩

theorem parentText (request : WorkEditRequest) :
    (request.parentId.map fun parent => jsonText (parent.map (·.value))).getD .null =
      jsonText (request.parentId.join.map (·.value)) := by
  cases request.parentId <;> rfl

theorem getD_eq_iff {α : Type} {x y : Option (Option α)} {z : Option α} (same : x.join = y.join) :
    x.getD z = y.getD z ↔ x = y ∨ z = none := by
  rcases x with - | - | x <;> rcases y with - | - | y <;> simp_all [eq_comm]

theorem workEdit_separates (injective : Function.Injective hash)
    (pa : planWorkEdit hash snapshot a = .ok p) (pb : planWorkEdit hash snapshot b = .ok q) :
    (p.requestDigest = q.requestDigest → p.value = q.value) ↔ a.Separable snapshot b := by
  obtain ⟨⟨project, revision⟩, node, found, value, digest⟩ := planWorkEdit_eq_ok pa
  obtain ⟨⟨project', revision'⟩, node', found', value', digest'⟩ := planWorkEdit_eq_ok pb
  have alike : p.requestDigest = q.requestDigest ↔ a.Alike b := by
    rw [digest, digest']
    constructor
    · intro same
      have members := payload_inj injective (by rfl) (by simp) same
      simp only [canonicalizeMembers, parentText, canonicalize_string, canonicalize_jsonText,
        canonicalize_jsonOptionalNatural, List.cons.injEq, Prod.mk.injEq, Value.string.injEq,
        jsonText_injective.eq_iff, TypedId.value_injective.eq_iff,
        (Option.map_injective TypedId.value_injective).eq_iff,
        (Option.map_injective executionModeName_injective).eq_iff, true_and, and_true] at members
      obtain ⟨-, actor, session, work, parent, title, mode, -⟩ := members
      exact ⟨actor, session, work, parent, title, mode⟩
    · rintro ⟨actor, session, work, parent, title, mode⟩
      rw [WorkEditRequest.payload, WorkEditRequest.payload, parentText, parentText, project, project',
        revision, revision', actor, session, work, parent, title, mode]
  rw [alike, WorkEditRequest.Separable]
  refine imp_congr_right fun same => ?_
  rw [same.work] at found
  obtain rfl := Option.some.inj (found.symm.trans found')
  rw [same.work, found, value, value', WorkEditRequest.updated, WorkEditRequest.updated, same.title, same.mode]
  simp only [WorkNode.mk.injEq, Option.mem_some_iff, forall_eq', getD_eq_iff same.parent, true_and, and_true]

end WorkEdits

section CycleCreations

variable {hash : Value → String} {snapshot : HierarchySnapshot} {a b : CycleCreateRequest}
  {p q : PlannedOperation Cycle}

def CycleCreateRequest.Separable (a b : CycleCreateRequest) : Prop :=
  a.cycle.id = b.cycle.id → a.cycle.name = b.cycle.name → a.cycle = b.cycle

theorem planCycleCreate_eq_ok (plan : planCycleCreate hash snapshot a = .ok p) :
    a.scope.projectId = snapshot.projectId ∧ p.value = a.cycle ∧
      p.requestDigest = canonicalRequestDigest hash "cycle.create/v3" (a.payload snapshot.revision) := by
  obtain ⟨scope, plan⟩ := check_eq_ok.mp plan
  obtain ⟨-, plan⟩ := check_eq_ok.mp plan
  obtain ⟨-, plan⟩ := check_eq_ok.mp plan
  obtain ⟨-, made⟩ := check_eq_ok.mp plan
  obtain rfl := Except.ok.inj made
  exact ⟨(PlanningScope.check_eq_ok scope).1, rfl, rfl⟩

theorem cycleCreate_separates (injective : Function.Injective hash)
    (pa : planCycleCreate hash snapshot a = .ok p) (pb : planCycleCreate hash snapshot b = .ok q) :
    (p.requestDigest = q.requestDigest → p.value = q.value) ↔ a.Separable b := by
  obtain ⟨project, value, digest⟩ := planCycleCreate_eq_ok pa
  obtain ⟨project', value', digest'⟩ := planCycleCreate_eq_ok pb
  have alike : p.requestDigest = q.requestDigest ↔
      a.cycle.id = b.cycle.id ∧ a.cycle.name = b.cycle.name := by
    rw [digest, digest']
    constructor
    · intro same
      have members := payload_inj injective (by rfl) (by simp) same
      simp only [canonicalizeMembers, canonicalize_string, canonicalize_jsonNatural, List.cons.injEq,
        Prod.mk.injEq, Value.string.injEq, TypedId.value_injective.eq_iff, true_and, and_true] at members
      exact members.2
    · rintro ⟨id, name⟩
      rw [CycleCreateRequest.payload, CycleCreateRequest.payload, project, project', id, name]
  rw [alike, value, value', CycleCreateRequest.Separable, and_imp]

end CycleCreations

section IntakeUpdates

variable {hash : Value → String} {snapshot : IntakeSnapshot} {a b : IntakeUpdateRequest}
  {p q : PlannedOperation IntakeItem}

def IntakeUpdateRequest.settled (request : IntakeUpdateRequest) (item : IntakeItem) : IntakeItem :=
  { item with
    content := request.content.getD item.content
    contentRevision := item.contentRevision + request.content.toList.length
    contentDigest := (request.content.map fun content => Source.contentDigest (Source.utf8 content)).getD
      item.contentDigest
    lifecycle := request.lifecycle.getD item.lifecycle
    revisitAt := request.revisitAt.getD item.revisitAt }

structure IntakeUpdateRequest.Alike (item : IntakeItem) (a b : IntakeUpdateRequest) : Prop where
  actor : a.scope.actorId = b.scope.actorId
  digest : (a.settled item).contentDigest = (b.settled item).contentDigest
  lifecycle : (a.settled item).lifecycle = (b.settled item).lifecycle
  revisit : (a.settled item).revisitAt = (b.settled item).revisitAt

def IntakeUpdateRequest.Separable (snapshot : IntakeSnapshot) (a b : IntakeUpdateRequest) : Prop :=
  a.intakeId = b.intakeId → ∀ item ∈ snapshot.items.find? (·.id = a.intakeId),
    a.Alike item b → a.content = b.content

theorem edited_eq_ok {item edited : IntakeItem} (done : a.edited item = .ok edited) :
    edited = { item with
      content := a.content.getD item.content
      contentRevision := item.contentRevision + a.content.toList.length
      contentDigest := (a.content.map fun content => Source.contentDigest (Source.utf8 content)).getD
        item.contentDigest } := by
  rw [IntakeUpdateRequest.edited] at done
  split at done
  next given =>
    cases done
    rw [given]
    rfl
  next content given =>
    obtain ⟨-, done⟩ := check_eq_ok.mp done
    obtain ⟨-, done⟩ := check_eq_ok.mp done
    cases done
    rw [given]
    rfl

theorem planIntakeUpdate_eq_ok (plan : planIntakeUpdate hash snapshot a = .ok p) :
    a.scope.projectId = snapshot.projectId ∧
    ∃ item, snapshot.items.find? (·.id = a.intakeId) = some item ∧
      item.contentRevision = a.expectedContentRevision ∧ p.value = a.settled item ∧
      p.requestDigest = canonicalRequestDigest hash "intake.update/v3"
        (a.payload (a.settled item) snapshot.revision) := by
  obtain ⟨scope, plan⟩ := check_eq_ok.mp plan
  obtain ⟨item, found, plan⟩ := bind_eq_ok.mp plan
  obtain ⟨revision, plan⟩ := check_eq_ok.mp plan
  obtain ⟨edited, edit, plan⟩ := bind_eq_ok.mp plan
  obtain ⟨moved, transition, plan⟩ := bind_eq_ok.mp plan
  obtain ⟨-, made⟩ := check_eq_ok.mp plan
  obtain rfl := Except.ok.inj made
  have settled : moved = a.settled item := by
    rw [mapError_eq_ok, edited_eq_ok edit] at transition
    rw [IntakeUpdateRequest.settled]
    cases change : a.lifecycle with
    | none =>
      rw [change] at transition
      exact (Except.ok.inj transition).symm
    | some lifecycle =>
      rw [change, Option.elim_some, IntakeItem.transition] at transition
      obtain ⟨-, transition⟩ := check_eq_ok.mp transition
      obtain ⟨-, transition⟩ := check_eq_ok.mp transition
      exact (Except.ok.inj transition).symm
  subst settled
  exact ⟨(PlanningScope.check_eq_ok scope).1, item, found_eq_ok.mp found,
    not_not.mp (refuse_eq_ok.mp revision), rfl, rfl⟩

theorem intakeUpdate_separates (injective : Function.Injective hash)
    (pa : planIntakeUpdate hash snapshot a = .ok p) (pb : planIntakeUpdate hash snapshot b = .ok q) :
    (p.requestDigest = q.requestDigest → p.value = q.value) ↔ a.Separable snapshot b := by
  obtain ⟨project, item, found, revision, value, digest⟩ := planIntakeUpdate_eq_ok pa
  obtain ⟨project', item', found', revision', value', digest'⟩ := planIntakeUpdate_eq_ok pb
  have alike : p.requestDigest = q.requestDigest ↔ a.intakeId = b.intakeId ∧ a.Alike item b := by
    rw [digest, digest']
    constructor
    · intro same
      have members := payload_inj injective (by rfl) (by simp) same
      simp only [canonicalizeMembers, canonicalize_string, canonicalize_jsonNatural,
        canonicalize_jsonOptionalNatural, List.cons.injEq, Prod.mk.injEq, Value.string.injEq,
        lifecycleName_injective.eq_iff, TypedId.value_injective.eq_iff,
        jsonOptionalNatural_injective.eq_iff,
        (Option.map_injective TypedRevision.value_injective).eq_iff, true_and, and_true] at members
      obtain ⟨-, actor, intake, -, content, lifecycle, revisit⟩ := members
      rw [intake] at found
      obtain rfl := Option.some.inj (found.symm.trans found')
      exact ⟨intake, actor, content, lifecycle, revisit⟩
    · rintro ⟨intake, actor, content, lifecycle, revisit⟩
      rw [intake] at found
      obtain rfl := Option.some.inj (found.symm.trans found')
      rw [IntakeUpdateRequest.payload, IntakeUpdateRequest.payload, project, project', actor, intake,
        ← revision, ← revision', content, lifecycle, revisit]
  rw [alike, IntakeUpdateRequest.Separable, and_imp]
  refine imp_congr_right fun intake => ?_
  rw [found]
  simp only [Option.mem_some_iff, forall_eq']
  rw [intake] at found
  obtain rfl := Option.some.inj (found.symm.trans found')
  refine imp_congr_right fun same => ?_
  rw [value, value']
  constructor
  · intro equal
    have content : a.content.getD item.content = b.content.getD item.content :=
      congrArg IntakeItem.content equal
    have count : item.contentRevision + a.content.toList.length =
        item.contentRevision + b.content.toList.length := congrArg IntakeItem.contentRevision equal
    cases own : a.content <;> cases other : b.content <;> simp_all
  · intro content
    have lifecycle := same.lifecycle
    have revisit := same.revisit
    rw [IntakeUpdateRequest.settled, IntakeUpdateRequest.settled] at lifecycle revisit ⊢
    dsimp only at lifecycle revisit
    rw [content, lifecycle, revisit]

end IntakeUpdates

section Promotions

variable {hash : Value → String} {snapshot : IntakeSnapshot} {a b : IntakePromotionRequest}
  {p q : PlannedOperation IntakePromotion}

structure IntakePromotionRequest.Alike (a b : IntakePromotionRequest) : Prop where
  actor : a.scope.actorId = b.scope.actorId
  intake : a.intakeId = b.intakeId
  targetKind : a.targetKind = b.targetKind
  target : a.targetId = b.targetId

def IntakePromotionRequest.Separable (a b : IntakePromotionRequest) : Prop :=
  a.Alike b → a.promotionId = b.promotionId

theorem planIntakePromotion_eq_ok (plan : planIntakePromotion hash snapshot a = .ok p) :
    a.scope.projectId = snapshot.projectId ∧
    ∃ item, snapshot.items.find? (·.id = a.intakeId) = some item ∧ p.value = a.promotion item ∧
      p.requestDigest = canonicalRequestDigest hash "intake.promote/v3"
        (a.payload item snapshot.revision) := by
  obtain ⟨scope, plan⟩ := check_eq_ok.mp plan
  obtain ⟨item, found, plan⟩ := bind_eq_ok.mp plan
  obtain ⟨-, plan⟩ := check_eq_ok.mp plan
  obtain ⟨-, made⟩ := check_eq_ok.mp plan
  obtain rfl := Except.ok.inj made
  exact ⟨(PlanningScope.check_eq_ok scope).1, item, found_eq_ok.mp found, rfl, rfl⟩

theorem intakePromotion_separates (injective : Function.Injective hash)
    (pa : planIntakePromotion hash snapshot a = .ok p) (pb : planIntakePromotion hash snapshot b = .ok q) :
    (p.requestDigest = q.requestDigest → p.value = q.value) ↔ a.Separable b := by
  obtain ⟨project, item, found, value, digest⟩ := planIntakePromotion_eq_ok pa
  obtain ⟨project', item', found', value', digest'⟩ := planIntakePromotion_eq_ok pb
  have alike : p.requestDigest = q.requestDigest ↔ a.Alike b := by
    rw [digest, digest']
    constructor
    · intro same
      have members := payload_inj injective (by rfl) (by simp) same
      simp only [canonicalizeMembers, canonicalize_string, canonicalize_jsonNatural, List.cons.injEq,
        Prod.mk.injEq, Value.string.injEq, targetKindName_injective.eq_iff,
        TypedId.value_injective.eq_iff, true_and, and_true] at members
      obtain ⟨-, actor, intake, -, -, kind, target⟩ := members
      exact ⟨actor, intake, kind, target⟩
    · rintro ⟨actor, intake, kind, target⟩
      rw [intake] at found
      obtain rfl := Option.some.inj (found.symm.trans found')
      rw [IntakePromotionRequest.payload, IntakePromotionRequest.payload, project, project', actor, intake,
        kind, target]
  rw [alike, IntakePromotionRequest.Separable]
  refine imp_congr_right fun same => ?_
  rw [same.intake] at found
  obtain rfl := Option.some.inj (found.symm.trans found')
  rw [value, value', IntakePromotionRequest.promotion, IntakePromotionRequest.promotion, project, project',
    same.intake, same.targetKind, same.target]
  simp only [IntakePromotion.mk.injEq, and_true]

end Promotions

section Dispositions

variable {hash : Value → String} {a b : DispositionRequest} {p q : PlannedOperation ContainerDisposition}

structure DispositionRequest.Alike (a b : DispositionRequest) : Prop where
  project : a.scope.projectId = b.scope.projectId
  actor : a.scope.actorId = b.scope.actorId
  container : a.disposition.containerId = b.disposition.containerId
  descendant : a.disposition.descendantId = b.disposition.descendantId
  kind : a.disposition.kind = b.disposition.kind
  descendantRevision : a.disposition.descendantRevision = b.disposition.descendantRevision
  outcome : a.disposition.descendantOutcomeDigest = b.disposition.descendantOutcomeDigest
  supersedes : a.disposition.supersedesId = b.disposition.supersedesId
  expectedRevision : a.scope.expectedRevision = b.scope.expectedRevision

def DispositionRequest.Separable (a b : DispositionRequest) : Prop :=
  a.Alike b → a.disposition.id = b.disposition.id ∧
    a.disposition.replacementId = b.disposition.replacementId ∧
    a.disposition.reason = b.disposition.reason

theorem planDisposition_eq_ok (plan : planDisposition hash a = .ok p) :
    a.disposition.projectId = a.scope.projectId ∧ p.value = a.disposition ∧
      p.requestDigest = canonicalRequestDigest hash "container.disposition/v3" a.payload := by
  obtain ⟨-, plan⟩ := check_eq_ok.mp plan
  obtain ⟨expectedRevision, -, plan⟩ := bind_eq_ok.mp plan
  obtain ⟨scope, plan⟩ := check_eq_ok.mp plan
  obtain ⟨-, made⟩ := check_eq_ok.mp plan
  obtain rfl := Except.ok.inj made
  have scope := refuse_eq_ok.mp scope
  rw [not_or, not_not] at scope
  exact ⟨scope.1, rfl, rfl⟩

theorem disposition_separates (injective : Function.Injective hash)
    (pa : planDisposition hash a = .ok p) (pb : planDisposition hash b = .ok q) :
    (p.requestDigest = q.requestDigest → p.value = q.value) ↔ a.Separable b := by
  obtain ⟨project, value, digest⟩ := planDisposition_eq_ok pa
  obtain ⟨project', value', digest'⟩ := planDisposition_eq_ok pb
  have alike : p.requestDigest = q.requestDigest ↔ a.Alike b := by
    rw [digest, digest']
    constructor
    · intro same
      have members := payload_inj injective (by rfl) (by simp) same
      simp only [canonicalizeMembers, canonicalize_string, canonicalize_jsonText, canonicalize_jsonNatural,
        canonicalize_jsonOptionalNatural, List.cons.injEq, Prod.mk.injEq, Value.string.injEq,
        dispositionKindName_injective.eq_iff, TypedId.value_injective.eq_iff, jsonText_injective.eq_iff,
        jsonNatural_injective.eq_iff, jsonOptionalNatural_injective.eq_iff,
        (Option.map_injective TypedId.value_injective).eq_iff, true_and, and_true] at members
      obtain ⟨project, actor, container, descendant, kind, revision, outcome, supersedes, expected⟩ := members
      exact ⟨project, actor, container, descendant, kind, revision, outcome, supersedes, expected⟩
    · rintro ⟨project, actor, container, descendant, kind, revision, outcome, supersedes, expected⟩
      rw [DispositionRequest.payload, DispositionRequest.payload, project, actor, container, descendant,
        kind, revision, outcome, supersedes, expected]
  rw [alike, DispositionRequest.Separable, value, value']
  refine imp_congr_right fun same => ?_
  constructor
  · intro equal
    rw [equal]
    exact ⟨rfl, rfl, rfl⟩
  · rintro ⟨id, replacement, reason⟩
    exact ContainerDisposition.ext id same.container same.descendant
      (project.trans (same.project.trans project'.symm)) same.kind same.descendantRevision same.outcome
      replacement reason same.supersedes

end Dispositions

section Requests

variable (hash : Value → String) (hierarchy : HierarchySnapshot) (intake : IntakeSnapshot)

inductive PlanningRequest
  | workEdit (request : WorkEditRequest)
  | cycleCreate (request : CycleCreateRequest)
  | intakeUpdate (request : IntakeUpdateRequest)
  | intakePromotion (request : IntakePromotionRequest)
  | disposition (request : DispositionRequest)
  deriving DecidableEq

inductive PlannedValue
  | work (node : WorkNode)
  | cycle (cycle : Cycle)
  | item (item : IntakeItem)
  | promotion (promotion : IntakePromotion)
  | disposition (disposition : ContainerDisposition)
  deriving DecidableEq

def PlanningRequest.plan : PlanningRequest → Except PlanningError (PlannedOperation PlannedValue)
  | .workEdit request => (planWorkEdit hash hierarchy request).map (.map .work)
  | .cycleCreate request => (planCycleCreate hash hierarchy request).map (.map .cycle)
  | .intakeUpdate request => (planIntakeUpdate hash intake request).map (.map .item)
  | .intakePromotion request => (planIntakePromotion hash intake request).map (.map .promotion)
  | .disposition request => (planDisposition hash request).map (.map .disposition)

def PlanningRequest.command : PlanningRequest → String
  | .workEdit _ => "work.edit/v3"
  | .cycleCreate _ => "cycle.create/v3"
  | .intakeUpdate _ => "intake.update/v3"
  | .intakePromotion _ => "intake.promote/v3"
  | .disposition _ => "container.disposition/v3"

/-- What the payload of the operation leaves out is the same in two requests that it shows alike. -/
def PlanningRequest.Separable : PlanningRequest → PlanningRequest → Prop
  | .workEdit a, .workEdit b => a.Separable hierarchy b
  | .cycleCreate a, .cycleCreate b => a.Separable b
  | .intakeUpdate a, .intakeUpdate b => a.Separable intake b
  | .intakePromotion a, .intakePromotion b => a.Separable b
  | .disposition a, .disposition b => a.Separable b
  | _, _ => True

variable {hash hierarchy intake}

theorem wrapped_separates {α : Type} {wrap : α → PlannedValue} (wraps : Function.Injective wrap)
    {x y : Except PlanningError (PlannedOperation α)} {p q : PlannedOperation PlannedValue} {S : Prop}
    (pa : x.map (.map wrap) = .ok p) (pb : y.map (.map wrap) = .ok q)
    (separates : ∀ {p q : PlannedOperation α}, x = .ok p → y = .ok q →
      ((p.requestDigest = q.requestDigest → p.value = q.value) ↔ S)) :
    (p.requestDigest = q.requestDigest → p.value = q.value) ↔ S := by
  obtain ⟨p, plan, rfl⟩ := map_eq_ok.mp pa
  obtain ⟨q, plan', rfl⟩ := map_eq_ok.mp pb
  rw [← separates plan plan']
  exact imp_congr_right fun _ => wraps.eq_iff

/-- Two requests of one planning operation have different digests or one planned value exactly when
they are separable. -/
theorem digests_separate_iff (injective : Function.Injective hash) {a b : PlanningRequest}
    {p q : PlannedOperation PlannedValue} (operation : a.command = b.command)
    (pa : a.plan hash hierarchy intake = .ok p) (pb : b.plan hash hierarchy intake = .ok q) :
    (p.requestDigest = q.requestDigest → p.value = q.value) ↔ a.Separable hierarchy intake b := by
  cases a with
  | workEdit a =>
    cases b with
    | workEdit b => exact wrapped_separates (fun _ _ => PlannedValue.work.inj) pa pb fun plan plan' => workEdit_separates injective plan plan'
    | _ => simp [PlanningRequest.command] at operation
  | cycleCreate a =>
    cases b with
    | cycleCreate b => exact wrapped_separates (fun _ _ => PlannedValue.cycle.inj) pa pb fun plan plan' => cycleCreate_separates injective plan plan'
    | _ => simp [PlanningRequest.command] at operation
  | intakeUpdate a =>
    cases b with
    | intakeUpdate b => exact wrapped_separates (fun _ _ => PlannedValue.item.inj) pa pb fun plan plan' => intakeUpdate_separates injective plan plan'
    | _ => simp [PlanningRequest.command] at operation
  | intakePromotion a =>
    cases b with
    | intakePromotion b => exact wrapped_separates (fun _ _ => PlannedValue.promotion.inj) pa pb fun plan plan' => intakePromotion_separates injective plan plan'
    | _ => simp [PlanningRequest.command] at operation
  | disposition a =>
    cases b with
    | disposition b => exact wrapped_separates (fun _ _ => PlannedValue.disposition.inj) pa pb fun plan plan' => disposition_separates injective plan plan'
    | _ => simp [PlanningRequest.command] at operation

def filedTask : HierarchySnapshot where
  projectId := ⟨"p-1"⟩
  revision := 3
  nodes := [⟨⟨"m-1"⟩, ⟨"p-1"⟩, .milestone, .container, none, "m-1"⟩,
    ⟨⟨"w-1"⟩, ⟨"p-1"⟩, .task, .direct, some ⟨"m-1"⟩, "w-1"⟩]
  dependencies := []
  cycles := []
  assignments := []

def emptyIntake : IntakeSnapshot := ⟨⟨"p-1"⟩, 3, [], []⟩

def editorScope : PlanningScope := ⟨⟨"p-1"⟩, "operator", none, some 3⟩

/-- An edit of the task that changes at most where it is filed. -/
def filing (parentId : Option (Option WorkId)) : WorkEditRequest :=
  ⟨editorScope, "op-1", ⟨"w-1"⟩, parentId, none, none⟩

def filed (hash : Value → String) (parentId : Option (Option WorkId)) : PlannedOperation PlannedValue :=
  editorScope.planned "op-1" (canonicalRequestDigest hash "work.edit/v3" (filing parentId).payload) 3
    (.work ⟨⟨"w-1"⟩, ⟨"p-1"⟩, .task, .direct, parentId.getD (some ⟨"m-1"⟩), "w-1"⟩)

theorem filing_planned (hash : Value → String) (parentId : Option (Option WorkId))
    (known : parentId = none ∨ parentId = some none) :
    PlanningRequest.plan hash filedTask emptyIntake (.workEdit (filing parentId)) =
      .ok (filed hash parentId) := by
  have scope : filedTask.scope editorScope = .ok () := by rfl
  have node : filedTask.node ⟨"w-1"⟩ =
      .ok ⟨⟨"w-1"⟩, ⟨"p-1"⟩, .task, .direct, some ⟨"m-1"⟩, "w-1"⟩ := by rfl
  have decomposed : validateDecomposition (filedTask.replaced ((filing parentId).updated
      ⟨⟨"w-1"⟩, ⟨"p-1"⟩, .task, .direct, some ⟨"m-1"⟩, "w-1"⟩)) = .ok () := by
    rcases known with rfl | rfl <;> rfl
  exact map_eq_ok.mpr ⟨_, check_eq_ok.mpr ⟨scope, bind_eq_ok.mpr ⟨_, node,
    check_eq_ok.mpr ⟨rfl, check_eq_ok.mpr ⟨mapError_eq_ok.mpr decomposed, rfl⟩⟩⟩⟩, rfl⟩

/-- A digest that tells all values apart. -/
def textHash (value : Value) : String := String.ofList value.code

theorem filing_separable_iff : ((filed textHash none).requestDigest = (filed textHash (some none)).requestDigest →
      (filed textHash none).value = (filed textHash (some none)).value) ↔
    PlanningRequest.Separable filedTask emptyIntake (.workEdit (filing none)) (.workEdit (filing (some none))) :=
  digests_separate_iff Value.code_injective rfl (filing_planned _ none (.inl rfl))
    (filing_planned _ (some none) (.inr rfl))

theorem clearedParent_replays : Function.Injective textHash ∧
    PlanningRequest.plan textHash filedTask emptyIntake (.workEdit (filing none)) = .ok (filed textHash none) ∧
    PlanningRequest.plan textHash filedTask emptyIntake (.workEdit (filing (some none))) =
      .ok (filed textHash (some none)) ∧
    (filed textHash none).requestDigest = (filed textHash (some none)).requestDigest ∧
    (filed textHash none).value ≠ (filed textHash (some none)).value := by
  refine ⟨Value.code_injective, filing_planned _ none (.inl rfl), filing_planned _ (some none) (.inr rfl),
    rfl, ?_⟩
  simp [filed, PlanningScope.planned]

end Requests

end Boreal.Planning
