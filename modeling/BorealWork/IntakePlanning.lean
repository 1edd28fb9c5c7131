/- Intake and closeout as planned operations: an update of an item, the promotion of its current
revision, and the disposition of one descendant of a container. -/
import BorealWork.HierarchyPlanning
import BorealWork.SourceParser

namespace Boreal.Planning
open Drain JsonValue WorkModel
open Source (contentDigest utf8)

abbrev IntakeBucketId := TypedId "IntakeBucketId"
abbrev IntakeItemId := TypedId "IntakeItemId"
abbrev PromotionId := TypedId "PromotionId"
abbrev CloseoutDispositionId := TypedId "CloseoutDispositionId"

inductive IntakeKind
  | note | discovery | question | revisit
  deriving DecidableEq

inductive IntakeLifecycle
  | captured | triaged | deferred | resolved | archived
  deriving DecidableEq

def IntakeLifecycle.name : IntakeLifecycle → String
  | .captured => "captured"
  | .triaged => "triaged"
  | .deferred => "deferred"
  | .resolved => "resolved"
  | .archived => "archived"

structure IntakeItem where
  id : IntakeItemId
  bucketId : IntakeBucketId
  projectId : ProjectId
  kind : IntakeKind
  lifecycle : IntakeLifecycle
  content : String
  contentRevision : ℕ
  contentDigest : String
  revisitAt : Option TimestampMs
  deriving DecidableEq

def IntakeLifecycle.allows : IntakeLifecycle → IntakeLifecycle → Bool
  | .captured, .triaged | .captured, .deferred | .captured, .archived => true
  | .triaged, .deferred | .triaged, .resolved | .triaged, .archived => true
  | .deferred, .triaged | .deferred, .resolved | .deferred, .archived => true
  | .resolved, .triaged | .resolved, .archived => true
  | .archived, .triaged => true
  | _, _ => false

def IntakeItem.transition (item : IntakeItem) (next : IntakeLifecycle) :
    Except PlanningModelError IntakeItem := do
  refuse (item.lifecycle.allows next = false) .illegalIntakeTransition
  refuse (next = .deferred ∧ item.revisitAt = none) .deferredWithoutRevisit
  return { item with lifecycle := next }

inductive PromotionTargetKind
  | draftWork | sourceVersion | memoryDraft
  deriving DecidableEq

def PromotionTargetKind.name : PromotionTargetKind → String
  | .draftWork => "draftwork"
  | .sourceVersion => "sourceversion"
  | .memoryDraft => "memorydraft"

structure IntakePromotion where
  id : PromotionId
  projectId : ProjectId
  intakeId : IntakeItemId
  intakeRevision : ℕ
  intakeDigest : String
  targetKind : PromotionTargetKind
  targetId : String
  deriving DecidableEq

def validatePromotion (item : IntakeItem) (promotion : IntakePromotion) :
    Except PlanningModelError Unit := do
  refuse (item.projectId ≠ promotion.projectId ∨ item.id ≠ promotion.intakeId) .promotionSubjectMismatch
  refuse (item.contentRevision ≠ promotion.intakeRevision ∨ item.contentDigest ≠ promotion.intakeDigest)
    .promotionSourceChanged
  refuse (isBlank promotion.targetId = true)
    (.invalidIdentifier "promotion.target_id" promotion.targetId)

inductive DispositionKind
  | acceptedClosed | acceptedCancelled | deferred | replaced
  deriving DecidableEq

def DispositionKind.name : DispositionKind → String
  | .acceptedClosed => "acceptedclosed"
  | .acceptedCancelled => "acceptedcancelled"
  | .deferred => "deferred"
  | .replaced => "replaced"

@[ext]
structure ContainerDisposition where
  id : CloseoutDispositionId
  containerId : WorkId
  descendantId : WorkId
  projectId : ProjectId
  kind : DispositionKind
  descendantRevision : ℕ
  descendantOutcomeDigest : String
  replacementId : Option WorkId
  reason : Option String
  supersedesId : Option CloseoutDispositionId
  deriving DecidableEq

def ContainerDisposition.wellShaped (disposition : ContainerDisposition) : Bool :=
  match disposition.kind with
  | .acceptedClosed | .acceptedCancelled => disposition.replacementId.isNone
  | .deferred => !isBlank (disposition.reason.getD "") && disposition.replacementId.isNone
  | .replaced => disposition.replacementId.isSome && !isBlank (disposition.reason.getD "")

/-- The descendants that have a disposition already are carried along. -/
def checkDisposition (container : WorkNode) (descendants : List WorkNode) (current : List WorkId)
    (disposition : ContainerDisposition) : Except PlanningModelError (List WorkId) := do
  refuse (disposition.projectId ≠ container.projectId ∨ disposition.containerId ≠ container.id ∨
      disposition.descendantId ∉ descendants.map WorkNode.id ∨ disposition.descendantId = container.id)
    (.invalidDispositionSubject disposition.id)
  refuse (disposition.descendantId ∈ current ∧ disposition.supersedesId = none)
    (.duplicateCurrentDisposition disposition.descendantId)
  refuse (disposition.wellShaped = false) .invalidDispositionShape
  return disposition.descendantId :: current

def validateContainerDispositions (container : WorkNode) (descendants : List WorkNode)
    (dispositions : List ContainerDisposition) : Except PlanningModelError Unit := do
  refuse (container.executionMode ≠ .container) (.containerRequired container.id)
  let _ ← dispositions.foldlM (checkDisposition container descendants) []
  return ()

section Planners

variable (hash : Value → String)

structure IntakeSnapshot where
  projectId : ProjectId
  revision : ℕ
  items : List IntakeItem
  promotions : List IntakePromotion
  deriving DecidableEq

def IntakeSnapshot.item (snapshot : IntakeSnapshot) (id : IntakeItemId) : Except PlanningError IntakeItem :=
  (snapshot.items.find? (·.id = id)).elim
    (.error (.invalid s!"intake item not found: {id.value}")) .ok

structure IntakeUpdateRequest where
  scope : PlanningScope
  operationId : String
  intakeId : IntakeItemId
  expectedContentRevision : ℕ
  content : Option String
  lifecycle : Option IntakeLifecycle
  revisitAt : Option (Option TimestampMs)
  deriving DecidableEq

def IntakeUpdateRequest.edited (request : IntakeUpdateRequest) (item : IntakeItem) :
    Except PlanningError IntakeItem :=
  match request.content with
  | none => .ok item
  | some content => do
    refuse (isBlank content = true) (.invalid "intake content cannot be empty")
    refuse (2 ^ 64 ≤ item.contentRevision + 1) (.invalid "intake revision overflow")
    return { item with
      content
      contentRevision := item.contentRevision + 1
      contentDigest := contentDigest (utf8 content) }

def IntakeUpdateRequest.payload (request : IntakeUpdateRequest) (item : IntakeItem) (revision : ℕ) :
    Value := .object [
  ("project_id", .string request.scope.projectId.value),
  ("actor_id", .string request.scope.actorId),
  ("intake_id", .string request.intakeId.value),
  ("expected_content_revision", jsonNatural request.expectedContentRevision),
  ("new_content_digest", .string item.contentDigest),
  ("lifecycle", .string item.lifecycle.name),
  ("revisit_at", jsonOptionalNatural (item.revisitAt.map (·.value))),
  ("expected_snapshot_revision", jsonNatural revision)]

def planIntakeUpdate (snapshot : IntakeSnapshot) (request : IntakeUpdateRequest) :
    Except PlanningError (PlannedOperation IntakeItem) := do
  request.scope.check snapshot.projectId snapshot.revision
  let item ← snapshot.item request.intakeId
  refuse (item.contentRevision ≠ request.expectedContentRevision)
    (.revisionConflict request.expectedContentRevision item.contentRevision)
  let item ← request.edited item
  let item := { item with revisitAt := request.revisitAt.getD item.revisitAt }
  let item ← (request.lifecycle.elim (.ok item) item.transition).mapError .domain
  refuse (item.lifecycle = .deferred ∧ item.revisitAt = none) (.domain .deferredWithoutRevisit)
  return request.scope.planned request.operationId (canonicalRequestDigest hash "intake.update/v3"
    (request.payload item snapshot.revision)) snapshot.revision item

structure IntakePromotionRequest where
  scope : PlanningScope
  operationId : String
  promotionId : PromotionId
  intakeId : IntakeItemId
  targetKind : PromotionTargetKind
  targetId : String
  deriving DecidableEq

def IntakePromotionRequest.promotion (request : IntakePromotionRequest) (item : IntakeItem) :
    IntakePromotion where
  id := request.promotionId
  projectId := request.scope.projectId
  intakeId := request.intakeId
  intakeRevision := item.contentRevision
  intakeDigest := item.contentDigest
  targetKind := request.targetKind
  targetId := request.targetId

def IntakePromotionRequest.payload (request : IntakePromotionRequest) (item : IntakeItem)
    (revision : ℕ) : Value := .object [
  ("project_id", .string request.scope.projectId.value),
  ("actor_id", .string request.scope.actorId),
  ("intake_id", .string request.intakeId.value),
  ("intake_revision", jsonNatural item.contentRevision),
  ("intake_digest", .string item.contentDigest),
  ("target_kind", .string request.targetKind.name),
  ("target_id", .string request.targetId),
  ("expected_snapshot_revision", jsonNatural revision)]

def planIntakePromotion (snapshot : IntakeSnapshot) (request : IntakePromotionRequest) :
    Except PlanningError (PlannedOperation IntakePromotion) := do
  request.scope.check snapshot.projectId snapshot.revision
  let item ← snapshot.item request.intakeId
  let promotion := request.promotion item
  (validatePromotion item promotion).mapError .domain
  refuse (promotion ∈ snapshot.promotions) (.invalid "promotion already exists; replay its operation")
  return request.scope.planned request.operationId (canonicalRequestDigest hash "intake.promote/v3"
    (request.payload item snapshot.revision)) snapshot.revision promotion

structure DispositionRequest where
  scope : PlanningScope
  operationId : String
  disposition : ContainerDisposition
  container : WorkNode
  descendants : List WorkNode
  current : List ContainerDisposition
  deriving DecidableEq

def DispositionRequest.payload (request : DispositionRequest) : Value := .object [
  ("project_id", .string request.scope.projectId.value),
  ("actor_id", .string request.scope.actorId),
  ("container_id", .string request.disposition.containerId.value),
  ("descendant_id", .string request.disposition.descendantId.value),
  ("kind", .string request.disposition.kind.name),
  ("descendant_revision", jsonNatural request.disposition.descendantRevision),
  ("descendant_outcome_digest", .string request.disposition.descendantOutcomeDigest),
  ("supersedes_id", jsonText (request.disposition.supersedesId.map (·.value))),
  ("expected_snapshot_revision", jsonOptionalNatural request.scope.expectedRevision)]

def planDisposition (request : DispositionRequest) :
    Except PlanningError (PlannedOperation ContainerDisposition) := do
  request.scope.validate
  let expectedRevision ← request.scope.expectedRevision.elim
    (.error (.invalid "v3 disposition requires expected_revision")) .ok
  refuse (request.disposition.projectId ≠ request.scope.projectId ∨
      request.container.projectId ≠ request.scope.projectId)
    (.scopeConflict request.scope.projectId.value request.disposition.projectId.value)
  (validateContainerDispositions request.container request.descendants
    (request.current ++ [request.disposition])).mapError .domain
  return request.scope.planned request.operationId
    (canonicalRequestDigest hash "container.disposition/v3" request.payload) expectedRevision
    request.disposition

end Planners

end Boreal.Planning
