/- Applying a template plan: the checks on a rendered plan, the batch of works that it becomes, and the
checks that the store makes on a batch. -/
import BorealWork.WorkTemplates

namespace Boreal.Templates
open Checks Deliverables Drain
open Service (parseU64)
open Status (AcceptanceProfile)
open Store (StoreError)

def normalizedToken (label : String) : Bool :=
  label ≠ "" && label.utf8ByteSize ≤ 64 &&
    label.toList.all fun c => c.isLower || c.isDigit || c = '-' || c = '_' || c = '.' || c = '/'

def validateRenderedItem (projectId : ProjectId) (seen : List String) (item : RenderedTemplateItem) :
    Except TemplateError Unit := do
  refuse (validIdentifier item.key = false ∨ item.key ∈ seen ∨ isBlank item.title ∨
      '\x00' ∈ item.title.toList ∨ isBlank item.description ∨ '\x00' ∈ item.description.toList ∨
      9 < item.priority)
    (.invalid s!"rendered item '{item.key}' has invalid identity or planning fields")
  discard ((resolveTemplateAcceptanceProfile item.acceptanceProfile).mapError fun error =>
    TemplateError.invalid s!"rendered item '{item.key}' has an invalid acceptance profile: {error.display}")
  (validateDeliverableRequirements item.deliverables).mapError fun error =>
    TemplateError.invalid s!"invalid deliverables for '{item.key}': {error.message}"
  (validateInputArtifactRefs item.inputs projectId).mapError fun error =>
    TemplateError.invalid s!"invalid input references for '{item.key}': {error.message}"
  refuse (64 < item.labels.length) (.invalid s!"labels for '{item.key}' exceed the 64-label bound")
  refuse ((∃ label ∈ item.labels, normalizedToken label = false) ∨ ¬ item.labels.Nodup)
    (.invalid s!"labels for '{item.key}' must be unique normalized tokens")
  refuse (100 < item.dependencies.length)
    (.invalid s!"dependencies for '{item.key}' exceed the 100-edge bound")

def validateRenderedReferences (keys : List String) (item : RenderedTemplateItem) :
    Except TemplateError Unit := do
  refuse ((∃ parent ∈ item.parent, parent ∉ keys) ∨
      (∃ dependency ∈ item.dependencies, dependency = item.key ∨ dependency ∉ keys) ∨
      (item.kind = .sprint ∧ item.parent = none))
    (.invalid s!"rendered item '{item.key}' references an invalid parent or dependency")
  refuse (¬ item.dependencies.Nodup) (.invalid s!"dependencies for '{item.key}' must be unique")

def validateRenderedPlan (plan : TemplatePlan) (projectId : ProjectId) : Except TemplateError Unit := do
  refuse (isBlank plan.templateId ∨ plan.templateVersion = 0 ∨ plan.rendered = [] ∨
      100 < plan.rendered.length)
    (.invalid "rendered template plan requires an id, positive version, and 1-100 items")
  checkFresh (fun item => item.key) (validateRenderedItem projectId) [] plan.rendered
  plan.rendered.forM (validateRenderedReferences (plan.rendered.map (·.key)))
  detectTemplateCycles (plan.rendered.map (·.toTemplateNode))
  detectDependencyCycles (plan.rendered.map (·.toTemplateNode))

/-- Again and again the first pending item whose parent has been added. -/
def orderItems (items : List RenderedTemplateItem) : Except TemplateError (List RenderedTemplateItem) :=
  (Orders.pickReady (fun item => item.key) (fun item => item.parent.toList) items.length [] items).elim
    (.error (.invalid "template parent graph cannot be ordered")) .ok

structure BatchWork extends toStatusWork : Status.WorkItem where
  title : String
  description : String
  priority : ℕ
  deriving DecidableEq

/-- What the caller adds to a plan. -/
structure TemplateCaller where
  actorId : String
  sessionId : String
  operationId : String
  idPrefix : String
  deriving DecidableEq

structure WorkBatchCreateRequest extends TemplateCaller where
  projectId : ProjectId
  templateId : String
  templateVersion : ℕ
  works : List BatchWork
  dependencies : List (String × String)
  labels : Std.TreeMap String (List String)

def generatedId (idPrefix key : String) : WorkId := ⟨idPrefix ++ "-" ++ key⟩

def batchWork (projectId : ProjectId) (idPrefix : String) (ids : Std.TreeMap String WorkId)
    (item : RenderedTemplateItem) : Except TemplateError BatchWork := do
  let parentId ← item.parent.mapM fun key => (ids[key]?).elim
    (.error (TemplateError.invalid s!"parent '{key}' has not been created")) .ok
  let acceptanceProfile ← resolveTemplateAcceptanceProfile item.acceptanceProfile
  return { id := generatedId idPrefix item.key, projectId, kind := item.kind, parentId,
           lifecycle := .draft, dispatchPolicy := item.dispatch, hardHolds := [], acceptanceProfile,
           title := item.title, description := item.description, priority := item.priority }

/-- The works in order, and the ids that have been given. -/
def batchWorks (projectId : ProjectId) (idPrefix : String) : Std.TreeMap String WorkId →
    List RenderedTemplateItem → Except TemplateError (List BatchWork × Std.TreeMap String WorkId)
  | ids, [] => .ok ([], ids)
  | ids, item :: rest => do
    let work ← batchWork projectId idPrefix ids item
    let later ← batchWorks projectId idPrefix (ids.insert item.key work.id) rest
    return (work :: later.1, later.2)

def itemDependencies (ids : Std.TreeMap String WorkId) (item : RenderedTemplateItem) :
    Except TemplateError (List (String × String)) := do
  let dependent ← (ids[item.key]?).elim
    (.error (TemplateError.invalid s!"missing generated ID for '{item.key}'")) .ok
  item.dependencies.mapM fun prerequisite => do
    let prerequisiteId ← (ids[prerequisite]?).elim
      (.error (TemplateError.invalid s!"dependency '{prerequisite}' has no generated ID")) .ok
    return (prerequisiteId.value, dependent.value)

def orderedDependencies (items : List RenderedTemplateItem) (ids : Std.TreeMap String WorkId) :
    Except TemplateError (List (String × String)) := do
  return (← items.mapM (itemDependencies ids)).flatten

def batchLabels (items : List RenderedTemplateItem) (ids : Std.TreeMap String WorkId) :
    Std.TreeMap String (List String) :=
  (items.filter (·.labels ≠ [])).foldl
    (fun labels item => (ids[item.key]?).elim labels fun id => labels.insert id.value item.labels) ∅

/-- What is handed to the store; contracts, the request's digest and its time are left out. -/
def instantiateTemplate (plan : TemplatePlan) (projectId : ProjectId) (caller : TemplateCaller) :
    Except TemplateError WorkBatchCreateRequest := do
  validateRenderedPlan plan projectId
  refuse (isBlank caller.actorId ∨ isBlank caller.sessionId ∨ validIdentifier caller.idPrefix = false ∨
      isBlank caller.operationId)
    (.invalid "actor, session, operation id, and a lowercase id prefix are required")
  let ordered ← orderItems plan.rendered
  let built ← batchWorks projectId caller.idPrefix ∅ ordered
  let dependencies ← orderedDependencies plan.rendered built.2
  return { toTemplateCaller := caller, projectId, templateId := plan.templateId,
           templateVersion := plan.templateVersion, works := built.1, dependencies,
           labels := batchLabels plan.rendered built.2 }

def validTemplatePrefix (value : String) : Bool :=
  value ≠ "" && value.utf8ByteSize ≤ 48 &&
    value.toList.all fun c => c.isLower || c.isDigit || c = '-' || c = '_'

def validTemplateKey (value : String) : Bool :=
  value ≠ "" && value.utf8ByteSize ≤ 48 &&
    value.toList.all fun c => c.isLower || c.isDigit || c = '-' || c = '_'

def domainErrorText : DomainError → String
  | .missingWork _ => "missing_work"
  | .crossProjectReference _ _ => "cross_project_reference"
  | .dependencyCycle _ _ => "dependency_cycle"

def validateBatchWork (projectId : ProjectId) (seen : List WorkId) (work : BatchWork) :
    Except StoreError Unit := do
  refuse (isBlank work.title ∨ work.projectId ≠ projectId ∨ work.lifecycle.isTerminal)
    (.invalid "template work items must be titled, project-scoped, and non-terminal")
  refuse (work.id ∈ seen) (.invalid "template batch work IDs must be unique")

def validateBatchParent (works : List BatchWork) (placed : BatchWork × ℕ) : Except StoreError Unit :=
  placed.1.parentId.forM fun parent => match works.findIdx? (·.id = parent) with
    | none => .error (.invalid s!"template parent {parent.value} is outside the batch")
    | some parentIndex => refuse (placed.2 ≤ parentIndex)
        (.invalid "template work batch must order each parent before its child")

theorem lawfulBEq_edge : LawfulBEq (String × String) := inferInstance

attribute [local instance] lawfulBEq_edge

def validateBatchEdge (works : List BatchWork) (seen : List (String × String)) (edge : String × String) :
    Except StoreError Unit :=
  refuse (⟨edge.1⟩ ∉ works.map (·.id) ∨ ⟨edge.2⟩ ∉ works.map (·.id) ∨ edge ∈ seen)
    (.invalid "template dependencies must be unique and reference batch work")

def batchEdge (edge : String × String) : DependencyEdge := ⟨⟨edge.1⟩, ⟨edge.2⟩, .closedOnly⟩

def validateBatchLabels (works : List BatchWork) (entry : String × List String) : Except StoreError Unit := do
  refuse (⟨entry.1⟩ ∉ works.map (·.id) ∨ 64 < entry.2.length)
    (.invalid "template labels must target batch work and contain at most 64 values")
  refuse ((∃ label ∈ entry.2, normalizedToken label = false) ∨ ¬ entry.2.Nodup)
    (.invalid "template labels must be unique normalized tokens of 1..64 lowercase ASCII characters")

def canonicalTemplateAcceptanceProfile (profile : AcceptanceProfile) :
    Except StoreError AcceptanceProfile :=
  if profile.id.value = "focused" then .ok focused
  else if profile.id.value = "reviewed" then .ok reviewed
  else match parseU64 profile.version with
    | none => .error (.invalid s!"acceptance profile version is not numeric: {profile.version}")
    | some version => do
      let registered ← registeredAcceptanceProfile profile.id.value version
      registered.elim (.error (.invalid
        s!"template acceptance profile '{profile.id.value}/{version}' is unsupported"))
        fun registered => .ok registered.profile

def validateBatchProfile (work : BatchWork) : Except StoreError Unit := do
  let expectedProfile ← canonicalTemplateAcceptanceProfile work.acceptanceProfile
  refuse (work.acceptanceProfile ≠ expectedProfile) (.invalid
    s!"template acceptance profile '{work.acceptanceProfile.id.value}' does not match its canonical definition")

/-- The comparison with profile definitions that are already stored is left out. -/
def validateBatchPayload (request : WorkBatchCreateRequest) : Except StoreError Unit := do
  checkFresh (fun work => work.id) (validateBatchWork request.projectId) [] request.works
  request.works.zipIdx.forM (validateBatchParent request.works)
  checkFresh id (validateBatchEdge request.works) [] request.dependencies
  (validateDependencyEdges (request.works.map (·.toStatusWork.toWorkItem)) (request.dependencies.map batchEdge)).mapError
    fun error => StoreError.invalid s!"invalid template dependency graph: {domainErrorText error}"
  request.labels.toList.forM (validateBatchLabels request.works)
  request.works.forM validateBatchProfile

def keyBehind (idPrefix : String) (id : WorkId) : Option String :=
  let start := (idPrefix ++ "-").toList
  if start.isPrefixOf id.value.toList then some (String.ofList (id.value.toList.drop start.length))
  else none

def validateBatchId (projectId : ProjectId) (seen : List WorkId) (work : BatchWork) :
    Except StoreError Unit :=
  refuse (work.projectId ≠ projectId ∨ work.id ∈ seen)
    (.invalid "template batch work ids must be unique and project-scoped")

/-- The checks of `create_work_batch` that the planned works and dependencies decide. -/
def checkWorkBatch (request : WorkBatchCreateRequest) : Except StoreError Unit := do
  refuse (request.works = [] ∨ 100 < request.works.length ∨ isBlank request.actorId ∨
      isBlank request.sessionId ∨ isBlank request.operationId ∨ isBlank request.templateId ∨
      request.templateVersion = 0 ∨ validTemplatePrefix request.idPrefix = false)
    (.invalid "template batch requires 1-100 work items, actor, session, and operation id")
  checkFresh (fun work => work.id) (validateBatchId request.projectId) [] request.works
  refuse (∃ work ∈ request.works, (keyBehind request.idPrefix work.id).any validTemplateKey = false)
    (.invalid "template batch work ids must be the prefix followed by a stable item key")
  validateBatchPayload request

end Boreal.Templates
