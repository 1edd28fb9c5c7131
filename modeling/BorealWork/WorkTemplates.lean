/- Work templates: what a template must satisfy, and the plan that a dry run renders from it. -/
import BorealWork.Library.Orders
import BorealWork.StatusEvaluator
import BorealWork.StoreJournal
import BorealWork.Transport
import BorealWork.WorkDeliverables

namespace Boreal.Templates
open Checks Deliverables Drain
open Service (debugText parseU64)
open Status (AcceptanceProfile GateRequirement)
open Store (StoreError)
open WorkModel (isControl)

structure TemplateParameter where
  name : String
  description : String
  required : Bool
  default : Option String
  deriving DecidableEq

inductive TemplateDeliverableType
  | code | document | image | dataset | report | archive | other
  deriving DecidableEq

inductive TemplateDeliverableCriterion
  | nonEmpty
  | minBytes (value : ℕ)
  | maxBytes (value : ℕ)
  | digestPresent
  | jsonDocument
  | textContains (text : String)
  deriving DecidableEq

structure TemplateDeliverableRequirement where
  key : String
  purpose : String
  required : Bool
  deliverableType : TemplateDeliverableType
  allowedMediaTypes : List String
  minCount : ℕ
  maxCount : ℕ
  criteria : List TemplateDeliverableCriterion
  deriving DecidableEq

inductive TemplateInputArtifactRole
  | context | acceptedInput | reference
  deriving DecidableEq

inductive TemplateInputArtifactScope
  | project | private_
  deriving DecidableEq

structure TemplateArtifactProductionIdentity where
  workId : String
  attemptId : String
  resultId : String
  deriving DecidableEq

structure TemplateAcceptedResultIdentity where
  producer : TemplateArtifactProductionIdentity
  decisionId : String
  submissionId : String
  artifactSetDigest : String
  deriving DecidableEq

structure TemplateInputArtifactRef where
  inputKey : Option String
  required : Bool
  projectId : String
  sourceVersionId : String
  contentDigest : String
  mediaType : Option String
  byteCount : Option ℕ
  availability : Option String
  role : TemplateInputArtifactRole
  scope : TemplateInputArtifactScope
  producedBy : Option TemplateArtifactProductionIdentity
  acceptedResult : Option TemplateAcceptedResultIdentity
  deriving DecidableEq

/-- The part of an item that the checks on the parent and dependency graphs read. -/
structure TemplateNode where
  key : String
  parent : Option String
  dependencies : List String
  deriving DecidableEq

structure TemplateWorkItem extends TemplateNode where
  kind : String
  title : String
  description : String
  priority : ℕ
  dispatch : String
  labels : List String
  acceptanceProfile : String
  deliverables : List TemplateDeliverableRequirement
  inputs : List TemplateInputArtifactRef
  deriving DecidableEq

structure WorkTemplate where
  schemaVersion : ℕ
  id : String
  version : ℕ
  title : String
  description : String
  parameters : List TemplateParameter
  items : List TemplateWorkItem
  deriving DecidableEq

structure RenderedTemplateItem extends TemplateNode where
  kind : WorkKind
  title : String
  description : String
  priority : ℕ
  dispatch : DispatchPolicy
  labels : List String
  acceptanceProfile : String
  deliverables : List DeliverableRequirement
  inputs : List InputArtifactRef
  deriving DecidableEq

structure TemplatePlan where
  templateId : String
  templateVersion : ℕ
  rendered : List RenderedTemplateItem
  deriving DecidableEq

inductive TemplateError
  | invalid (message : String)
  | missingParameter (name : String)
  | unknownParameter (name : String)
  | application (message : String)
  deriving DecidableEq

def TemplateError.display : TemplateError → String
  | .invalid message | .application message => message
  | .missingParameter name => s!"required template parameter '{name}' is missing"
  | .unknownParameter name => s!"unknown template parameter '{name}'"

def workTemplateSchemaVersion : ℕ := 2
def minSupportedTemplateSchemaVersion : ℕ := 1

def required (id : GateId) (kind : GateKind) : GateRequirement := ⟨id, kind, true, .open⟩

def focused : AcceptanceProfile where
  id := ⟨"focused"⟩
  version := "1"
  gates := [required ⟨"checkpoint"⟩ .checkpoint, required ⟨"verification"⟩ .verification,
    required ⟨"summary"⟩ .summary]

def reviewed : AcceptanceProfile where
  id := ⟨"reviewed"⟩
  version := "1"
  gates := focused.gates ++ [required ⟨"review"⟩ .review]

/-- The entries of the store's registry, with the fields that templates read. -/
structure RegisteredAcceptanceProfile where
  profileId : String
  version : ℕ
  summaryGateId : String
  reviewGateId : Option String
  deriving DecidableEq

def generalAcceptanceProfiles : List RegisteredAcceptanceProfile :=
  [⟨"general-attestation", 1, "summary", none⟩, ⟨"validated-deliverables", 1, "summary", none⟩,
    ⟨"reviewed-artifacts", 1, "summary", some "artifact_review"⟩]

def registeredAcceptanceProfile (profileId : String) (version : ℕ) :
    Except StoreError (Option RegisteredAcceptanceProfile) :=
  match generalAcceptanceProfiles.find? (·.profileId = profileId) with
  | some profile =>
    if profile.version ≠ version then
      .error (.conflict s!"unsupported acceptance profile version {profileId}/{version}; registered version is {profile.version}")
    else .ok (some profile)
  | none =>
    if profileId = "focused" ∨ profileId = "reviewed" then
      if version = 1 then .ok none
      else .error (.conflict s!"unsupported legacy acceptance profile version {profileId}/{version}")
    else .error (.conflict s!"acceptance profile {profileId}/{version} is not registered")

def RegisteredAcceptanceProfile.profile (registered : RegisteredAcceptanceProfile) : AcceptanceProfile where
  id := ⟨registered.profileId⟩
  version := toString registered.version
  gates := required ⟨registered.summaryGateId⟩ .summary ::
    (registered.reviewGateId.map fun id => required ⟨id⟩ .review).toList

def versionedProfile (value : String) : Except TemplateError (String × ℕ) :=
  match Lines.splitOnce ['/'] value.toList with
  | none => .error (.invalid s!"unsupported acceptance profile '{value}'")
  | some (profileId, versionText) =>
    if profileId = [] ∨ versionText = [] ∨ '/' ∈ versionText then
      .error (.invalid s!"invalid versioned acceptance profile '{value}'")
    else match parseU64 (String.ofList versionText) with
      | none => .error (.invalid s!"invalid acceptance profile version in '{value}'")
      | some version =>
        if toString version ≠ String.ofList versionText then
          .error (.invalid s!"acceptance profile version in '{value}' is not canonical")
        else .ok (String.ofList profileId, version)

def resolveTemplateAcceptanceProfile (value : String) : Except TemplateError AcceptanceProfile :=
  if value = "focused" then .ok focused
  else if value = "reviewed" then .ok reviewed
  else do
    let (profileId, version) ← versionedProfile value
    match registeredAcceptanceProfile profileId version with
    | .error error => .error (.invalid error.display)
    | .ok (some registered) => .ok registered.profile
    | .ok none =>
      if profileId = "focused" then .ok focused
      else if profileId = "reviewed" then .ok reviewed
      else .error (.invalid
        s!"acceptance profile '{profileId}/{version}' is not a registered general-work profile")

section Conversions

def TemplateDeliverableType.toDomain : TemplateDeliverableType → DeliverableType
  | .code => .code
  | .document => .document
  | .image => .image
  | .dataset => .dataset
  | .report => .report
  | .archive => .archive
  | .other => .other

def TemplateDeliverableCriterion.toDomain : TemplateDeliverableCriterion → DeliverableCriterion
  | .nonEmpty => .nonEmpty
  | .minBytes value => .minBytes value
  | .maxBytes value => .maxBytes value
  | .digestPresent => .digestPresent
  | .jsonDocument => .jsonDocument
  | .textContains text => .textContains text

/-- This conversion never fails. -/
def TemplateDeliverableRequirement.toDomain (requirement : TemplateDeliverableRequirement) :
    DeliverableRequirement where
  key := requirement.key
  purpose := requirement.purpose
  required := requirement.required
  deliverableType := requirement.deliverableType.toDomain
  allowedMediaTypes := requirement.allowedMediaTypes
  minCount := requirement.minCount
  maxCount := requirement.maxCount
  criteria := requirement.criteria.map TemplateDeliverableCriterion.toDomain

def TemplateInputArtifactRole.toDomain : TemplateInputArtifactRole → InputArtifactRole
  | .context => .context
  | .acceptedInput => .acceptedInput
  | .reference => .reference

def TemplateInputArtifactScope.toDomain : TemplateInputArtifactScope → InputArtifactScope
  | .project => .project
  | .private_ => .private_

variable (unprintable : Char → Bool)

def parseId (typeName value : String) : Except TemplateError (TypedId typeName) := do
  refuse (value = "" ∨ 255 < value.utf8ByteSize ∨ value.toList.any fun c => isControl c || isWhiteSpace c)
    (.invalid s!"invalid {typeName} identifier: {debugText unprintable value}")
  return ⟨value⟩

def TemplateArtifactProductionIdentity.toDomain (identity : TemplateArtifactProductionIdentity) :
    Except TemplateError ArtifactProductionIdentity := do
  let workId ← parseId unprintable "WorkId" identity.workId
  let attemptId ← parseId unprintable "AttemptId" identity.attemptId
  return ⟨workId, attemptId, identity.resultId⟩

def TemplateAcceptedResultIdentity.toDomain (identity : TemplateAcceptedResultIdentity) :
    Except TemplateError AcceptedResultIdentity := do
  let producer ← identity.producer.toDomain unprintable
  return ⟨producer, identity.decisionId, identity.submissionId, identity.artifactSetDigest⟩

def TemplateInputArtifactRef.toDomain (input : TemplateInputArtifactRef) :
    Except TemplateError InputArtifactRef := do
  let projectId ← parseId unprintable "ProjectId" input.projectId
  let sourceVersionId ← parseId unprintable "SourceVersionId" input.sourceVersionId
  let producedBy ← input.producedBy.mapM (TemplateArtifactProductionIdentity.toDomain unprintable)
  let acceptedResult ← input.acceptedResult.mapM (TemplateAcceptedResultIdentity.toDomain unprintable)
  return { inputKey := input.inputKey, required := input.required, projectId, sourceVersionId,
           contentDigest := input.contentDigest, mediaType := input.mediaType,
           byteCount := input.byteCount, availability := input.availability,
           role := input.role.toDomain, scope := input.scope.toDomain, producedBy, acceptedResult }

end Conversions

def validIdentifier (value : String) : Bool :=
  value ≠ "" && value.utf8ByteSize ≤ 48 &&
    value.toList.all fun c => c.isLower || c.isDigit || c = '-' || c = '_'

def parseKind (value : String) : Except TemplateError WorkKind :=
  if value = "milestone" then .ok .milestone
  else if value = "sprint" then .ok .sprint
  else if value = "task" then .ok .task
  else .error (.invalid s!"unsupported work kind '{value}'")

def parseDispatch (value : String) : Except TemplateError DispatchPolicy :=
  if value = "automatic" then .ok .automatic
  else if value = "operator_only" then .ok .operatorOnly
  else if value = "paused" then .ok .paused
  else .error (.invalid s!"unsupported dispatch policy '{value}'")

def normalizeLabel (label : String) : String :=
  String.ofList ((Lines.trim isWhiteSpace label.toList).map Char.toLower)

def openingBraces : List Char := ['\x7b', '\x7b']
def closingBraces : List Char := ['\x7d', '\x7d']

theorem splitOnce_shorter {separator text front behind : List Char} (solid : separator ≠ [])
    (split : Lines.splitOnce separator text = some (front, behind)) : behind.length < text.length := by
  have size := congrArg List.length (Lines.splitOnce_spec split)
  have positive := List.length_pos_of_ne_nil solid
  simp only [List.length_append] at size
  omega

/-- The name between braces. -/
def placeholderName (inner : List Char) : String := String.ofList (Lines.trim isWhiteSpace inner)

def validatePlaceholders (params : List String) (rest : List Char) : Except TemplateError Unit :=
  match _opened : Lines.splitOnce openingBraces rest with
  | none => refuse (Lines.splitOnce closingBraces rest ≠ none)
      (.invalid "unmatched parameter closing braces")
  | some (_, behind) => match _closed : Lines.splitOnce closingBraces behind with
      | none => .error (.invalid "unterminated parameter placeholder")
      | some (inner, rest') =>
        if placeholderName inner ∉ params then
          .error (.invalid s!"placeholder '{placeholderName inner}' has no declared parameter")
        else validatePlaceholders params rest'
termination_by rest.length
decreasing_by
  exact (splitOnce_shorter (by decide) _closed).trans (splitOnce_shorter (by decide) _opened)

/-- The text with its placeholders replaced. -/
def substituted (values : Std.TreeMap String String) (rest : List Char) :
    Except TemplateError (List Char) :=
  match _opened : Lines.splitOnce openingBraces rest with
  | none => .ok rest
  | some (front, behind) => match _closed : Lines.splitOnce closingBraces behind with
      | none => .error (.invalid "unterminated parameter placeholder")
      | some (inner, rest') => match values[placeholderName inner]? with
          | none => .error (.missingParameter (placeholderName inner))
          | some value => do
            let output ← substituted values rest'
            return front ++ value.toList ++ output
termination_by rest.length
decreasing_by
  exact (splitOnce_shorter (by decide) _closed).trans (splitOnce_shorter (by decide) _opened)

def substitute (text : String) (values : Std.TreeMap String String) : Except TemplateError String := do
  let output ← substituted values text.toList
  refuse (output.all isWhiteSpace) (.invalid "rendered work title/description must not be empty")
  return String.ofList output

def parentOf (nodes : List TemplateNode) (key : String) : Option String :=
  (nodes.find? (·.key = key)).bind TemplateNode.parent

def checkChain (nodes : List TemplateNode) (done : List String) (node : TemplateNode) :
    Except TemplateError (List String) :=
  let climb := Orders.climb (parentOf nodes) done (nodes.length + 1) node.key
  match climb.current with
  | none => .ok (climb.path ++ done)
  | some key =>
    if key ∈ climb.path then .error (.invalid s!"template parent cycle includes '{key}'")
    else .ok (key :: climb.path ++ done)

def detectTemplateCycles (nodes : List TemplateNode) : Except TemplateError Unit := do
  let _ ← nodes.foldlM (checkChain nodes) []
  return ()

def detectDependencyCycles (nodes : List TemplateNode) : Except TemplateError Unit :=
  let run := Orders.countdown TemplateNode.key TemplateNode.dependencies nodes
  let cycle := ((run.remaining.toList.find? (0 < ·.2)).map Prod.fst).getD "unknown"
  refuse (run.consumed.length ≠ nodes.length)
    (.invalid s!"template dependency cycle includes '{cycle}'")

section Templates

variable (unprintable : Char → Bool)

def labelToken (label : String) : Bool :=
  label ≠ "" && label.utf8ByteSize ≤ 64 &&
    label.toList.all fun c => c.isAlphanum || c = '-' || c = '_' || c = '.' || c = '/'

def validateItem (schemaVersion : ℕ) (seen : List String) (item : TemplateWorkItem) :
    Except TemplateError Unit := do
  refuse (validIdentifier item.key = false ∨ item.key ∈ seen)
    (.invalid s!"invalid or duplicate item key '{item.key}'")
  discard (parseKind item.kind)
  discard (parseDispatch item.dispatch)
  refuse (9 < item.priority) (.invalid s!"priority for '{item.key}' must be between 0 and 9")
  discard ((resolveTemplateAcceptanceProfile item.acceptanceProfile).mapError fun error =>
    TemplateError.invalid s!"invalid acceptance profile for '{item.key}': {error.display}")
  refuse (schemaVersion = 1 ∧ (item.deliverables ≠ [] ∨ item.inputs ≠ [])) (.invalid
    s!"template schema 1 item '{item.key}' cannot declare deliverables or input references; use schema 2")
  (validateDeliverableRequirements
    (item.deliverables.map TemplateDeliverableRequirement.toDomain)).mapError fun error =>
      TemplateError.invalid s!"invalid deliverables for '{item.key}': {error.message}"
  let inputRefs ← item.inputs.mapM (TemplateInputArtifactRef.toDomain unprintable)
  inputRefs.head?.forM fun firstInput =>
    (validateInputArtifactRefs inputRefs firstInput.projectId).mapError fun error =>
      TemplateError.invalid s!"invalid input references for '{item.key}': {error.message}"
  refuse (64 < item.labels.length ∨ (∃ label ∈ item.labels, labelToken (normalizeLabel label) = false) ∨
      ¬ (item.labels.map normalizeLabel).Nodup) (.invalid
    s!"labels for '{item.key}' must be unique normalized tokens of 1..64 ASCII letters, digits, -, _, . or /")
  refuse (100 < item.dependencies.length ∨ item.key ∈ item.dependencies ∨ ¬ item.dependencies.Nodup)
    (.invalid s!"dependencies for '{item.key}' must be unique non-self item keys")

def validateReferences (keys : List String) (item : TemplateWorkItem) : Except TemplateError Unit := do
  item.parent.forM fun parent => refuse (parent ∉ keys ∨ parent = item.key)
    (.invalid s!"item '{item.key}' references an unknown or self parent '{parent}'")
  item.dependencies.forM fun dependency => refuse (dependency ∉ keys)
    (.invalid s!"item '{item.key}' references unknown prerequisite '{dependency}'")
  let kind ← parseKind item.kind
  refuse (kind = .sprint ∧ item.parent = none) (.invalid s!"sprint '{item.key}' must have a parent item")

def validateParameter (seen : List String) (parameter : TemplateParameter) : Except TemplateError Unit :=
  refuse (validIdentifier parameter.name = false ∨ parameter.name ∈ seen) (.invalid
    s!"invalid or duplicate parameter '{parameter.name}'; use unique lowercase identifiers")

/-- The texts in which placeholders may stand. -/
def WorkTemplate.texts (template : WorkTemplate) : List String :=
  template.title :: template.description :: template.items.flatMap fun item => [item.title, item.description]

def WorkTemplate.validate (template : WorkTemplate) : Except TemplateError Unit := do
  refuse (template.schemaVersion < minSupportedTemplateSchemaVersion ∨
      workTemplateSchemaVersion < template.schemaVersion)
    (.invalid s!"unsupported template schema version {template.schemaVersion}; supported versions are {minSupportedTemplateSchemaVersion}..={workTemplateSchemaVersion}")
  refuse (isBlank template.id ∨ template.version = 0 ∨ isBlank template.title ∨ template.items = [])
    (.invalid "template requires an id, positive version, title, and at least one item")
  checkFresh TemplateParameter.name validateParameter [] template.parameters
  checkFresh (fun item => item.key) (validateItem unprintable template.schemaVersion) [] template.items
  template.items.forM (validateReferences (template.items.map (·.key)))
  detectTemplateCycles (template.items.map (·.toTemplateNode))
  detectDependencyCycles (template.items.map (·.toTemplateNode))
  template.texts.forM fun text => validatePlaceholders (template.parameters.map (·.name)) text.toList

def bindParameter (supplied values : Std.TreeMap String String) (parameter : TemplateParameter) :
    Except TemplateError (Std.TreeMap String String) :=
  match (supplied[parameter.name]?.or parameter.default).filter (!isBlank ·) with
  | some value => .ok (values.insert parameter.name value)
  | none => if parameter.required then .error (.missingParameter parameter.name) else .ok values

def renderItem (values : Std.TreeMap String String) (item : TemplateWorkItem) :
    Except TemplateError RenderedTemplateItem := do
  let kind ← parseKind item.kind
  let title ← substitute item.title values
  let description ← substitute item.description values
  let dispatch ← parseDispatch item.dispatch
  let inputs ← item.inputs.mapM (TemplateInputArtifactRef.toDomain unprintable)
  return { toTemplateNode := item.toTemplateNode, kind, title, description, priority := item.priority,
           dispatch, labels := item.labels.map normalizeLabel,
           acceptanceProfile := item.acceptanceProfile,
           deliverables := item.deliverables.map TemplateDeliverableRequirement.toDomain, inputs }

def WorkTemplate.plan (template : WorkTemplate) (supplied : Std.TreeMap String String) :
    Except TemplateError TemplatePlan := do
  template.validate unprintable
  supplied.keys.forM fun key => refuse (key ∉ template.parameters.map (·.name)) (.unknownParameter key)
  let values ← template.parameters.foldlM (bindParameter supplied) ∅
  let rendered ← template.items.mapM (renderItem unprintable values)
  return ⟨template.id, template.version, rendered⟩

end Templates

end Boreal.Templates
