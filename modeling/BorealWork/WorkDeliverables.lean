/- What a work item is to deliver and what it may read: the bounds that every declaration is held to. -/
import BorealWork.BusinessTime
import BorealWork.Library.Checks
import BorealWork.Library.Lines

namespace Boreal.Deliverables
open Checks Drain
open WorkModel (isControl)

inductive DeliverableType
  | code | document | image | dataset | report | archive | other
  deriving DecidableEq

inductive DeliverableCriterion
  | nonEmpty
  | minBytes (value : ℕ)
  | maxBytes (value : ℕ)
  | digestPresent
  | jsonDocument
  | textContains (text : String)
  deriving DecidableEq

structure DeliverableRequirement where
  key : String
  purpose : String
  required : Bool
  deliverableType : DeliverableType
  allowedMediaTypes : List String
  minCount : ℕ
  maxCount : ℕ
  criteria : List DeliverableCriterion
  deriving DecidableEq

inductive InputArtifactRole
  | context | acceptedInput | reference
  deriving DecidableEq

inductive InputArtifactScope
  | project | private_
  deriving DecidableEq

structure ArtifactProductionIdentity where
  workId : WorkId
  attemptId : AttemptId
  resultId : String
  deriving DecidableEq

structure AcceptedResultIdentity where
  producer : ArtifactProductionIdentity
  decisionId : String
  submissionId : String
  artifactSetDigest : String
  deriving DecidableEq

structure InputArtifactRef where
  inputKey : Option String
  required : Bool
  projectId : ProjectId
  sourceVersionId : SourceVersionId
  contentDigest : String
  mediaType : Option String
  byteCount : Option ℕ
  availability : Option String
  role : InputArtifactRole
  scope : InputArtifactScope
  producedBy : Option ArtifactProductionIdentity
  acceptedResult : Option AcceptedResultIdentity
  deriving DecidableEq

structure DeliverableValidationError where
  message : String
  deriving DecidableEq

def maxDeliverableRequirements : ℕ := 64
def maxRequirementMediaTypes : ℕ := 32
def maxRequirementCriteria : ℕ := 32
def maxRequirementCardinality : ℕ := 100
def maxInputArtifactRefs : ℕ := 100
def maxCriterionBytes : ℕ := 1073741824

def validKey (value : String) : Bool :=
  value ≠ "" && value.utf8ByteSize ≤ 64 &&
    value.toList.all fun c => c.isLower || c.isDigit || c = '-' || c = '_' || c = '.'

def mediaTokenCharacter (c : Char) : Bool :=
  c.isLower || c.isDigit || c = '!' || c = '#' || c = '$' || c = '&' || c = '^' || c = '_' || c = '.' ||
    c = '+' || c = '-'

def validMediaType (value : String) : Bool :=
  value ≠ "" && value.utf8ByteSize ≤ 127 && value.toList.map Char.toLower = value.toList &&
    match Lines.splitOnce ['/'] value.toList with
    | none => false
    | some (kind, subtype) => kind ≠ [] && subtype ≠ [] && kind.all mediaTokenCharacter &&
        (subtype = ['*'] || subtype.all mediaTokenCharacter)

/-- Whether a criterion holds to its own bound. -/
def DeliverableCriterion.bounded : DeliverableCriterion → Bool
  | .nonEmpty | .digestPresent | .jsonDocument => true
  | .minBytes value => value ≤ maxCriterionBytes
  | .maxBytes value => 0 < value && value ≤ maxCriterionBytes
  | .textContains text => !isBlank text && text.utf8ByteSize ≤ 256 && !text.toList.any isControl

/-- Under one of these names there may be one criterion. -/
def DeliverableCriterion.slot : DeliverableCriterion → String
  | .nonEmpty => "non-empty"
  | .textContains text => "text:" ++ text
  | .minBytes _ => "min-bytes"
  | .maxBytes _ => "max-bytes"
  | .digestPresent => "digest-present"
  | .jsonDocument => "json-document"

def DeliverableCriterion.minimum : DeliverableCriterion → Option ℕ
  | .minBytes value => some value
  | _ => none

def DeliverableCriterion.maximum : DeliverableCriterion → Option ℕ
  | .maxBytes value => some value
  | _ => none

def validateMediaType (key : String) (seen : List String) (mediaType : String) :
    Except DeliverableValidationError Unit :=
  refuse (validMediaType mediaType = false ∨ mediaType ∈ seen)
    ⟨s!"media types for '{key}' must be unique lowercase MIME types or type/* ranges"⟩

def validateCriterion (key : String) (seen : List String) (criterion : DeliverableCriterion) :
    Except DeliverableValidationError Unit := do
  refuse (criterion.bounded = false)
    ⟨s!"validation criterion for '{key}' is empty or outside its bound"⟩
  refuse (criterion.slot ∈ seen) ⟨s!"validation criteria for '{key}' must be unique"⟩

def validateDeliverableRequirement (requirement : DeliverableRequirement) :
    Except DeliverableValidationError Unit := do
  let key := requirement.key
  refuse (validKey key = false)
    ⟨s!"deliverable requirement key '{key}' must be a lowercase identifier of 1..64 characters"⟩
  refuse (isBlank requirement.purpose ∨ 4096 < requirement.purpose.utf8ByteSize ∨
      '\x00' ∈ requirement.purpose.toList)
    ⟨s!"purpose for deliverable requirement '{key}' must contain 1..4096 bytes"⟩
  refuse (requirement.maxCount < requirement.minCount ∨ maxRequirementCardinality < requirement.maxCount ∨
      (requirement.required ∧ requirement.minCount = 0) ∨
      (¬ requirement.required ∧ requirement.minCount ≠ 0))
    ⟨s!"cardinality for '{key}' must be 0..={maxRequirementCardinality} and required must agree with a positive minimum"⟩
  refuse (maxRequirementMediaTypes < requirement.allowedMediaTypes.length)
    ⟨s!"requirement '{key}' has more than {maxRequirementMediaTypes} media types"⟩
  checkFresh id (validateMediaType key) [] requirement.allowedMediaTypes
  refuse (maxRequirementCriteria < requirement.criteria.length)
    ⟨s!"requirement '{key}' has more than {maxRequirementCriteria} validation criteria"⟩
  checkFresh DeliverableCriterion.slot (validateCriterion key) [] requirement.criteria
  let minBytes := (requirement.criteria.filterMap DeliverableCriterion.minimum).getLast?
  let maxBytes := (requirement.criteria.filterMap DeliverableCriterion.maximum).getLast?
  refuse (∃ minimum ∈ minBytes, ∃ maximum ∈ maxBytes, maximum < minimum)
    ⟨s!"minimum byte criterion exceeds maximum for '{key}'"⟩

def validateNewRequirement (seen : List String) (requirement : DeliverableRequirement) :
    Except DeliverableValidationError Unit := do
  validateDeliverableRequirement requirement
  refuse (requirement.key ∈ seen) ⟨s!"duplicate deliverable requirement key '{requirement.key}'"⟩

def validateDeliverableRequirements (requirements : List DeliverableRequirement) :
    Except DeliverableValidationError Unit := do
  refuse (maxDeliverableRequirements < requirements.length)
    ⟨s!"a work item may have at most {maxDeliverableRequirements} deliverable requirements"⟩
  checkFresh DeliverableRequirement.key validateNewRequirement [] requirements

def validateInputArtifactRef (input : InputArtifactRef) (expectedProject : ProjectId) :
    Except DeliverableValidationError Unit := do
  refuse ((∃ key ∈ input.inputKey, validKey key = false) ∨ (input.inputKey = none ∧ input.required))
    ⟨"input references require a stable key when marked required"⟩
  refuse (input.projectId ≠ expectedProject)
    ⟨s!"input source {input.sourceVersionId.value} belongs to project {input.projectId.value}, not {expectedProject.value}"⟩
  refuse (isBlank input.sourceVersionId.value ∨ isBlank input.contentDigest ∨
      255 < input.contentDigest.utf8ByteSize)
    ⟨"input reference requires an immutable source version and content digest"⟩
  refuse (∃ identity ∈ input.producedBy, isBlank identity.workId.value ∨ isBlank identity.attemptId.value ∨
      isBlank identity.resultId ∨ 255 < identity.resultId.utf8ByteSize)
    ⟨"input producer provenance requires both work and attempt identities"⟩
  refuse (∃ accepted ∈ input.acceptedResult, input.role ≠ .acceptedInput ∨
      input.producedBy ≠ some accepted.producer ∨
      isBlank accepted.decisionId ∨ 255 < accepted.decisionId.utf8ByteSize ∨
      isBlank accepted.submissionId ∨ 255 < accepted.submissionId.utf8ByteSize ∨
      isBlank accepted.artifactSetDigest ∨ 255 < accepted.artifactSetDigest.utf8ByteSize)
    ⟨"accepted input provenance must match its producer and include decision, submission, and artifact-set identities"⟩
  refuse ((∃ value ∈ input.mediaType, validMediaType value = false) ∨
      (∃ value ∈ input.availability, isBlank value ∨ 64 < value.utf8ByteSize ∨ '\x00' ∈ value.toList) ∨
      input.mediaType.isSome ≠ input.byteCount.isSome ∨
      input.mediaType.isSome ≠ input.availability.isSome)
    ⟨"input artifact metadata is outside its bound"⟩

def checkInputs (expectedProject : ProjectId) : List String → List (SourceVersionId × InputArtifactRole) →
    List InputArtifactRef → Except DeliverableValidationError Unit
  | _, _, [] => .ok ()
  | keys, legacyIdentities, input :: rest => do
    validateInputArtifactRef input expectedProject
    match input.inputKey with
    | some key =>
      refuse (key ∈ keys) ⟨s!"duplicate input key '{key}'"⟩
      checkInputs expectedProject (key :: keys) legacyIdentities rest
    | none =>
      refuse ((input.sourceVersionId, input.role) ∈ legacyIdentities)
        ⟨"legacy input references must not duplicate a source and role"⟩
      checkInputs expectedProject keys ((input.sourceVersionId, input.role) :: legacyIdentities) rest

def validateInputArtifactRefs (inputs : List InputArtifactRef) (expectedProject : ProjectId) :
    Except DeliverableValidationError Unit := do
  refuse (maxInputArtifactRefs < inputs.length)
    ⟨s!"a work item may have at most {maxInputArtifactRefs} input references"⟩
  checkInputs expectedProject [] [] inputs

end Boreal.Deliverables
