/- The source catalogue: immutable versions, their artifact relationships and derived index, and the
snapshot that is written out and loaded again. -/
import BorealWork.SourceParser

namespace Boreal.Source
open Sorting Tables Formats Drain

inductive Availability
  | available
  | missing
  | corrupt
  deriving DecidableEq, Encodable

structure SourceVersion where
  projectId : String
  sourceVersionId : String
  origin : String
  mediaType : String
  byteCount : ℕ
  contentDigest : String
  availability : Availability
  parserIdentity : Option String
  deriving DecidableEq, Encodable

structure SourceIdentity where
  projectId : String
  sourceVersionId : String
  contentDigest : String
  deriving DecidableEq, Encodable

inductive ArtifactRole
  | inputSource
  | producedDeliverable
  | validationEvidence
  | acceptedSubmission
  | handoffSummary
  deriving DecidableEq, Encodable

inductive ArtifactScope
  | project
  | «private»
  deriving DecidableEq, Encodable

structure ArtifactProducer where
  workId : String
  attemptId : String
  resultId : String
  deriving DecidableEq, Encodable

structure ArtifactRightsProvenance where
  attribution : Option String
  rightsStatement : Option String
  license : Option String
  deriving DecidableEq, Encodable

structure ArtifactRelationshipInput where
  relationshipId : String
  source : SourceIdentity
  role : ArtifactRole
  scope : ArtifactScope
  requirementKey : Option String
  producedBy : Option ArtifactProducer
  rights : ArtifactRightsProvenance
  operationId : String
  deriving DecidableEq, Encodable

/-- What was recorded, with the revision at which it was. -/
structure ArtifactRelationship extends ArtifactRelationshipInput where
  artifactRevision : UInt64
  deriving DecidableEq, Encodable

structure CaptureOperationRecord where
  requestDigest : String
  projectId : String
  sourceVersionId : String
  deriving DecidableEq, Encodable

structure ArtifactOperationRecord where
  requestDigest : String
  projectId : String
  relationshipId : String
  deriving DecidableEq, Encodable

inductive ParseState
  | indexed
  | failed
  deriving DecidableEq, Encodable

structure ParseRecord where
  parserIdentity : String
  inputDigest : String
  state : ParseState
  outputDigest : Option String
  chunkCount : ℕ
  warnings : List ParseWarning
  error : Option String
  deriving DecidableEq, Encodable

structure IndexedSource where
  parserIdentity : String
  inputDigest : String
  outputDigest : String
  chunks : List IndexedChunk
  postings : Std.ExtTreeMap String (List ℕ)
  deriving Encodable

inductive SourceError
  | scopeViolation
  | emptyOrigin
  | emptyMediaType
  | digestMismatch
  | missingBlob
  | staleParser
  | invalidRetrievalQuery
  | emptyParser
  | emptyOperation
  | operationConflict
  | sourceMetadataConflict
  | artifactTooLarge (actual limit : ℕ)
  | invalidArtifactIdentity
  | invalidArtifactRelationship
  | artifactRelationshipConflict
  | tooManyArtifactRelationships
  | invalidBundle (message : String)
  | bundleConflict
  | bundleTooLarge (actual limit : ℕ)
  | storage (message : String)
  deriving DecidableEq

def SourceError.message : SourceError → String
  | .scopeViolation => "source is outside the project scope"
  | .emptyOrigin => "source project or origin is empty"
  | .emptyMediaType => "source media type is empty"
  | .digestMismatch => "blob digest or size verification failed"
  | .missingBlob => "source blob is unavailable"
  | .staleParser => "parser result targets a different source version"
  | .invalidRetrievalQuery => "retrieval query or bound is invalid"
  | .emptyParser => "parser identity is empty"
  | .emptyOperation => "source operation identity is empty"
  | .operationConflict => "source operation was already used for different input"
  | .sourceMetadataConflict => "existing source version has different immutable metadata"
  | .artifactTooLarge actual limit => "artifact is " ++ toString actual ++
      " bytes, above the configured " ++ toString limit ++ " byte bound"
  | .invalidArtifactIdentity => "artifact source identity is invalid or has a different digest"
  | .invalidArtifactRelationship => "artifact relationship metadata is invalid or incomplete"
  | .artifactRelationshipConflict =>
    "artifact relationship identity was reused for different metadata"
  | .tooManyArtifactRelationships => "artifact relationship limit has been reached"
  | .invalidBundle message => "source backup bundle is invalid: " ++ message
  | .bundleConflict => "source backup restore conflicts with existing project metadata"
  | .bundleTooLarge actual limit => "source backup bundle is " ++ toString actual ++
      " bytes, above the configured " ++ toString limit ++ " byte bound"
  | .storage message => "blob storage error: " ++ message

def maxArtifactRelationships : ℕ := 100000

def maxArtifactProvenanceFieldBytes : ℕ := 4 * 1024

def hasNul (text : String) : Bool := text.toList.contains '\x00'

def validateProjectId (projectId : String) : Except SourceError Unit :=
  if projectId = "" then .error .emptyOrigin
  else if hasNul projectId ∨ projectId.toList.contains '/' ∨ projectId.toList.contains '\\' ∨
      projectId = "." ∨ projectId = ".." then .error .scopeViolation
  else .ok ()

def validateOptionalProject (projectId : Option String) : Except SourceError Unit :=
  projectId.elim (.ok ()) validateProjectId

/-- A relative path that never leaves its root. -/
def validateOrigin (origin : String) : Except SourceError Unit :=
  if origin = "" then .error .emptyOrigin
  else if hasNul origin ∨ origin.toList.contains '\\' then .error .scopeViolation
  else if origin.toList.head? = some '/' ∨ ['.', '.'] ∈ origin.toList.splitOn '/' then
    .error .scopeViolation
  else .ok ()

def validateOperationId (operationId : String) : Except SourceError Unit :=
  if isBlank operationId ∨ hasNul operationId then .error .emptyOperation else .ok ()

def validProvenanceId (value : String) : Bool :=
  !isBlank value && value.utf8ByteSize ≤ maxArtifactProvenanceFieldBytes && !hasNul value

def isAsciiLowercase (c : Char) : Bool := 'a' ≤ c && c ≤ 'z'

def validArtifactSegment (value : String) : Bool :=
  value ≠ "" && value.utf8ByteSize ≤ 128 && value ≠ "." && value ≠ ".." &&
    value.toList.all fun c => c.isAlphanum || c = '_' || c = '-' || c = '.' || c = ':'

def validArtifactKey (value : String) : Bool :=
  value ≠ "" && value.utf8ByteSize ≤ 64 &&
    value.toList.all (fun c =>
      isAsciiLowercase c || c.isDigit || c = '_' || c = '-' || c = '.') &&
    value.toList.head?.any isAsciiLowercase

/-- The roles that speak about a work result need its producer. -/
def ArtifactRole.requiresProducer : ArtifactRole → Bool
  | .producedDeliverable | .validationEvidence | .acceptedSubmission | .handoffSummary => true
  | .inputSource => false

def validProducer (role : ArtifactRole) : Option ArtifactProducer → Bool
  | none => !role.requiresProducer
  | some producer => validProvenanceId producer.workId && validProvenanceId producer.attemptId &&
      validProvenanceId producer.resultId

def validRightsField (value : String) : Bool :=
  value.utf8ByteSize ≤ maxArtifactProvenanceFieldBytes && !hasNul value

def validateArtifactRelationship (input : ArtifactRelationshipInput) : Except SourceError Unit := do
  validateProjectId input.source.projectId
  refuse (validArtifactSegment input.source.sourceVersionId = false ∨
    (digestHex input.source.contentDigest).isNone = true ∨
    validArtifactKey input.relationshipId = false ∨
    input.requirementKey.all validArtifactKey = false) .invalidArtifactRelationship
  validateOperationId input.operationId
  refuse (validProducer input.role input.producedBy = false) .invalidArtifactRelationship
  refuse ([input.rights.attribution, input.rights.rightsStatement, input.rights.license].all
    (·.all validRightsField) = false) .invalidArtifactRelationship

abbrev RowKey := String ×ₗ String

def SourceVersion.key (version : SourceVersion) : RowKey :=
  toLex (version.projectId, version.sourceVersionId)

def ArtifactRelationshipInput.key (input : ArtifactRelationshipInput) : RowKey :=
  toLex (input.source.projectId, input.relationshipId)

structure CatalogState where
  versions : Std.ExtTreeMap RowKey SourceVersion
  artifactRelationships : Std.ExtTreeMap RowKey ArtifactRelationship
  parseRecords : Std.ExtTreeMap RowKey ParseRecord
  indexes : Std.ExtTreeMap RowKey IndexedSource
  captureOperations : Std.ExtTreeMap String CaptureOperationRecord
  artifactOperations : Std.ExtTreeMap String ArtifactOperationRecord
  sourceRevision : UInt64
  indexRevision : UInt64
  artifactRevision : UInt64

def emptyState : CatalogState := ⟨∅, ∅, ∅, ∅, ∅, ∅, 0, 0, 0⟩

/-- Revisions stop at the greatest number of their width. -/
def nextRevision (revision : UInt64) : UInt64 := if revision + 1 = 0 then revision else revision + 1

/-- One row of the table of a derived kind, under the identity of its version. -/
structure PersistedRow (α : Type) where
  projectId : String
  sourceVersionId : String
  row : α
  deriving Encodable

structure PersistedOperation (α : Type) where
  operationId : String
  record : α
  deriving Encodable

structure PersistedCatalogState where
  versions : List SourceVersion
  artifactRelationships : List ArtifactRelationship
  parseRecords : List (PersistedRow ParseRecord)
  indexes : List (PersistedRow IndexedSource)
  captureOperations : List (PersistedOperation CaptureOperationRecord)
  artifactOperations : List (PersistedOperation ArtifactOperationRecord)
  sourceRevision : UInt64
  indexRevision : UInt64
  artifactRevision : UInt64
  deriving Encodable

def PersistedRow.key {α : Type} (entry : PersistedRow α) : RowKey :=
  toLex (entry.projectId, entry.sourceVersionId)

def persistedRows {α : Type} (table : Std.ExtTreeMap RowKey α) : List (PersistedRow α) :=
  sortOn PersistedRow.key <|
    table.toList.map fun entry => ⟨(ofLex entry.1).1, (ofLex entry.1).2, entry.2⟩

def persistedOperations {α : Type} (table : Std.ExtTreeMap String α) : List (PersistedOperation α) :=
  sortOn PersistedOperation.operationId <| table.toList.map fun entry => ⟨entry.1, entry.2⟩

def persistedState (state : CatalogState) : PersistedCatalogState where
  versions := sortOn SourceVersion.key (rows state.versions)
  artifactRelationships := sortOn (·.key) (rows state.artifactRelationships)
  parseRecords := persistedRows state.parseRecords
  indexes := persistedRows state.indexes
  captureOperations := persistedOperations state.captureOperations
  artifactOperations := persistedOperations state.artifactOperations
  sourceRevision := state.sourceRevision
  indexRevision := state.indexRevision
  artifactRevision := state.artifactRevision

structure SourceBundleMetadata where
  format : String
  projectId : String
  catalog : PersistedCatalogState
  deriving Encodable

/-- The texts of the three kinds of values that are serialised. -/
structure JsonFormats where
  state : Format PersistedCatalogState
  metadata : Format SourceBundleMetadata
  relationship : Format ArtifactRelationshipInput

section Restore

variable (formats : JsonFormats)

def SourceIdentity.versionKey (identity : SourceIdentity) : RowKey :=
  toLex (identity.projectId, identity.sourceVersionId)

def ArtifactOperationRecord.key (record : ArtifactOperationRecord) : RowKey :=
  toLex (record.projectId, record.relationshipId)

def artifactRelationshipDigest (input : ArtifactRelationshipInput) : String :=
  contentDigest (formats.relationship.toVec input)

def checkRelationship (versions : Std.ExtTreeMap RowKey SourceVersion) (artifactRevision : UInt64)
    (relationship : ArtifactRelationship) : Except SourceError Unit := do
  (validateArtifactRelationship relationship.toArtifactRelationshipInput).mapError fun _ =>
    .storage "catalog metadata has an invalid artifact relationship"
  match versions[relationship.source.versionKey]? with
  | none => .error (.storage "artifact relationship references a missing source version")
  | some source =>
    if source.contentDigest ≠ relationship.source.contentDigest ∨
        relationship.artifactRevision = 0 ∨ artifactRevision < relationship.artifactRevision then
      .error (.storage "artifact relationship identity or revision is inconsistent")
    else .ok ()

def checkArtifactOperation (relationships : Std.ExtTreeMap RowKey ArtifactRelationship)
    (entry : PersistedOperation ArtifactOperationRecord) : Except SourceError Unit :=
  match relationships[entry.record.key]? with
  | none => .error (.storage "artifact operation references a missing relationship")
  | some relationship =>
    if relationship.operationId ≠ entry.operationId ∨
        artifactRelationshipDigest formats relationship.toArtifactRelationshipInput ≠
          entry.record.requestDigest then
      .error (.storage "artifact operation identity does not match its relationship")
    else .ok ()

def unchecked {α : Type} (_ : α) : Except SourceError Unit := .ok ()

/-- The snapshot is loaded table by table, each row checked against the tables before. -/
def restoreRows (persisted : PersistedCatalogState) : Except SourceError CatalogState := do
  refuse (maxArtifactRelationships < persisted.artifactRelationships.length)
    (.storage "catalog metadata exceeds the artifact relationship limit")
  let versions ← load SourceVersion.key id unchecked
    (.storage "catalog metadata contains duplicate source versions") persisted.versions ∅
  let relationships ← load (·.key) id (checkRelationship versions persisted.artifactRevision)
    (.storage "catalog metadata contains duplicate artifact relationships")
    persisted.artifactRelationships ∅
  let parseRecords ← load PersistedRow.key PersistedRow.row unchecked
    (.storage "catalog metadata contains duplicate parse records") persisted.parseRecords ∅
  let indexes ← load PersistedRow.key PersistedRow.row unchecked
    (.storage "catalog metadata contains duplicate indexes") persisted.indexes ∅
  let captures ← load PersistedOperation.operationId PersistedOperation.record unchecked
    (.storage "catalog metadata contains duplicate capture operations")
    persisted.captureOperations ∅
  let operations ← load PersistedOperation.operationId PersistedOperation.record
    (checkArtifactOperation formats relationships)
    (.storage "catalog metadata contains duplicate artifact operations")
    persisted.artifactOperations ∅
  return ⟨versions, relationships, parseRecords, indexes, captures, operations,
    persisted.sourceRevision, persisted.indexRevision, persisted.artifactRevision⟩

def restoreCatalogState (bytes : List UInt8) : Except SourceError CatalogState := do
  let persisted ← (formats.state.fromSlice bytes).mapError fun error =>
    .storage ("catalog metadata is invalid: " ++ error)
  restoreRows formats persisted

end Restore

def inProject {α : Type} (projectId : String) (key : RowKey) (_ : α) : Bool :=
  (ofLex key).1 = projectId

def projectState (state : CatalogState) (projectId : String) : CatalogState :=
  { state with
    versions := state.versions.filter (inProject projectId)
    artifactRelationships := state.artifactRelationships.filter (inProject projectId)
    parseRecords := state.parseRecords.filter (inProject projectId)
    indexes := state.indexes.filter (inProject projectId)
    captureOperations := state.captureOperations.filter fun _ record => record.projectId = projectId
    artifactOperations :=
      state.artifactOperations.filter fun _ record => record.projectId = projectId }

def projectScopeIsPopulated (state : CatalogState) : Bool :=
  !state.versions.isEmpty || !state.artifactRelationships.isEmpty || !state.parseRecords.isEmpty ||
    !state.indexes.isEmpty || !state.captureOperations.isEmpty || !state.artifactOperations.isEmpty

/-- The metadata of a project without what is derived or local to one catalogue. -/
def projectMetadataBytes (formats : JsonFormats) (state : CatalogState) (projectId : String) :
    List UInt8 :=
  let persisted := persistedState (projectState state projectId)
  formats.state.toVec
    { persisted with
      versions := persisted.versions.map ({ · with availability := .available })
      indexes := []
      sourceRevision := 0
      indexRevision := 0
      artifactRevision := 0 }

def mergeProjectState (target imported : CatalogState) : CatalogState where
  versions := target.versions ∪ imported.versions
  artifactRelationships := target.artifactRelationships ∪ imported.artifactRelationships
  parseRecords := target.parseRecords ∪ imported.parseRecords
  indexes := target.indexes ∪ imported.indexes
  captureOperations := target.captureOperations ∪ imported.captureOperations
  artifactOperations := target.artifactOperations ∪ imported.artifactOperations
  sourceRevision := max target.sourceRevision imported.sourceRevision
  indexRevision := max target.indexRevision imported.indexRevision
  artifactRevision := max target.artifactRevision imported.artifactRevision

end Boreal.Source
