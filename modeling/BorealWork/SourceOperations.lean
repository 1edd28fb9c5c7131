/- The operations of the catalogue: each one reads the snapshot again, changes it, and writes it back
before it answers. -/
import BorealWork.SourceBundles

namespace Boreal.Source
open Sorting Tables Drain

/-- The storage boundary: a blob is not visible before its address and its size were verified. -/
structure BlobStore (σ : Type) where
  put : String → List UInt8 → EStateM SourceError σ Unit
  readVerified : σ → String → ℕ → Except SourceError (List UInt8)

def verifyBytes (expectedDigest : String) (expectedSize : ℕ) (bytes : List UInt8) :
    Except SourceError Unit :=
  if bytes.length ≠ expectedSize ∨ contentDigest bytes ≠ expectedDigest then .error .digestMismatch
  else .ok ()

def verifyInput (expectedDigest : String) (bytes : List UInt8) : Except SourceError Unit :=
  if (digestHex expectedDigest).isNone then .error .digestMismatch
  else verifyBytes expectedDigest bytes.length bytes

def memoryBlobStore : BlobStore (Std.ExtTreeMap String (List UInt8)) where
  put expectedDigest bytes := do
    MonadExcept.ofExcept (verifyInput expectedDigest bytes)
    let blobs ← get
    match blobs[expectedDigest]? with
    | some existing =>
      MonadExcept.ofExcept (verifyBytes expectedDigest existing.length existing)
    | none => set (blobs.insert expectedDigest bytes)
  readVerified blobs expectedDigest byteCount :=
    match blobs[expectedDigest]? with
    | none => .error .missingBlob
    | some bytes => do
      verifyBytes expectedDigest byteCount bytes
      return bytes

structure Environment (σ : Type) where
  store : BlobStore σ
  formats : JsonFormats
  alphabet : Alphabet

section Versions

variable {σ : Type} (environment : Environment σ) (state : CatalogState)

/-- A version as it is stored, for a caller who names it with all its immutable metadata. -/
def authorizedVersion (version : SourceVersion) : Except SourceError SourceVersion := do
  validateProjectId version.projectId
  match state.versions[version.key]? with
  | none => .error .scopeViolation
  | some stored =>
    if version.projectId ≠ stored.projectId ∨ version.sourceVersionId ≠ stored.sourceVersionId then
      .error .scopeViolation
    else if version.origin ≠ stored.origin ∨ version.mediaType ≠ stored.mediaType ∨
        version.byteCount ≠ stored.byteCount ∨ version.contentDigest ≠ stored.contentDigest then
      .error .digestMismatch
    else .ok stored

def availability (blobs : σ) (version : SourceVersion) : Except SourceError Availability := do
  let stored ← authorizedVersion state version
  match environment.store.readVerified blobs stored.contentDigest stored.byteCount with
  | .ok _ => .ok .available
  | .error .missingBlob => .ok .missing
  | .error .digestMismatch | .error (.storage _) => .ok .corrupt
  | .error error => .error error

def currentSnapshot (blobs : σ) (version : SourceVersion) : Except SourceError SourceVersion := do
  let availability ← availability environment state blobs version
  return { version with availability }

def versionsFor (projectId : Option String) : Except SourceError (List SourceVersion) := do
  validateOptionalProject projectId
  return sortOn SourceVersion.key ((rows state.versions).filter fun version =>
    projectId.all (version.projectId = ·))

/-- A version that is there already is reused when the caller gives the same metadata; its blob is
put again, which mends a missing one. -/
def reuseVersion (existing : SourceVersion) (origin : String) (bytes : List UInt8)
    (mediaType : String) : EStateM SourceError σ SourceVersion := do
  MonadExcept.ofExcept <| refuse (existing.origin ≠ origin ∨ existing.mediaType ≠ mediaType ∨
    existing.byteCount ≠ bytes.length ∨ existing.contentDigest ≠ contentDigest bytes)
    .sourceMetadataConflict
  environment.store.put (contentDigest bytes) bytes
  MonadExcept.ofExcept (currentSnapshot environment state (← get) existing)

def newVersion (projectId origin : String) (bytes : List UInt8) (mediaType : String) :
    SourceVersion where
  projectId
  sourceVersionId := "sv_" ++ projectId ++ "_" ++ contentDigest bytes
  origin
  mediaType
  byteCount := bytes.length
  contentDigest := contentDigest bytes
  availability := .available
  parserIdentity := none

def insertVersion (version : SourceVersion) : CatalogState :=
  { state with
    versions := state.versions.insert version.key version
    sourceRevision := nextRevision state.sourceRevision }

/-- The captured version, and the state with it when it was not known before. -/
def captureVersion (projectId origin : String) (bytes : List UInt8) (mediaType : String) :
    EStateM SourceError σ (SourceVersion × Option CatalogState) := do
  MonadExcept.ofExcept (validateProjectId projectId)
  MonadExcept.ofExcept (validateOrigin origin)
  MonadExcept.ofExcept (refuse (isBlank mediaType = true) .emptyMediaType)
  let version := newVersion projectId origin bytes mediaType
  match state.versions[version.key]? with
  | some existing =>
    let version ← reuseVersion environment state existing origin bytes mediaType
    return (version, none)
  | none =>
    environment.store.put (contentDigest bytes) bytes
    return (version, some (insertVersion state version))

end Versions

section Captures

variable {σ : Type} (environment : Environment σ) (state : CatalogState)

structure SourceCaptureRequest where
  operationId : String
  projectId : String
  origin : String
  mediaType : String
  bytes : List UInt8
  deriving DecidableEq

structure SourceCaptureReceipt where
  operationId : String
  sourceVersion : SourceVersion
  duplicate : Bool
  reusedExistingVersion : Bool
  deriving DecidableEq

def captureRequestDigest (request : SourceCaptureRequest) : String :=
  contentDigest <| [request.projectId, request.origin, request.mediaType,
    contentDigest request.bytes].flatMap fun field =>
      utf8 (toString field.utf8ByteSize) ++ utf8 ":" ++ utf8 field ++ [0]

/-- A known operation answers with its version and changes nothing. -/
def replayCapture (request : SourceCaptureRequest) (record : CaptureOperationRecord) :
    EStateM SourceError σ SourceCaptureReceipt := do
  MonadExcept.ofExcept <|
    refuse (record.requestDigest ≠ captureRequestDigest request) .operationConflict
  match state.versions[(toLex (record.projectId, record.sourceVersionId) : RowKey)]? with
  | none => throw (.storage "capture operation references a missing source version")
  | some version =>
    environment.store.put version.contentDigest request.bytes
    let version ← MonadExcept.ofExcept (currentSnapshot environment state (← get) version)
    return ⟨request.operationId, version, true, false⟩

def captureOperation (request : SourceCaptureRequest) :
    EStateM SourceError σ (SourceCaptureReceipt × Option CatalogState) := do
  MonadExcept.ofExcept (validateOperationId request.operationId)
  match state.captureOperations[request.operationId]? with
  | some record =>
    let receipt ← replayCapture environment state request record
    return (receipt, none)
  | none =>
    let (version, next) ←
      captureVersion environment state request.projectId request.origin request.bytes
        request.mediaType
    let captured := next.getD state
    return (⟨request.operationId, version, false, next.isNone⟩, some
      { captured with
        captureOperations := captured.captureOperations.insert request.operationId
          ⟨captureRequestDigest request, version.projectId, version.sourceVersionId⟩ })

end Captures

section Artifacts

variable {σ : Type} (environment : Environment σ) (state : CatalogState)

def defaultMaxArtifactBytes : ℕ := 16 * 1024 * 1024

structure SourceReadback where
  identity : SourceIdentity
  mediaType : String
  byteCount : ℕ
  bytes : List UInt8
  deriving DecidableEq

def readIdentity (blobs : σ) (identity : SourceIdentity) (maxBytes : ℕ) :
    Except SourceError SourceReadback := do
  refuse (maxBytes = 0 ∨ defaultMaxArtifactBytes < maxBytes) .invalidArtifactIdentity
  validateProjectId identity.projectId
  refuse (isBlank identity.sourceVersionId = true ∨ (digestHex identity.contentDigest).isNone = true)
    .invalidArtifactIdentity
  match state.versions[identity.versionKey]? with
  | none => .error .scopeViolation
  | some version => do
    refuse (version.contentDigest ≠ identity.contentDigest) .invalidArtifactIdentity
    refuse (maxBytes < version.byteCount) (.artifactTooLarge version.byteCount maxBytes)
    let bytes ← environment.store.readVerified blobs version.contentDigest version.byteCount
    refuse (bytes.length ≠ version.byteCount ∨ contentDigest bytes ≠ identity.contentDigest)
      .digestMismatch
    return ⟨⟨version.projectId, version.sourceVersionId, version.contentDigest⟩,
      version.mediaType, bytes.length, bytes⟩

structure ArtifactRelationshipReceipt where
  relationship : ArtifactRelationship
  duplicate : Bool
  deriving DecidableEq

/-- A known operation answers with its relationship and changes nothing. -/
def replayRelationship (blobs : σ) (input : ArtifactRelationshipInput)
    (existing : ArtifactOperationRecord) : Except SourceError ArtifactRelationshipReceipt := do
  refuse (existing.requestDigest ≠ artifactRelationshipDigest environment.formats input ∨
    existing.projectId ≠ input.source.projectId ∨ existing.relationshipId ≠ input.relationshipId)
    .operationConflict
  match state.artifactRelationships[existing.key]? with
  | none => .error (.storage "artifact operation references a missing relationship")
  | some relationship =>
    let _ ← readIdentity environment state blobs input.source defaultMaxArtifactBytes
    return ⟨relationship, true⟩

def insertRelationship (input : ArtifactRelationshipInput) : ArtifactRelationship × CatalogState :=
  let artifactRevision := nextRevision state.artifactRevision
  let relationship := { input with artifactRevision }
  (relationship,
    { state with
      artifactRevision
      artifactRelationships := state.artifactRelationships.insert input.key relationship
      artifactOperations := state.artifactOperations.insert input.operationId
        ⟨artifactRelationshipDigest environment.formats input, input.source.projectId,
          input.relationshipId⟩ })

def recordRelationship (blobs : σ) (input : ArtifactRelationshipInput) :
    Except SourceError (ArtifactRelationshipReceipt × Option CatalogState) :=
  match state.artifactOperations[input.operationId]? with
  | some existing => do
    let receipt ← replayRelationship environment state blobs input existing
    return (receipt, none)
  | none => do
    refuse (state.artifactRelationships.contains input.key = true) .artifactRelationshipConflict
    let _ ← readIdentity environment state blobs input.source defaultMaxArtifactBytes
    refuse (maxArtifactRelationships ≤ state.artifactRelationships.size)
      .tooManyArtifactRelationships
    let (relationship, next) := insertRelationship environment state input
    return (⟨relationship, false⟩, some next)

end Artifacts

section Index

variable {σ : Type} (environment : Environment σ) (state : CatalogState)

structure ParseReport where
  projectId : String
  sourceVersionId : String
  parserIdentity : String
  state : ParseState
  outputDigest : Option String
  chunkCount : ℕ
  warnings : List ParseWarning
  error : Option String
  indexRevision : UInt64
  deriving DecidableEq

def updateParser (version : SourceVersion) (parser inputVersionId : String) :
    Except SourceError (SourceVersion × CatalogState) := do
  refuse (isBlank parser = true) .emptyParser
  refuse (version.sourceVersionId ≠ inputVersionId) .staleParser
  let stored ← authorizedVersion state version
  let updated := { stored with parserIdentity := some parser }
  return (updated, { state with versions := state.versions.insert version.key updated })

def publishIndex (key : RowKey) (parser digest : String) (parsed : ParsedIndex)
    (state : CatalogState) : CatalogState :=
  if state.indexes[key]?.any fun indexed => indexed.parserIdentity = parser &&
      indexed.inputDigest = digest && indexed.outputDigest = parsed.outputDigest then state
  else
    { state with
      indexRevision := nextRevision state.indexRevision
      indexes := state.indexes.insert key
        ⟨parser, digest, parsed.outputDigest, parsed.chunks, parsed.postings⟩ }

def withdrawIndex (key : RowKey) (state : CatalogState) : CatalogState :=
  if state.indexes.contains key then
    { state with
      indexRevision := nextRevision state.indexRevision
      indexes := state.indexes.erase key }
  else state

/-- A failure is kept as a record; it is not an empty index. -/
def parseRecord (parser digest : String) : Except String ParsedIndex → ParseRecord
  | .ok parsed => ⟨parser, digest, .indexed, some parsed.outputDigest, parsed.chunks.length,
      parsed.warnings, none⟩
  | .error error => ⟨parser, digest, .failed, none, 0, [], some error⟩

def parseAndIndexState (blobs : σ) (version : SourceVersion) (parser : String)
    (limits : ParserLimits) : Except SourceError (ParseReport × CatalogState) := do
  refuse (isBlank parser = true) .emptyParser
  refuse (limits.maxSourceBytes = 0 ∨ limits.maxChunks = 0 ∨ limits.maxChunkBytes = 0)
    .invalidRetrievalQuery
  let stored ← authorizedVersion state version
  let bytes ← environment.store.readVerified blobs stored.contentDigest stored.byteCount
  let parsed := parseBytes environment.alphabet limits bytes
  let named := { state with
    versions := state.versions.insert stored.key { stored with parserIdentity := some parser } }
  let indexed := match parsed with
    | .ok parsed => publishIndex stored.key parser stored.contentDigest parsed named
    | .error _ => withdrawIndex stored.key named
  let record := parseRecord parser stored.contentDigest parsed
  return (⟨stored.projectId, stored.sourceVersionId, parser, record.state, record.outputDigest,
      record.chunkCount, record.warnings, record.error, indexed.indexRevision⟩,
    { indexed with parseRecords := indexed.parseRecords.insert stored.key record })

end Index

section Repair

variable {σ : Type} (environment : Environment σ) (projectId : Option String)

structure IndexStatus where
  sourceRevision : UInt64
  indexRevision : UInt64
  lag : ℕ
  indexedVersions : ℕ
  failedVersions : ℕ
  deriving DecidableEq

def isCurrent (state : CatalogState) (key : RowKey) (version : SourceVersion) : Bool :=
  state.indexes[key]?.any fun indexed =>
    version.parserIdentity = some indexed.parserIdentity &&
      version.contentDigest = indexed.inputDigest

def indexStatus (state : CatalogState) : IndexStatus :=
  let entries := state.versions.toList.filter fun entry => projectId.all ((ofLex entry.1).1 = ·)
  { sourceRevision := state.sourceRevision
    indexRevision := state.indexRevision
    lag := entries.countP fun entry => !isCurrent state entry.1 entry.2
    indexedVersions := entries.countP fun entry => isCurrent state entry.1 entry.2
    failedVersions := entries.countP fun entry =>
      state.parseRecords[entry.1]?.any (·.state = .failed) }

structure RepairCounts where
  attempted : ℕ
  repaired : ℕ
  unchanged : ℕ
  skippedUnavailable : ℕ
  failed : ℕ
  deriving DecidableEq

structure RepairReport where
  projectId : Option String
  counts : RepairCounts
  orphanIndexesRemoved : ℕ
  status : IndexStatus
  deriving DecidableEq

def eraseIndexes (keys : List RowKey) (state : CatalogState) : CatalogState :=
  if keys = [] then state
  else
    { state with
      indexes := keys.foldl (·.erase ·) state.indexes
      indexRevision := nextRevision state.indexRevision }

def indexKeys (state : CatalogState) : List RowKey :=
  state.indexes.keys.filter fun key => projectId.all ((ofLex key).1 = ·)

def repairVersion (blobs : σ) (progress : RepairCounts × CatalogState) (version : SourceVersion) :
    Except SourceError (RepairCounts × CatalogState) := do
  let (counts, state) := progress
  let present ← availability environment state blobs version
  if present ≠ .available then
    return ({ counts with skippedUnavailable := counts.skippedUnavailable + 1 }, state)
  else
    let parser := version.parserIdentity.getD defaultParserIdentity
    let hadCurrent := state.indexes[version.key]?.any fun indexed =>
      indexed.parserIdentity = parser && indexed.inputDigest = version.contentDigest
    let (report, next) ←
      parseAndIndexState environment state blobs version parser defaultParserLimits
    let counts := { counts with attempted := counts.attempted + 1 }
    if report.state = .failed then return ({ counts with failed := counts.failed + 1 }, next)
    else if hadCurrent ∧ state.indexRevision = report.indexRevision then
      return ({ counts with unchanged := counts.unchanged + 1 }, next)
    else return ({ counts with repaired := counts.repaired + 1 }, next)

def repairState (blobs : σ) (resetIndexes : Bool) (state : CatalogState) :
    Except SourceError (RepairReport × CatalogState) := do
  let versions ← versionsFor state projectId
  let start := if resetIndexes then eraseIndexes (indexKeys projectId state) state else state
  let (counts, repaired) ←
    versions.foldlM (repairVersion environment blobs) (⟨0, 0, 0, 0, 0⟩, start)
  let orphans := (indexKeys projectId repaired).filter (· ∉ versions.map SourceVersion.key)
  let final := eraseIndexes orphans repaired
  return (⟨projectId, counts, orphans.length, indexStatus projectId final⟩, final)

end Repair

section Import

variable {σ : Type} (environment : Environment σ) (state : CatalogState)

/-- The bundle's catalogue, loaded and checked on its own. -/
def importBundle (bundle : SourceCatalogBundle) (expectedProjectId : String) :
    Except SourceError (CatalogState × List SourceBundleBlob × ℕ) := do
  validateProjectId expectedProjectId
  refuse (bundle.format ≠ sourceBundleFormatV1 ∨ bundle.projectId ≠ expectedProjectId)
    (.invalidBundle "bundle format or project scope does not match the request")
  refuse (maxSourceBundleBytes < bundle.bytes.length)
    (.bundleTooLarge bundle.bytes.length maxSourceBundleBytes)
  let (metadata, blobs, total) ← decodeSourceBundle environment.formats bundle.bytes
  refuse (metadata.format ≠ sourceBundleFormatV1 ∨ metadata.projectId ≠ expectedProjectId ∨
      metadata.catalog.indexes ≠ [])
    (.invalidBundle "catalog metadata format, project scope, or derived-index policy is invalid")
  let imported ← (restoreCatalogState environment.formats
    (environment.formats.state.toVec metadata.catalog)).mapError fun error =>
      .invalidBundle error.message
  validateBundleProjectState imported expectedProjectId
  validateBundleBlobs imported blobs
  return (imported, blobs, total)

def verifyBlob (blobs : σ) (blob : SourceBundleBlob) : Except SourceError Unit := do
  let stored ← environment.store.readVerified blobs blob.digest blob.bytes.length
  refuse (stored ≠ blob.bytes) .digestMismatch

/-- A project that is there already must be identical, down to its blobs. -/
def replayBundle (imported : CatalogState) (blobs : List SourceBundleBlob) (total : ℕ)
    (projectId : String) : EStateM SourceError σ SourceBundleReadback := do
  MonadExcept.ofExcept <| refuse
    (projectMetadataBytes environment.formats (projectState state projectId) projectId ≠
      projectMetadataBytes environment.formats imported projectId) .bundleConflict
  MonadExcept.ofExcept (blobs.forM (verifyBlob environment (← get)))
  return bundleReadback projectId imported blobs.length total true

def restoreImported (imported : CatalogState) (blobs : List SourceBundleBlob) (total : ℕ)
    (projectId : String) : EStateM SourceError σ (SourceBundleReadback × Option CatalogState) :=
  if projectScopeIsPopulated (projectState state projectId) then do
    let readback ← replayBundle environment state imported blobs total projectId
    return (readback, none)
  else do
    MonadExcept.ofExcept <| refuse
      (imported.captureOperations.keys.any state.captureOperations.contains = true ∨
        imported.artifactOperations.keys.any state.artifactOperations.contains = true)
      .operationConflict
    blobs.forM fun blob => environment.store.put blob.digest blob.bytes
    return (bundleReadback projectId imported blobs.length total false,
      some (mergeProjectState state imported))

end Import

section Transactions

variable {σ : Type} (environment : Environment σ)

/-- What a write to the disk comes to: a rename that was not synced counts as a failure although the
new file is in place. -/
inductive WriteOutcome
  | written
  | refused (error : SourceError)
  | unsynced (error : SourceError)
  deriving DecidableEq

structure Disk where
  file : Option (List UInt8)
  lockFault : Option SourceError
  readFault : Option SourceError
  writeOutcome : WriteOutcome
  deriving DecidableEq

/-- A catalogue over a blob store; without a disk it lives in memory only. -/
structure Catalog (σ : Type) where
  blobs : σ
  state : CatalogState
  disk : Option Disk

def acquirePersistentLock (disk : Option Disk) : Except SourceError Unit :=
  match disk.bind (·.lockFault) with
  | some error => .error error
  | none => .ok ()

def reloadPersistentState (catalog : Catalog σ) : Except SourceError CatalogState :=
  match catalog.disk.bind (·.file) with
  | none => .ok catalog.state
  | some bytes => match catalog.disk.bind (·.readFault) with
      | some error => .error error
      | none => restoreCatalogState environment.formats bytes

def persistState (disk : Disk) (state : CatalogState) : Except SourceError Unit × Disk :=
  let bytes := environment.formats.state.toVec (persistedState state)
  match disk.writeOutcome with
  | .written => (.ok (), { disk with file := some bytes })
  | .refused error => (.error error, disk)
  | .unsynced error => (.error error, { disk with file := some bytes })

/-- One mutation: the lock, the snapshot as it is now, the change, and its write. A change that
cannot be written is taken back. -/
def transact {α : Type} (body : CatalogState → EStateM SourceError σ (α × Option CatalogState)) :
    EStateM SourceError (Catalog σ) α := fun catalog =>
  match acquirePersistentLock catalog.disk with
  | .error error => .error error catalog
  | .ok () => match reloadPersistentState environment catalog with
      | .error error => .error error catalog
      | .ok state => match body state catalog.blobs with
          | .error error blobs => .error error { catalog with blobs, state }
          | .ok (value, none) blobs => .ok value { catalog with blobs, state }
          | .ok (value, some next) blobs => match catalog.disk with
              | none => .ok value { catalog with blobs, state := next }
              | some disk => match persistState environment disk next with
                  | (.ok (), disk) => .ok value ⟨blobs, next, some disk⟩
                  | (.error error, disk) => .error error ⟨blobs, state, some disk⟩

def reading {α : Type} (body : σ → CatalogState → Except SourceError (α × CatalogState))
    (state : CatalogState) : EStateM SourceError σ (α × Option CatalogState) := do
  let (value, next) ← MonadExcept.ofExcept (body (← get) state)
  return (value, some next)

end Transactions

section Operations

variable {σ : Type} (environment : Environment σ)

def withBlobStore (blobs : σ) : Catalog σ := ⟨blobs, emptyState, none⟩

def withPersistentFilesystem (blobs : σ) (disk : Disk) : Except SourceError (Catalog σ) :=
  match disk.file with
  | none => .ok ⟨blobs, emptyState, some disk⟩
  | some bytes => match disk.readFault with
      | some error => .error error
      | none => do
        let state ← restoreCatalogState environment.formats bytes
        return ⟨blobs, state, some disk⟩

def capture (projectId origin : String) (bytes : List UInt8) (mediaType : String) :
    EStateM SourceError (Catalog σ) SourceVersion :=
  transact environment fun state => captureVersion environment state projectId origin bytes mediaType

def captureWithOperation (request : SourceCaptureRequest) :
    EStateM SourceError (Catalog σ) SourceCaptureReceipt :=
  transact environment fun state => captureOperation environment state request

def recordArtifactRelationship (input : ArtifactRelationshipInput) :
    EStateM SourceError (Catalog σ) ArtifactRelationshipReceipt := do
  MonadExcept.ofExcept (validateArtifactRelationship input)
  transact environment fun state => do
    MonadExcept.ofExcept (recordRelationship environment state (← get) input)

def recordParser (version : SourceVersion) (parser inputVersionId : String) :
    EStateM SourceError (Catalog σ) SourceVersion :=
  transact environment <| reading fun _ state => updateParser state version parser inputVersionId

def parseAndIndexWithLimits (version : SourceVersion) (parser : String) (limits : ParserLimits) :
    EStateM SourceError (Catalog σ) ParseReport :=
  transact environment <| reading fun blobs state =>
    parseAndIndexState environment state blobs version parser limits

def repair (projectId : Option String) : EStateM SourceError (Catalog σ) RepairReport := do
  MonadExcept.ofExcept (validateOptionalProject projectId)
  transact environment <| reading fun blobs state =>
    repairState environment projectId blobs false state

def rebuildIndex (projectId : Option String) : EStateM SourceError (Catalog σ) RepairReport := do
  MonadExcept.ofExcept (validateOptionalProject projectId)
  transact environment <| reading fun blobs state =>
    repairState environment projectId blobs true state

def restoreBundle (bundle : SourceCatalogBundle) (expectedProjectId : String) :
    EStateM SourceError (Catalog σ) SourceBundleReadback := do
  let (imported, blobs, total) ←
    MonadExcept.ofExcept (importBundle environment bundle expectedProjectId)
  transact environment fun state =>
    restoreImported environment state imported blobs total expectedProjectId

end Operations

section Runs

variable {σ : Type} (environment : Environment σ)

/-- The calls that change a catalogue, and what other programs do to its blobs and its disk between
two of them. -/
inductive Event (σ : Type)
  | outside (blobs : σ) (disk : Disk → Disk)
  | capture (projectId origin : String) (bytes : List UInt8) (mediaType : String)
  | captureWithOperation (request : SourceCaptureRequest)
  | recordArtifactRelationship (input : ArtifactRelationshipInput)
  | recordParser (version : SourceVersion) (parser inputVersionId : String)
  | parseAndIndex (version : SourceVersion) (parser : String) (limits : ParserLimits)
  | repair (projectId : Option String)
  | rebuildIndex (projectId : Option String)
  | restoreBundle (bundle : SourceCatalogBundle) (expectedProjectId : String)

def step : Event σ → EStateM SourceError (Catalog σ) Unit
  | .outside blobs disk =>
    modify fun catalog => { catalog with blobs, disk := catalog.disk.map disk }
  | .capture projectId origin bytes mediaType =>
    discard (capture environment projectId origin bytes mediaType)
  | .captureWithOperation request => discard (captureWithOperation environment request)
  | .recordArtifactRelationship input => discard (recordArtifactRelationship environment input)
  | .recordParser version parser inputVersionId =>
    discard (recordParser environment version parser inputVersionId)
  | .parseAndIndex version parser limits =>
    discard (parseAndIndexWithLimits environment version parser limits)
  | .repair projectId => discard (repair environment projectId)
  | .rebuildIndex projectId => discard (rebuildIndex environment projectId)
  | .restoreBundle bundle expectedProjectId =>
    discard (restoreBundle environment bundle expectedProjectId)

/-- A run of calls that all answer without an error. -/
def run (events : List (Event σ)) : EStateM SourceError (Catalog σ) Unit :=
  events.forM (step environment)

end Runs

end Boreal.Source
