/- The bundle of one project: the envelope around its metadata and blobs, and the checks that an
imported catalogue passes before it is merged. -/
import BorealWork.SourceCatalog

namespace Boreal.Source
open Tables Drain

def sourceBundleFormatV1 : String := "boreal.source.bundle.v1"

def maxSourceBundleBytes : ℕ := 512 * 1024 * 1024

def maxSourceBundleMetadataBytes : ℕ := 64 * 1024 * 1024

def sourceBundleMagic : List UInt8 := utf8 "boreal.source.bundle.v1" ++ [0]

structure SourceBundleBlob where
  digest : String
  bytes : List UInt8
  deriving DecidableEq

structure SourceCatalogBundle where
  format : String
  projectId : String
  bytes : List UInt8
  deriving DecidableEq

def encodeBlobs (output : List UInt8) : List SourceBundleBlob → Except SourceError (List UInt8)
  | [] => .ok output
  | blob :: rest =>
    if 2 ^ 16 ≤ blob.digest.utf8ByteSize then .error (.invalidBundle "digest field is too long")
    else
      let output := output ++ beBytes 2 blob.digest.utf8ByteSize ++ utf8 blob.digest ++
        beBytes 8 blob.bytes.length ++ blob.bytes
      if maxSourceBundleBytes < output.length then
        .error (.bundleTooLarge output.length maxSourceBundleBytes)
      else encodeBlobs output rest

def encodeSourceBundle (metadata : List UInt8) (blobs : List SourceBundleBlob) :
    Except SourceError (List UInt8) :=
  if maxSourceBundleMetadataBytes < metadata.length ∨ 2 ^ 32 ≤ blobs.length then
    .error (.bundleTooLarge metadata.length maxSourceBundleMetadataBytes)
  else encodeBlobs (sourceBundleMagic ++ beBytes 8 metadata.length ++ metadata ++
    utf8 (contentDigest metadata) ++ beBytes 4 blobs.length) blobs

/-- What has been read of a bundle, and what is left of it. -/
structure Cursor where
  position : ℕ
  rest : List UInt8
  deriving DecidableEq

def takeBundleBytes (count : ℕ) (cursor : Cursor) : Except SourceError (List UInt8 × Cursor) :=
  if 2 ^ 64 ≤ cursor.position + count then .error (.invalidBundle "bundle offset overflow")
  else if cursor.rest.length < count then .error (.invalidBundle "bundle is truncated")
  else .ok (cursor.rest.take count, ⟨cursor.position + count, cursor.rest.drop count⟩)

def takeBundleNumber (width : ℕ) (cursor : Cursor) : Except SourceError (ℕ × Cursor) := do
  let (bytes, cursor) ← takeBundleBytes width cursor
  return (fromBeBytes bytes, cursor)

def takeBlobs : ℕ → Option String → Cursor → Except SourceError (List SourceBundleBlob × Cursor)
  | 0, _, cursor => .ok ([], cursor)
  | count + 1, last, cursor => do
    let (digestLength, cursor) ← takeBundleNumber 2 cursor
    let (digestBytes, cursor) ← takeBundleBytes digestLength cursor
    let digest ← (fromUtf8 digestBytes).elim (.error (.invalidBundle "blob digest is not UTF-8")) .ok
    refuse ((digestHex digest).isNone = true ∨ last.any (digest ≤ ·) = true)
      (.invalidBundle "blob digests are invalid, duplicated, or not sorted")
    let (length, cursor) ← takeBundleNumber 8 cursor
    let (bytes, cursor) ← takeBundleBytes length cursor
    refuse (contentDigest bytes ≠ digest) (.invalidBundle "blob checksum failed")
    let (blobs, cursor) ← takeBlobs count (some digest) cursor
    return (⟨digest, bytes⟩ :: blobs, cursor)

def decodeSourceBundle (formats : JsonFormats) (bytes : List UInt8) :
    Except SourceError (SourceBundleMetadata × List SourceBundleBlob × ℕ) := do
  refuse (maxSourceBundleBytes < bytes.length) (.bundleTooLarge bytes.length maxSourceBundleBytes)
  let (magic, cursor) ← takeBundleBytes sourceBundleMagic.length ⟨0, bytes⟩
  refuse (magic ≠ sourceBundleMagic) (.invalidBundle "unknown bundle signature")
  let (metadataLength, cursor) ← takeBundleNumber 8 cursor
  refuse (maxSourceBundleMetadataBytes < metadataLength)
    (.bundleTooLarge metadataLength maxSourceBundleMetadataBytes)
  let (metadataBytes, cursor) ← takeBundleBytes metadataLength cursor
  let (metadataDigest, cursor) ← takeBundleBytes (7 + 64) cursor
  refuse (metadataDigest ≠ utf8 (contentDigest metadataBytes))
    (.invalidBundle "catalog metadata checksum failed")
  let metadata ← (formats.metadata.fromSlice metadataBytes).mapError fun error =>
    .invalidBundle ("catalog metadata is invalid: " ++ error)
  let (count, cursor) ← takeBundleNumber 4 cursor
  refuse (1000000 < count) (.invalidBundle "blob count exceeds the supported limit")
  let (blobs, cursor) ← takeBlobs count none cursor
  refuse (cursor.rest ≠ []) (.invalidBundle "bundle contains trailing bytes")
  return (metadata, blobs, (blobs.map (·.bytes.length)).sum)

/-- A version of the project under the identity that a capture gives it. -/
def validBundleVersion (projectId : String) (version : SourceVersion) : Bool :=
  version.projectId = projectId && (validateProjectId version.projectId).toBool &&
    (validateOrigin version.origin).toBool && !isBlank version.mediaType &&
    (digestHex version.contentDigest).isSome &&
    version.sourceVersionId = "sv_" ++ version.projectId ++ "_" ++ version.contentDigest

def validateBundleProjectState (state : CatalogState) (projectId : String) :
    Except SourceError Unit :=
  if (rows state.versions).all (validBundleVersion projectId) ∧
      (rows state.artifactRelationships).all (·.source.projectId = projectId) ∧
      state.parseRecords.keys.all (fun key => (ofLex key).1 = projectId) ∧
      state.indexes.keys.all (fun key => (ofLex key).1 = projectId) ∧
      (rows state.captureOperations).all (·.projectId = projectId) ∧
      (rows state.artifactOperations).all (·.projectId = projectId) then .ok ()
  else .error (.invalidBundle "catalog contains an invalid or cross-project identity")

def expectedBlobs (state : CatalogState) : Std.ExtTreeMap String ℕ :=
  (rows state.versions).foldl (fun sizes version => sizes.insert version.contentDigest version.byteCount) ∅

def validateBundleBlobs (state : CatalogState) (blobs : List SourceBundleBlob) :
    Except SourceError Unit :=
  if (expectedBlobs state).size ≠ blobs.length then
    .error (.invalidBundle "blob set does not match the catalog source versions")
  else if blobs.all fun blob =>
      (expectedBlobs state)[blob.digest]? = some blob.bytes.length &&
        contentDigest blob.bytes = blob.digest then .ok ()
  else .error (.invalidBundle "blob digest or declared size does not match catalog metadata")

structure SourceBundleReadback where
  format : String
  projectId : String
  sourceVersions : ℕ
  artifactRelationships : ℕ
  captureOperations : ℕ
  artifactOperations : ℕ
  blobs : ℕ
  bytes : ℕ
  duplicate : Bool
  deriving DecidableEq

def bundleReadback (projectId : String) (state : CatalogState) (blobs bytes : ℕ) (duplicate : Bool) :
    SourceBundleReadback where
  format := sourceBundleFormatV1
  projectId
  sourceVersions := state.versions.size
  artifactRelationships := state.artifactRelationships.size
  captureOperations := state.captureOperations.size
  artifactOperations := state.artifactOperations.size
  blobs
  bytes
  duplicate

end Boreal.Source
