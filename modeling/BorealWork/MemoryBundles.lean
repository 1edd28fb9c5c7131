/- Backups of a memory root: what is captured of its files and of its repository, the envelope the
capture is encoded in, and the checks a bundle passes before it is restored. -/
import BorealWork.BundleCodec
import BorealWork.Library.Readers
import BorealWork.NoteText

namespace Boreal.Memory
open Drain Formats Lines Readers Sorting
open Source (beBytes fromBeBytes utf8 fromUtf8)
open WorkModel (isControl)

def memoryBundleFormatV1 : String := "boreal.memory.bundle.v1"

def maxMemoryBundleBytes : ℕ := 1024 * 1024 * 1024

def maxMemoryBundleMetadataBytes : ℕ := 32 * 1024 * 1024

def maxMemoryBundleFiles : ℕ := 100000

def memoryBundleMagic : List UInt8 := utf8 "boreal.memory.bundle.v1" ++ [0]

inductive MemoryLayout
  | child
  | inRepo
  deriving DecidableEq

def memoryLayoutName : MemoryLayout → String
  | .child => "child"
  | .inRepo => "in-repo"

structure MemoryBundleFileMetadata where
  path : String
  digest : String
  byteCount : ℕ
  deriving DecidableEq, Encodable

structure MemoryGitRef where
  name : String
  object : String
  deriving DecidableEq, Encodable

structure MemoryGitSnapshot where
  repositoryScope : String
  headCommit : Option String
  headRef : Option String
  tree : Option String
  refs : List MemoryGitRef
  bundleDigest : Option String
  deriving DecidableEq, Encodable

structure MemoryBundleMetadata where
  format : String
  layout : String
  projectId : Option String
  manifestIdentity : Option String
  files : List MemoryBundleFileMetadata
  git : Option MemoryGitSnapshot
  deriving DecidableEq, Encodable

structure MemoryBundleFile where
  path : String
  bytes : List UInt8
  deriving DecidableEq

structure DecodedMemoryBundle where
  metadata : MemoryBundleMetadata
  files : List MemoryBundleFile
  gitBundle : Option (List UInt8)
  totalBytes : ℕ
  deriving DecidableEq

inductive PathComponent
  | rootDir
  | curDir
  | parentDir
  | normal (name : List Char)
  deriving DecidableEq

/-- `Path::components`: empty parts and inner dots are passed over. -/
def components (path : String) : List PathComponent :=
  (if path.toList.head? = some '/' then [.rootDir] else []) ++
    (path.toList.splitOn '/').zipIdx.filterMap fun (part, index) =>
      if part = [] then none
      else if part = ['.'] then (if index = 0 then some .curDir else none)
      else if part = ['.', '.'] then some .parentDir
      else some (.normal part)

def isPlainComponent : PathComponent → Bool
  | .normal name => name ≠ ".git".toList
  | _ => false

def validateMemoryBundlePath (path : String) : Except MemoryError Unit :=
  refuse (path = "" ∨ path.toList.head? = some '/' ∨ '\\' ∈ path.toList ∨ '\x00' ∈ path.toList ∨
    PathComponent.parentDir ∈ components path ∨ (components path).any (!isPlainComponent ·) = true)
    .invalidPath

/-- What the Git commands of a capture print. -/
structure GitAnswers where
  repository : Except MemoryError Bool
  showPrefix : Except MemoryError String
  head : Except MemoryError String
  symbolicRef : Except MemoryError String
  tree : String → Except MemoryError String
  forEachRef : Except MemoryError String
  bundle : Except MemoryError (List UInt8)

def trimmed (text : String) : List Char := trim isWhiteSpace text.toList

def present (text : List Char) : Option String := if text = [] then none else some (String.ofList text)

/-- The tree of a commit, or of the directory of the memory in it. -/
def treeExpression (scope : List Char) : String :=
  if scope = [] then "HEAD^\x7btree\x7d" else "HEAD:" ++ String.ofList scope

def parseRef (line : List Char) : Except MemoryError MemoryGitRef :=
  match splitOnce ['\x00'] line with
  | none => .error (.invalidBundle "Git returned an invalid reference listing")
  | some (name, object) =>
    if name = [] ∨ object = [] then
      .error (.invalidBundle "Git returned an incomplete reference identity")
    else .ok ⟨String.ofList name, String.ofList object⟩

def parseRefs (output : String) : Except MemoryError (List MemoryGitRef) :=
  ((lines output.toList).filter (· ≠ [])).mapM parseRef

/-- `repository` answers `false` for a standalone root without a repository. -/
def captureMemoryGit (layout : MemoryLayout) (git : GitAnswers) (includeHistoryBundle : Bool) :
    Except MemoryError (Option MemoryGitSnapshot × Option (List UInt8)) := do
  if ← git.repository then
    let scope := (trimmed (← git.showPrefix)).rdropWhile (· = '/')
    let headCommit := present (trimmed (← git.head))
    let headRef := present (trimmed (← git.symbolicRef))
    let tree ← (if headCommit.isSome then
      (git.tree (treeExpression scope)).map fun text => present (trimmed text)
      else .ok none : Except MemoryError (Option String))
    let refs ← parseRefs (← git.forEachRef)
    let refs := sortOn MemoryGitRef.name refs
    let bundle ← (if includeHistoryBundle ∧ layout = .child ∧ (headCommit.isSome ∨ refs ≠ []) then
      git.bundle.map some else .ok none : Except MemoryError (Option (List UInt8)))
    return (some ⟨String.ofList scope, headCommit, headRef, tree, refs, bundle.map digest⟩, bundle)
  else return (none, none)

def manifestFile (files : List MemoryBundleFile) : Option MemoryBundleFile :=
  files.find? (·.path = "manifest.json")

/-- The project of the manifest among the files; `refused` is the error of the reader. -/
def manifestProject (refused : String → MemoryError) (file : MemoryBundleFile) :
    Except MemoryError String := do
  let text ← (decodeText file.bytes).elim (.error (refused "manifest is not UTF-8")) .ok
  let manifest ← (parseExistingManifest text).mapError fun error => refused error.display
  return manifest.projectId

def captureProject (files : List MemoryBundleFile) : Except MemoryError (Option String) :=
  match manifestFile files with
  | some file => (manifestProject .invalidManifest file).map some
  | none => .ok none

def MemoryBundleFile.record (file : MemoryBundleFile) : MemoryBundleFileMetadata :=
  ⟨file.path, digest file.bytes, file.bytes.length⟩

/-- Everything a bundle is made of. -/
structure MemorySnapshot where
  metadata : MemoryBundleMetadata
  files : List MemoryBundleFile
  gitBundle : Option (List UInt8)
  deriving DecidableEq

def captureSnapshot (layout : MemoryLayout) (files : List MemoryBundleFile) (git : GitAnswers) :
    Except MemoryError MemorySnapshot := do
  let (snapshot, gitBundle) ← captureMemoryGit layout git true
  let projectId ← captureProject files
  return {
    metadata := {
      format := memoryBundleFormatV1
      layout := memoryLayoutName layout
      projectId := projectId
      manifestIdentity := (manifestFile files).map fun file => digest file.bytes
      files := files.map MemoryBundleFile.record
      git := snapshot }
    files := files
    gitBundle := gitBundle }

def encodeFiles (output : List UInt8) : List MemoryBundleFile → Except MemoryError (List UInt8)
  | [] => .ok output
  | file :: rest => do
    refuse (2 ^ 32 - 1 < file.path.utf8ByteSize) (.invalidBundle "memory path is too long")
    let output := output ++ beBytes 4 file.path.utf8ByteSize ++ utf8 file.path ++
      utf8 (digest file.bytes) ++ beBytes 8 file.bytes.length ++ file.bytes
    refuse (maxMemoryBundleBytes < output.length) (.bundleTooLarge output.length maxMemoryBundleBytes)
    encodeFiles output rest

def encodeGitBundle : Option (List UInt8) → List UInt8
  | some bundle => 1 :: (utf8 (digest bundle) ++ beBytes 8 bundle.length ++ bundle)
  | none => [0]

def encodeMemoryBundle (formats : Format MemoryBundleMetadata) (snapshot : MemorySnapshot) :
    Except MemoryError (List UInt8) := do
  refuse (maxMemoryBundleFiles < snapshot.files.length)
    (.bundleTooLarge snapshot.files.length maxMemoryBundleFiles)
  let metadata := formats.toVec snapshot.metadata
  refuse (maxMemoryBundleMetadataBytes < metadata.length)
    (.bundleTooLarge metadata.length maxMemoryBundleMetadataBytes)
  let output ← encodeFiles (memoryBundleMagic ++ beBytes 8 metadata.length ++ metadata ++
    utf8 (digest metadata) ++ beBytes 4 snapshot.files.length) snapshot.files
  let output := output ++ encodeGitBundle snapshot.gitBundle
  refuse (maxMemoryBundleBytes < output.length) (.bundleTooLarge output.length maxMemoryBundleBytes)
  return output

-- An error that carries the text of a library's own error keeps the sentence before it only.
def takeMemoryBytes (count : ℕ) : Reader MemoryError (List UInt8) :=
  take (.invalidBundle "bundle offset overflow") (.invalidBundle "bundle is truncated") count

def takeMemoryNumber (width : ℕ) : Reader MemoryError ℕ := do
  return fromBeBytes (← takeMemoryBytes width)

def takeMemoryText (count : ℕ) (message : String) : Reader MemoryError String := do
  let bytes ← takeMemoryBytes count
  settle ((fromUtf8 bytes).elim (.error (.invalidBundle message)) .ok)

def usizeMax : ℕ := 2 ^ 64 - 1

/-- The records in order; `total` is the length of the payloads so far. -/
def takeFiles : List MemoryBundleFileMetadata → Option String → ℕ →
    Reader MemoryError (List MemoryBundleFile × ℕ)
  | [], _, total => return ([], total)
  | record :: rest, last, total => do
    settle (validateMemoryBundlePath record.path)
    settle (refuse (last.any (record.path ≤ ·) = true)
      (.invalidBundle "memory paths are duplicated or not sorted"))
    let pathLength ← takeMemoryNumber 4
    let path ← takeMemoryText pathLength "memory path is not UTF-8"
    let fileDigest ← takeMemoryText 71 "file digest is not UTF-8"
    let fileLength ← takeMemoryNumber 8
    let bytes ← takeMemoryBytes fileLength
    settle (refuse (usizeMax < total + fileLength) (.bundleTooLarge usizeMax maxMemoryBundleBytes))
    settle (refuse (path ≠ record.path ∨ fileDigest ≠ record.digest ∨
        fileLength ≠ record.byteCount ∨ digest bytes ≠ fileDigest)
      (.invalidBundle "memory file identity or checksum does not match its manifest"))
    let (files, total) ← takeFiles rest (some path) (total + fileLength)
    return (⟨path, bytes⟩ :: files, total)

def takeGitHistory (total : ℕ) : Reader MemoryError (Option (List UInt8) × ℕ) := do
  let fileDigest ← takeMemoryText 71 "Git bundle digest is not UTF-8"
  let length ← takeMemoryNumber 8
  let bytes ← takeMemoryBytes length
  settle (refuse (usizeMax < total + length) (.bundleTooLarge usizeMax maxMemoryBundleBytes))
  settle (refuse (digest bytes ≠ fileDigest) (.invalidBundle "Git history checksum failed"))
  return (some bytes, total + length)

def takeGitBundle (total : ℕ) : Reader MemoryError (Option (List UInt8) × ℕ) := do
  let marker ← takeMemoryBytes 1
  if marker = [0] then return (none, total)
  else if marker = [1] then takeGitHistory total
  else settle (.error (.invalidBundle "invalid Git bundle marker"))

def validateMetadata (metadata : MemoryBundleMetadata) : Except MemoryError Unit := do
  refuse (metadata.format ≠ memoryBundleFormatV1 ∨
      (metadata.layout ≠ "child" ∧ metadata.layout ≠ "in-repo") ∨
      maxMemoryBundleFiles < metadata.files.length)
    (.invalidBundle "unsupported format or layout")
  metadata.projectId.forM fun projectId =>
    (validateSegment projectId).mapError fun error => .invalidBundle error.display

def readMemoryBundle (formats : Format MemoryBundleMetadata) : Reader MemoryError DecodedMemoryBundle := do
  let magic ← takeMemoryBytes memoryBundleMagic.length
  settle (refuse (magic ≠ memoryBundleMagic) (.invalidBundle "unknown bundle signature"))
  let metadataLength ← takeMemoryNumber 8
  settle (refuse (maxMemoryBundleMetadataBytes < metadataLength)
    (.bundleTooLarge metadataLength maxMemoryBundleMetadataBytes))
  let metadataBytes ← takeMemoryBytes metadataLength
  let metadataDigest ← takeMemoryBytes (7 + 64)
  settle (refuse (metadataDigest ≠ utf8 (digest metadataBytes))
    (.invalidBundle "metadata checksum failed"))
  let metadata ← settle ((formats.fromSlice metadataBytes).mapError fun error =>
    MemoryError.invalidBundle ("metadata is invalid: " ++ error))
  settle (validateMetadata metadata)
  let count ← takeMemoryNumber 4
  settle (refuse (maxMemoryBundleFiles < count ∨ count ≠ metadata.files.length)
    (.invalidBundle "file records do not match the manifest count"))
  let (files, total) ← takeFiles metadata.files none 0
  let (gitBundle, total) ← takeGitBundle total
  return ⟨metadata, files, gitBundle, total⟩

def isAsciiHexDigit (c : Char) : Bool :=
  ('0' ≤ c && c ≤ '9') || ('a' ≤ c && c ≤ 'f') || ('A' ≤ c && c ≤ 'F')

def validGitOid (value : String) : Bool :=
  (value.utf8ByteSize = 40 || value.utf8ByteSize = 64) && value.toList.all isAsciiHexDigit

def validateMemoryGitMetadata (git : MemoryGitSnapshot) : Except MemoryError Unit := do
  refuse (git.repositoryScope.toList.head? = some '/' ∨ '\\' ∈ git.repositoryScope.toList ∨
      ∃ part ∈ git.repositoryScope.toList.splitOn '/', part = "..".toList ∨ part = ".git".toList)
    (.invalidBundle "Git scope is invalid")
  git.headRef.forM fun reference =>
    refuse (¬ "refs/".toList <+: reference.toList ∨ reference.toList.any isControl = true ∨
        ¬ ∃ entry ∈ git.refs, entry.name = reference)
      (.invalidBundle "Git HEAD reference is invalid")
  git.refs.forM fun reference =>
    refuse (¬ "refs/".toList <+: reference.name.toList ∨ reference.name.toList.any isControl = true ∨
        validGitOid reference.object = false)
      (.invalidBundle "Git reference metadata is invalid")
  (git.headCommit.toList ++ git.tree.toList).forM fun oid =>
    refuse (validGitOid oid = false) (.invalidBundle "Git object identity is invalid")

def validateManifestRecord (metadata : MemoryBundleMetadata) (files : List MemoryBundleFile) :
    Except MemoryError Unit :=
  match manifestFile files with
  | some file => do
    let projectId ← manifestProject .invalidBundle file
    refuse (metadata.projectId ≠ some projectId ∨
        metadata.manifestIdentity ≠ some (digest file.bytes))
      (.invalidBundle "manifest identity differs from the memory bundle metadata")
  | none =>
    refuse (metadata.projectId.isSome = true ∨ metadata.manifestIdentity.isSome = true)
      (.invalidBundle "manifest identity exists without a manifest file")

def validateHistoryRecord (metadata : MemoryBundleMetadata) (gitBundle : Option (List UInt8)) :
    Except MemoryError Unit :=
  match metadata.layout, metadata.git, gitBundle with
  | "in-repo", _, some _ =>
    .error (.invalidBundle "in-repository bundles cannot contain enclosing Git history")
  | "child", none, some _ =>
    .error (.invalidBundle "Git bundle has no matching repository identity")
  | "child", some git, some bundle =>
    if git.bundleDigest = some (digest bundle) then
      refuse (git.refs = [] ∧ git.headCommit = none)
        (.invalidBundle "empty standalone Git history must not carry a bundle")
    else validateMemoryGitMetadata git
  | "child", some git, none =>
    if git.bundleDigest.isSome ∨ git.headCommit.isSome ∨ git.refs ≠ [] then
      .error (.invalidBundle "standalone Git history is missing its bundle")
    else validateMemoryGitMetadata git
  | _, some git, _ => validateMemoryGitMetadata git
  | _, none, _ => .ok ()

def validateMemoryBundleManifest (metadata : MemoryBundleMetadata) (files : List MemoryBundleFile)
    (gitBundle : Option (List UInt8)) : Except MemoryError Unit := do
  validateManifestRecord metadata files
  validateHistoryRecord metadata gitBundle
  metadata.git.forM validateMemoryGitMetadata

def decodeMemoryBundle (formats : Format MemoryBundleMetadata) (bytes : List UInt8) :
    Except MemoryError DecodedMemoryBundle := do
  refuse (maxMemoryBundleBytes < bytes.length) (.bundleTooLarge bytes.length maxMemoryBundleBytes)
  let (decoded, cursor) ← readMemoryBundle formats (.start bytes)
  refuse (cursor.rest ≠ [] ∨ maxMemoryBundleBytes < decoded.totalBytes)
    (.invalidBundle "bundle has trailing data or exceeds its payload bound")
  validateMemoryBundleManifest decoded.metadata decoded.files decoded.gitBundle
  return decoded

end Boreal.Memory
