/- Cited drafts and the publication manifest: what the constructors of the memory component check, and
the Markdown a draft is rendered to. -/
import BorealWork.BusinessTime
import BorealWork.ContentDigest
import BorealWork.Library.Utf8

namespace Boreal.Memory
open Drain Sorting
open WorkModel (isControl)

def manifestSchemaVersion : String := "boreal.memory_manifest.v1"

def entrySchemaVersion : String := "boreal.memory_entry.v1"

structure Citation where
  sourceVersionId : String
  location : String
  deriving DecidableEq

inductive DraftState
  | draft
  | inReview
  | accepted
  | rejected
  | published
  deriving DecidableEq

def DraftState.asStr : DraftState → String
  | draft => "draft"
  | inReview => "in_review"
  | accepted => "accepted"
  | rejected => "rejected"
  | published => "published"

structure Draft where
  projectId : String
  entryId : String
  title : String
  body : String
  citations : List Citation
  state : DraftState
  deriving DecidableEq

inductive PublicationState
  | publishing
  | published
  | failed
  | conflict
  deriving DecidableEq

def PublicationState.asStr : PublicationState → String
  | publishing => "publishing"
  | published => "published"
  | failed => "failed"
  | conflict => "conflict"

structure ManifestEntry where
  memoryEntryId : String
  projectId : String
  state : PublicationState
  contentDigest : String
  sourceCitations : List String
  manifestPath : String
  operationId : String
  provenancePreserved : Bool
  deriving DecidableEq

structure PublicationManifest where
  projectId : String
  operationId : String
  manifestIdentity : String
  entries : List ManifestEntry
  deriving DecidableEq

inductive MemoryError
  | missingCitation
  | emptyIdentity
  | invalidPath
  | invalidManifest (message : String)
  | invalidBundle (message : String)
  | bundleConflict
  | bundleTooLarge (actual limit : ℕ)
  | io (message : String)
  deriving DecidableEq

def MemoryError.display : MemoryError → String
  | missingCitation => "memory draft has no source citations"
  | emptyIdentity => "memory identity is empty or unsafe"
  | invalidPath => "memory path is outside the managed memory root"
  | invalidManifest message => "invalid memory manifest: " ++ message
  | invalidBundle message => "memory backup bundle is invalid: " ++ message
  | bundleConflict => "memory backup restore conflicts with existing data"
  | bundleTooLarge actual limit =>
    "memory backup bundle is " ++ toString actual ++ " bytes, above the configured " ++
      toString limit ++ " byte bound"
  | io message => "memory I/O failed: " ++ message

section Checks

/-- Characters that may not stand in an identity, which becomes a file name. -/
def unsafeCharacter (c : Char) : Bool := isControl c || isWhiteSpace c || c = '/' || c = '\\'

def validateSegment (value : String) : Except MemoryError Unit := do
  refuse (value = "") .emptyIdentity
  refuse (value = "." ∨ value = ".." ∨ 255 < value.utf8ByteSize ∨
    value.toList.any unsafeCharacter = true) .invalidPath

def Draft.new (projectId entryId title body : String) (citations : List Citation) :
    Except MemoryError Draft := do
  validateSegment projectId
  validateSegment entryId
  refuse (citations = []) .missingCitation
  refuse (citations.any (fun citation =>
    citation.sourceVersionId = "" || citation.location = "") = true) .missingCitation
  return ⟨projectId, entryId, title, body, citations, .draft⟩

def Draft.review (draft : Draft) (accepted : Bool) : Draft :=
  { draft with state := if accepted then .accepted else .rejected }

def isAbsolute (path : String) : Bool := path.toList.head? = some '/'

theorem lawfulBEq_component : LawfulBEq (List Char) := inferInstance

attribute [local instance] lawfulBEq_component

def hasParentComponent (path : String) : Bool := "..".toList ∈ path.toList.splitOn '/'

/-- Where the note of an entry stands under the memory root. -/
def notePath (entryId : String) : String := "notes/" ++ entryId ++ ".md"

def validateManifestEntry (projectId : String) (entry : ManifestEntry) : Except MemoryError Unit := do
  validateSegment entry.memoryEntryId
  validateSegment entry.projectId
  validateSegment entry.operationId
  refuse (entry.projectId ≠ projectId) (.invalidManifest "entry project does not match manifest")
  refuse (entry.state ≠ .published ∨ entry.provenancePreserved = false)
    (.invalidManifest "published manifest entries must preserve provenance")
  refuse (entry.manifestPath ≠ notePath entry.memoryEntryId ∨
    isAbsolute entry.manifestPath = true ∨ hasParentComponent entry.manifestPath = true) .invalidPath
  refuse (entry.sourceCitations = [] ∨ entry.sourceCitations.any (· = "") = true) .missingCitation

/-- The loop over the entries; `ids` are the identities met so far. -/
def checkEntries (projectId : String) : List String → List ManifestEntry → Except MemoryError Unit
  | _, [] => .ok ()
  | ids, entry :: rest => do
    refuse (entry.projectId ≠ projectId ∨ entry.state ≠ .published)
      (.invalidManifest "entry project or state does not match manifest")
    refuse (entry.memoryEntryId ∈ ids)
      (.invalidManifest "manifest contains duplicate entry identities")
    checkEntries projectId (ids ++ [entry.memoryEntryId]) rest

namespace PublicationManifest

def withEntries (projectId operationId : String) (entries : List ManifestEntry) :
    Except MemoryError PublicationManifest := do
  validateSegment projectId
  validateSegment operationId
  refuse (entries = []) (.invalidManifest "manifest has no entries")
  checkEntries projectId [] entries
  return ⟨projectId, operationId, "", entries⟩

def new (projectId operationId : String) (entry : ManifestEntry) :
    Except MemoryError PublicationManifest := do
  validateSegment projectId
  validateSegment operationId
  refuse (entry.projectId ≠ projectId ∨ entry.state ≠ .published)
    (.invalidManifest "entry project or state does not match manifest")
  withEntries projectId operationId [entry]

/-- The first entry of the same identity is replaced where it stands. -/
def replaceEntry (entry : ManifestEntry) : List ManifestEntry → Option (List ManifestEntry)
  | [] => none
  | existing :: rest =>
    if existing.memoryEntryId = entry.memoryEntryId then some (entry :: rest)
    else (replaceEntry entry rest).map (existing :: ·)

def mergeEntry (manifest : PublicationManifest) (operationId : String) (entry : ManifestEntry) :
    Except MemoryError PublicationManifest := do
  validateSegment operationId
  validateManifestEntry manifest.projectId entry
  withEntries manifest.projectId operationId
    ((replaceEntry entry manifest.entries).getD (manifest.entries ++ [entry]))

end PublicationManifest

/-- Sorting and dropping repetitions of plain texts. -/
def sortedTexts (texts : List String) : List String := sortDedup id texts

def manifestEntry (draft : Draft) (operationId contentDigest : String) (state : PublicationState) :
    ManifestEntry where
  memoryEntryId := draft.entryId
  projectId := draft.projectId
  state := state
  contentDigest := contentDigest
  sourceCitations := sortedTexts (draft.citations.map (·.sourceVersionId))
  manifestPath := notePath draft.entryId
  operationId := operationId
  provenancePreserved := true

end Checks

def Citation.order (citation : Citation) : String ×ₗ String :=
  toLex (citation.sourceVersionId, citation.location)

def sortedCitations (citations : List Citation) : List Citation := sortOn Citation.order citations

def Citation.line (citation : Citation) : List Char :=
  "- ".toList ++ citation.sourceVersionId.toList ++ " (".toList ++ citation.location.toList ++ [')']

def sourceLines (draft : Draft) : List Char :=
  ['\n'].intercalate ((sortedCitations draft.citations).map Citation.line)

def frontLines (draft : Draft) (state : String) : List (List Char) :=
  ["---".toList, "schema_version: ".toList ++ entrySchemaVersion.toList,
    "project_id: ".toList ++ draft.projectId.toList, "entry_id: ".toList ++ draft.entryId.toList,
    "state: ".toList ++ state.toList, "---".toList]

def noteText (draft : Draft) (state : String) : List Char :=
  ['\n'].intercalate (frontLines draft state) ++ "\n\n# ".toList ++ draft.title.toList ++
    "\n\n".toList ++ draft.body.toList ++ "\n\n## Sources\n".toList ++ sourceLines draft ++ ['\n']

def renderMarkdownAs (draft : Draft) (state : String) : Except MemoryError (List Char) := do
  validateSegment draft.projectId
  validateSegment draft.entryId
  refuse (draft.citations = []) .missingCitation
  return noteText draft state

def renderMarkdown (draft : Draft) : Except MemoryError (List Char) :=
  renderMarkdownAs draft draft.state.asStr

def renderPublishedMarkdown (draft : Draft) : Except MemoryError (List Char) :=
  renderMarkdownAs draft PublicationState.published.asStr

/-- The address of a text: the hash and its text form are those of the source catalogue. -/
def digest (bytes : List UInt8) : String := Source.contentDigest bytes

end Boreal.Memory
