/- Notes read back: what an import checks of a note, and what the search index takes from it. -/
import BorealWork.Library.Lines
import BorealWork.ManifestJson

namespace Boreal.Memory
open Drain Lines Sorting

structure ImportedEntry where
  memoryEntryId : String
  projectId : String
  contentDigest : String
  sourceCitations : List String
  manifestPath : String
  operationId : String
  deriving DecidableEq

structure IndexedEntry where
  entryId : String
  projectId : String
  title : String
  body : String
  citations : List Citation
  contentDigest : String
  deriving DecidableEq

inductive IndexError
  | import_ (error : ImportError)
  | invalidNote (message : String)
  | invalidQuery (message : String)
  deriving DecidableEq

/-- `std::str::from_utf8`. -/
def decodeText (bytes : List UInt8) : Option (List Char) :=
  (String.fromUTF8? ⟨bytes.toArray⟩).map String.toList

def stripPrefix (start line : List Char) : Option (List Char) :=
  if start.isPrefixOf line then some (line.drop start.length) else none

def stripSuffix (ending line : List Char) : Option (List Char) :=
  if ending.isSuffixOf line then some (line.take (line.length - ending.length)) else none

/-- The location starts behind the last opening parenthesis that follows a space. -/
def parseRenderedCitation (line : List Char) : Option Citation := do
  let value ← stripPrefix "- ".toList line
  let (sourceVersionId, location) ← rsplitOnce " (".toList value
  let location ← stripSuffix [')'] location
  if sourceVersionId = [] ∨ location = [] then none
  else some ⟨String.ofList sourceVersionId, String.ofList location⟩

def sourcesHeading : List Char := "## Sources".toList

def behindSources (lines : List (List Char)) : List (List Char) :=
  (lines.dropWhile (· ≠ sourcesHeading)).drop 1

def renderedCitations (text : List Char) : List Citation :=
  (behindSources (lines text)).filterMap parseRenderedCitation

def requiredLines (entry : ManifestEntry) : List (List Char) :=
  ["schema_version: ".toList ++ entrySchemaVersion.toList, "project_id: ".toList ++ entry.projectId.toList,
    "entry_id: ".toList ++ entry.memoryEntryId.toList,
    "state: published".toList, sourcesHeading]

def validateNote (bytes : List UInt8) (entry : ManifestEntry) : Except ImportError Unit :=
  match decodeText bytes with
  | none => .error (.invalidManifest "entry is not UTF-8 Markdown")
  | some text => do
    refuse (¬ "---\n".toList <+: text ∨ ∃ line ∈ requiredLines entry, ¬ line <:+: text)
      (.invalidManifest ("entry " ++ entry.memoryEntryId ++ " has invalid frontmatter"))
    refuse (sortedTexts ((renderedCitations text).map (·.sourceVersionId)) ≠
        sortedTexts entry.sourceCitations)
      (.invalidManifest ("entry " ++ entry.memoryEntryId ++ " citations do not match the manifest"))

/-- The first line that starts as a heading of the first level. -/
def findTitle (text : List Char) : Option (List Char) :=
  ((lines text).findSome? (stripPrefix "# ".toList)).filter (· ≠ [])

/-- Between the first heading and the heading of the sources, behind an empty line. -/
def findBody (text : List Char) : List Char :=
  let body := do
    let (_, rest) ← splitOnce "\n\n# ".toList text
    let (body, _) ← splitOnce "\n\n## Sources".toList rest
    return match splitOnce "\n\n".toList body with
      | some (_, behind) => behind
      | none => body
  trim isWhiteSpace (body.getD [])

def parseIndexedEntry (bytes : List UInt8) (entry : ImportedEntry) :
    Except IndexError IndexedEntry := do
  let text ← (decodeText bytes).elim (.error (.invalidNote entry.memoryEntryId)) .ok
  let title ← (findTitle text).elim (.error (.invalidNote entry.memoryEntryId)) .ok
  refuse (renderedCitations text = []) (.invalidNote entry.memoryEntryId)
  return {
    entryId := entry.memoryEntryId
    projectId := entry.projectId
    title := String.ofList title
    body := String.ofList (findBody text)
    citations := renderedCitations text
    contentDigest := entry.contentDigest }

/-- What an import reports of an entry. -/
def ManifestEntry.imported (entry : ManifestEntry) : ImportedEntry where
  memoryEntryId := entry.memoryEntryId
  projectId := entry.projectId
  contentDigest := entry.contentDigest
  sourceCitations := entry.sourceCitations
  manifestPath := entry.manifestPath
  operationId := entry.operationId

end Boreal.Memory
