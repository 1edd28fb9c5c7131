/- The manifest as JSON text: the renderer, the parser written for it, and what is checked of a manifest
that is read back. -/
import BorealWork.MemoryEntries

namespace Boreal.Memory
open Drain Sorting
open WorkModel (isControl)

inductive ImportError
  | invalidPath
  | io (message : String)
  | git (message : String)
  | invalidManifest (message : String)
  | scopeViolation
  | missingEntry (entry : String)
  | digestMismatch (entry : String)
  deriving DecidableEq

def ImportError.display : ImportError → String
  | invalidPath => "import path is outside the managed memory root"
  | io message => "memory import I/O failed: " ++ message
  | git message => "memory import Git check failed: " ++ message
  | invalidManifest message => "invalid memory manifest: " ++ message
  | scopeViolation => "memory manifest project scope does not match"
  | missingEntry entry => "manifest entry file is missing: " ++ entry
  | digestMismatch entry => "memory entry digest does not match: " ++ entry

inductive PublishError
  | draftNotAccepted
  | invalidInput (error : MemoryError)
  | io (message : String)
  | git (message : String)
  | gitTimeout (message : String)
  | conflict (message : String)
  deriving DecidableEq

def PublishError.display : PublishError → String
  | draftNotAccepted => "only an accepted cited draft may be published"
  | invalidInput error => error.display
  | io message => "publication I/O failed: " ++ message
  | git message => "git publication failed: " ++ message
  | gitTimeout message => "git publication timed out: " ++ message
  | conflict message => "memory publication conflict: " ++ message

/-- The code of a character in lower-case hexadecimal digits, four at least. -/
def hexEscape (c : Char) : List Char := List.leftpad 4 '0' (Nat.toDigits 16 c.toNat)

def escapeCharacter (c : Char) : List Char :=
  match c with
  | '"' => ['\\', '"']
  | '\\' => ['\\', '\\']
  | '\n' => ['\\', 'n']
  | '\r' => ['\\', 'r']
  | '\t' => ['\\', 't']
  | c => if isControl c then '\\' :: 'u' :: hexEscape c else [c]

def jsonString (value : String) : List Char :=
  '"' :: (value.toList.flatMap escapeCharacter ++ ['"'])

def jsonBool (value : Bool) : List Char := if value then "true".toList else "false".toList

def renderEntry (entry : ManifestEntry) : List Char :=
  "\x7b\"memory_entry_id\":".toList ++ jsonString entry.memoryEntryId ++
    ",\"project_id\":".toList ++ jsonString entry.projectId ++
    ",\"state\":".toList ++ jsonString entry.state.asStr ++
    ",\"content_digest\":".toList ++ jsonString entry.contentDigest ++
    ",\"source_citations\":[".toList ++
      [','].intercalate ((sortedTexts entry.sourceCitations).map jsonString) ++
    "],\"manifest_path\":".toList ++ jsonString entry.manifestPath ++
    ",\"operation_id\":".toList ++ jsonString entry.operationId ++
    ",\"provenance_preserved\":".toList ++ jsonBool entry.provenancePreserved ++ ['\x7d']

def sortedEntries (entries : List ManifestEntry) : List ManifestEntry :=
  sortOn (·.memoryEntryId) entries

/-- The object stays open: the identity that follows is taken over this text. -/
def canonicalManifestWithoutIdentity (manifest : PublicationManifest) : List Char :=
  "\x7b\"schema_version\":".toList ++ jsonString manifestSchemaVersion ++
    ",\"project_id\":".toList ++ jsonString manifest.projectId ++
    ",\"operation_id\":".toList ++ jsonString manifest.operationId ++
    ",\"entries\":[".toList ++
      [','].intercalate ((sortedEntries manifest.entries).map renderEntry) ++ [']']

def PublicationManifest.identity (manifest : PublicationManifest) : String :=
  digest (Utf8.encoded (canonicalManifestWithoutIdentity manifest))

def renderManifest (manifest : PublicationManifest) : List Char :=
  canonicalManifestWithoutIdentity manifest ++ ",\"manifest_identity\":".toList ++
    jsonString manifest.identity ++ ['\x7d']

section Parser

inductive JsonValue
  | object (members : List (String × JsonValue))
  | array (items : List JsonValue)
  | string (value : String)
  | bool (value : Bool)

/-- `u8::is_ascii_whitespace`. -/
def isAsciiWhitespace (c : Char) : Bool :=
  c = ' ' || c = '\t' || c = '\n' || c = '\x0c' || c = '\r'

/-- `u8::is_ascii_control`. -/
def isAsciiControl (c : Char) : Bool := c.toNat < 0x20 || c.toNat = 0x7F

/-! A step of the parser gives a value with the text behind it. The source counts bytes: it looks for
ASCII bytes only and takes every other character whole, so the position never stands inside one. -/

def skipSpace (text : List Char) : List Char := text.dropWhile isAsciiWhitespace

def hexDigit (c : Char) : Option ℕ :=
  if '0' ≤ c ∧ c ≤ '9' then some (c.toNat - '0'.toNat)
  else if 'a' ≤ c ∧ c ≤ 'f' then some (c.toNat - 'a'.toNat + 10)
  else if 'A' ≤ c ∧ c ≤ 'F' then some (c.toNat - 'A'.toNat + 10)
  else none

/-- `char::from_u32`: surrogates and numbers past the last plane are not characters. -/
def charFromU32 (code : ℕ) : Option Char :=
  if code.isValidChar then some (Char.ofNat code) else none

/-- The digits are read one at a time; the error names the first that is missing or wrong. -/
def takeHexDigits : ℕ → ℕ → List Char → Except ImportError (ℕ × List Char)
  | 0, value, text => .ok (value, text)
  | _ + 1, _, [] => .error (.invalidManifest "truncated Unicode escape")
  | count + 1, value, c :: rest => match hexDigit c with
      | none => .error (.invalidManifest "invalid Unicode escape")
      | some digit => takeHexDigits count (16 * value + digit) rest

def takeHexCodePoint (text : List Char) : Except ImportError (ℕ × List Char) := takeHexDigits 4 0 text

/-- The character behind a backslash. -/
def takeEscape : List Char → Except ImportError (Char × List Char)
  | [] => .error (.invalidManifest "unterminated JSON escape")
  | '"' :: rest => .ok ('"', rest)
  | '\\' :: rest => .ok ('\\', rest)
  | 'n' :: rest => .ok ('\n', rest)
  | 'r' :: rest => .ok ('\r', rest)
  | 't' :: rest => .ok ('\t', rest)
  | 'u' :: rest => do
    let (code, rest) ← takeHexCodePoint rest
    match charFromU32 code with
    | none => .error (.invalidManifest "invalid Unicode escape in JSON string")
    | some c => return (c, rest)
  | _ :: _ => .error (.invalidManifest "unsupported JSON escape")

/-- One turn of the loop over a string: `none` at the closing quote. -/
def takeCharacter : List Char → Except ImportError (Option Char × List Char)
  | [] => .error (.invalidManifest "unterminated JSON string")
  | '"' :: rest => .ok (none, rest)
  | '\\' :: rest => do
    let (c, rest) ← takeEscape rest
    return (some c, rest)
  | c :: rest =>
    if isAsciiControl c then .error (.invalidManifest "control byte in JSON string")
    else .ok (some c, rest)

def takeCharacters : ℕ → List Char → Except ImportError (List Char × List Char)
  | 0, _ => .error (.invalidManifest "unterminated JSON string")
  | fuel + 1, text => do
    match ← takeCharacter text with
    | (none, rest) => return ([], rest)
    | (some c, rest) =>
      let (more, rest) ← takeCharacters fuel rest
      return (c :: more, rest)

def parseString : List Char → Except ImportError (String × List Char)
  | '"' :: rest => do
    let (characters, rest) ← takeCharacters (rest.length + 1) rest
    return (String.ofList characters, rest)
  | _ => .error (.invalidManifest "expected JSON string")

mutual

/-- A value, the members of an object up to its closing brace, and the items of an array up to its
closing bracket. A turn of two calls takes a character at least, so twice the length of the text is fuel
enough. -/
def parseValue : ℕ → List Char → Except ImportError (JsonValue × List Char)
  | 0, _ => .error (.invalidManifest "invalid JSON value")
  | fuel + 1, text => match skipSpace text with
      | '\x7b' :: rest => do
        let (members, rest) ← parseMembers fuel rest
        return (.object members, rest)
      | '[' :: rest => do
        let (items, rest) ← parseItems fuel rest
        return (.array items, rest)
      | '"' :: rest => do
        let (value, rest) ← parseString ('"' :: rest)
        return (.string value, rest)
      | 't' :: 'r' :: 'u' :: 'e' :: rest => .ok (.bool true, rest)
      | 'f' :: 'a' :: 'l' :: 's' :: 'e' :: rest => .ok (.bool false, rest)
      | _ => .error (.invalidManifest "invalid JSON value")

def parseMembers :
    ℕ → List Char → Except ImportError (List (String × JsonValue) × List Char)
  | 0, _ => .error (.invalidManifest "invalid JSON value")
  | fuel + 1, text => match skipSpace text with
      | '\x7d' :: rest => .ok ([], rest)
      | start => do
        let (key, rest) ← parseString start
        match skipSpace rest with
        | ':' :: rest => do
          let (value, rest) ← parseValue fuel rest
          match skipSpace rest with
          | '\x7d' :: rest => return ([(key, value)], rest)
          | ',' :: rest => do
            let (members, rest) ← parseMembers fuel rest
            return ((key, value) :: members, rest)
          | _ => .error (.invalidManifest "missing object comma")
        | _ => .error (.invalidManifest "missing object colon")

def parseItems : ℕ → List Char → Except ImportError (List JsonValue × List Char)
  | 0, _ => .error (.invalidManifest "invalid JSON value")
  | fuel + 1, text => match skipSpace text with
      | ']' :: rest => .ok ([], rest)
      | start => do
        let (item, rest) ← parseValue fuel start
        match skipSpace rest with
        | ']' :: rest => return ([item], rest)
        | ',' :: rest => do
          let (items, rest) ← parseItems fuel rest
          return (item :: items, rest)
        | _ => .error (.invalidManifest "missing array comma")

end

def parseJson (text : List Char) : Except ImportError JsonValue := do
  let (value, rest) ← parseValue (2 * text.length + 2) text
  refuse (skipSpace rest ≠ []) (.invalidManifest "trailing JSON content")
  return value

end Parser

def asObject : JsonValue → Except ImportError (List (String × JsonValue))
  | .object members => .ok members
  | _ => .error (.invalidManifest "manifest is not an object")

/-- The first member of the name. -/
def requiredValue (members : List (String × JsonValue)) (key : String) : Except ImportError JsonValue :=
  match members.find? (fun member => member.1 = key) with
  | some member => .ok member.2
  | none => .error (.invalidManifest ("missing field " ++ key))

def requiredString (members : List (String × JsonValue)) (key : String) : Except ImportError String := do
  match ← requiredValue members key with
  | .string value => return value
  | _ => .error (.invalidManifest ("field " ++ key ++ " is not a string"))

def requiredArray (members : List (String × JsonValue)) (key message : String) :
    Except ImportError (List JsonValue) := do
  match ← requiredValue members key with
  | .array items => return items
  | _ => .error (.invalidManifest message)

def requiredBool (members : List (String × JsonValue)) (key message : String) :
    Except ImportError Bool := do
  match ← requiredValue members key with
  | .bool value => return value
  | _ => .error (.invalidManifest message)

def parseState : String → Except ImportError PublicationState
  | "published" => .ok .published
  | "publishing" => .ok .publishing
  | "failed" => .ok .failed
  | "conflict" => .ok .conflict
  | _ => .error (.invalidManifest "unknown publication state")

def parseCitation : JsonValue → Except ImportError String
  | .string value =>
    if value = "" then .error (.invalidManifest "invalid source citation") else .ok value
  | _ => .error (.invalidManifest "invalid source citation")

def importSegment (value : String) : Except ImportError Unit :=
  (validateSegment value).mapError fun _ => .invalidPath

def parseManifestEntry (value : JsonValue) : Except ImportError ManifestEntry := do
  let object ← asObject value
  let memoryEntryId ← requiredString object "memory_entry_id"
  let projectId ← requiredString object "project_id"
  let state ← parseState (← requiredString object "state")
  let contentDigest ← requiredString object "content_digest"
  let citations ← requiredArray object "source_citations" "source citations are not an array"
  let sourceCitations ← citations.mapM parseCitation
  let manifestPath ← requiredString object "manifest_path"
  let operationId ← requiredString object "operation_id"
  let provenancePreserved ← requiredBool object "provenance_preserved" "provenance flag is not boolean"
  importSegment memoryEntryId
  importSegment operationId
  return { memoryEntryId, projectId, state, contentDigest, sourceCitations, manifestPath, operationId,
           provenancePreserved }

structure ParsedManifest where
  projectId : String
  operationId : String
  manifestIdentity : String
  entries : List ManifestEntry
  deriving DecidableEq

def readManifest (value : JsonValue) : Except ImportError ParsedManifest := do
  let object ← asObject value
  let schemaVersion ← requiredString object "schema_version"
  refuse (schemaVersion ≠ manifestSchemaVersion) (.invalidManifest "unsupported schema version")
  let projectId ← requiredString object "project_id"
  importSegment projectId
  let operationId ← requiredString object "operation_id"
  importSegment operationId
  let values ← requiredArray object "entries" "entries is not an array"
  let entries ← values.mapM parseManifestEntry
  let manifestIdentity ← requiredString object "manifest_identity"
  return { projectId, operationId, manifestIdentity, entries }

def parseManifest (text : List Char) : Except ImportError ParsedManifest := do
  readManifest (← parseJson text)

def ParsedManifest.intoManifest (parsed : ParsedManifest) : Except MemoryError PublicationManifest := do
  let manifest ← PublicationManifest.withEntries parsed.projectId parsed.operationId parsed.entries
  return { manifest with manifestIdentity := parsed.manifestIdentity }

def ParsedManifest.identity (parsed : ParsedManifest) : String :=
  PublicationManifest.identity
    ⟨parsed.projectId, parsed.operationId, parsed.manifestIdentity, parsed.entries⟩

def invalidExisting (display : String) : PublishError :=
  .conflict ("existing manifest is invalid: " ++ display)

def parseExistingManifest (text : List Char) : Except PublishError PublicationManifest := do
  let parsed ← (parseManifest text).mapError fun error => invalidExisting error.display
  let manifest ← parsed.intoManifest.mapError fun error => invalidExisting error.display
  (manifest.entries.forM (validateManifestEntry manifest.projectId)).mapError fun error =>
    invalidExisting error.display
  refuse (manifest.identity ≠ manifest.manifestIdentity)
    (.conflict "existing manifest identity does not match its canonical content")
  return manifest

end Boreal.Memory
