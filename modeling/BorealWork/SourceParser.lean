/- The line parser behind the search index: chunks, their terms, and the postings of each term. -/
import BorealWork.ContentDigest
import BorealWork.Identity
import BorealWork.Library.Formats
import BorealWork.Library.Sorting

namespace Boreal.Source
open Sorting

structure ParseWarning where
  code : String
  message : String
  deriving DecidableEq, Encodable

structure ParserLimits where
  maxSourceBytes : ℕ
  maxChunks : ℕ
  maxChunkBytes : ℕ
  deriving DecidableEq

def defaultParserLimits : ParserLimits := ⟨4 * 1024 * 1024, 100000, 16 * 1024⟩

def defaultParserIdentity : String := "plain-text-lines/v1"

structure IndexedChunk where
  location : String
  text : String
  excerptDigest : String
  deriving DecidableEq, Encodable

structure ParsedIndex where
  outputDigest : String
  chunks : List IndexedChunk
  postings : Std.ExtTreeMap String (List ℕ)
  warnings : List ParseWarning

/-- The character classes of the text, which the language's library decides. -/
structure Alphabet where
  isAlphanumeric : Char → Bool
  toLowercase : Char → List Char

section Text

def utf8 (text : String) : List UInt8 := text.toList.flatMap String.utf8EncodeChar

def fromUtf8 (bytes : List UInt8) : Option String := String.fromUTF8? ⟨bytes.toArray⟩

/-- The segments of the text, each with the line break that ends it. -/
def splitInclusive : List Char → List (List Char)
  | [] => []
  | c :: rest =>
    if c = '\n' then ['\n'] :: splitInclusive rest
    else match splitInclusive rest with
      | [] => [[c]]
      | segment :: segments => (c :: segment) :: segments

def trimLineEnd (segment : List Char) : String :=
  String.ofList (segment.rdropWhile fun c => c = '\n' || c = '\r')

variable (alphabet : Alphabet)

/-- The lower-case words in the order of the text; `current` is the word being read. -/
def words : List Char → List Char → List String
  | [], current => if current = [] then [] else [String.ofList current]
  | c :: rest, current =>
    if alphabet.isAlphanumeric c || c = '_' then words rest (current ++ alphabet.toLowercase c)
    else if current = [] then words rest []
    else String.ofList current :: words rest []

def normalizedTerms (text : String) : List String := sortDedup id (words alphabet text.toList [])

end Text

section Parse

variable (alphabet : Alphabet) (limits : ParserLimits)

def post (ordinal : ℕ) (postings : Std.ExtTreeMap String (List ℕ)) (term : String) :
    Std.ExtTreeMap String (List ℕ) :=
  postings.insert term (postings[term]?.getD [] ++ [ordinal])

/-- The lines from `lineNumber` on, after the chunks and postings of the lines before. -/
def parseLines : List (List Char) → ℕ → List IndexedChunk → Std.ExtTreeMap String (List ℕ) →
    Except String (List IndexedChunk × Std.ExtTreeMap String (List ℕ))
  | [], _, chunks, postings => .ok (chunks, postings)
  | segment :: rest, lineNumber, chunks, postings =>
    let line := trimLineEnd segment
    if isBlank line then parseLines rest (lineNumber + 1) chunks postings
    else if limits.maxChunkBytes < line.utf8ByteSize then
      .error ("line " ++ toString lineNumber ++ " exceeds parser chunk bound (" ++
        toString line.utf8ByteSize ++ "/" ++ toString limits.maxChunkBytes ++ " bytes)")
    else if chunks.length = limits.maxChunks then
      .error ("source exceeds parser chunk bound (" ++ toString (chunks.length + 1) ++ "/" ++
        toString limits.maxChunks ++ ")")
    else
      let chunk := ⟨"line:" ++ toString lineNumber, line, contentDigest (utf8 line)⟩
      parseLines rest (lineNumber + 1) (chunks ++ [chunk])
        ((normalizedTerms alphabet line).foldl (post chunks.length) postings)

def canonicalChunk (chunk : IndexedChunk) : List UInt8 :=
  utf8 chunk.location ++ [0] ++ utf8 chunk.text ++ [0]

def parseBytes (bytes : List UInt8) : Except String ParsedIndex :=
  if limits.maxSourceBytes < bytes.length then
    .error ("source exceeds parser byte bound (" ++ toString bytes.length ++ "/" ++
      toString limits.maxSourceBytes ++ " bytes)")
  else match fromUtf8 bytes with
    | none => .error "source is not valid UTF-8"
    | some text => do
      let (chunks, postings) ← parseLines alphabet limits (splitInclusive text.toList) 1 [] ∅
      return { outputDigest := contentDigest (chunks.flatMap canonicalChunk)
               chunks
               postings
               warnings := if chunks = [] then
                 [⟨"empty_text", "source contains no non-empty text lines"⟩] else [] }

end Parse

end Boreal.Source
