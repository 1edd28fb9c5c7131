/- The reader of JSON in the transport: it walks over the bytes of a text and gives back what is left
behind the value that it has read. -/
import BorealWork.BundleCodec
import BorealWork.PriorityQueue

namespace Boreal.Service
open Boreal.Source (fromUtf8 utf8)
open Drain

inductive ProtocolErrorCode
  | invalidJson | invalidEnvelope | missingField | duplicateField | unknownField | invalidField
  | invalidPayload | busy | unknownErrorCode
  deriving DecidableEq

structure ProtocolError where
  code : ProtocolErrorCode
  message : String
  busy : Option BusyOutcome
  deriving DecidableEq

def ProtocolError.new (code : ProtocolErrorCode) (message : String) : ProtocolError :=
  ⟨code, message, none⟩

def invalidJson (message : String) : ProtocolError := .new .invalidJson message

def isWhitespace (byte : UInt8) : Bool :=
  byte = ' '.toUInt8 || byte = '\n'.toUInt8 || byte = '\r'.toUInt8 || byte = '\t'.toUInt8

def skipWhitespace (value : List UInt8) : List UInt8 := value.dropWhile isWhitespace

def expectByte (value : List UInt8) (expected : Char) : Except ProtocolError (List UInt8) :=
  match value with
  | byte :: rest =>
    if byte = expected.toUInt8 then .ok rest
    else .error (invalidJson ("expected '" ++ expected.toString ++ "'"))
  | [] => .error (invalidJson ("expected '" ++ expected.toString ++ "'"))

def parseLiteral (value literal : List UInt8) : Except ProtocolError (List UInt8) :=
  if value.take literal.length = literal then .ok (value.drop literal.length)
  else .error (invalidJson "invalid JSON literal")

def isAsciiDigit (byte : UInt8) : Bool := '0'.toUInt8 ≤ byte && byte ≤ '9'.toUInt8

/-- The digits that a fraction or an exponent needs. -/
def takeDigits (message : String) (value : List UInt8) : Except ProtocolError (List UInt8) := do
  refuse (value.head?.any isAsciiDigit = false) (invalidJson message)
  return value.dropWhile isAsciiDigit

def parseSign (value : List UInt8) : List UInt8 :=
  if value.head? = some '-'.toUInt8 then value.drop 1 else value

def parseInteger (value : List UInt8) : Except ProtocolError (List UInt8) :=
  if value.head? = some '0'.toUInt8 then .ok (value.drop 1)
  else if value.head?.any isAsciiDigit then .ok (value.dropWhile isAsciiDigit)
  else .error (invalidJson "invalid JSON number")

def parseFraction (value : List UInt8) : Except ProtocolError (List UInt8) :=
  if value.head? = some '.'.toUInt8 then
    takeDigits "JSON number fraction needs digits" (value.drop 1)
  else .ok value

def parseExponent (value : List UInt8) : Except ProtocolError (List UInt8) :=
  if value.head?.any (fun byte => byte = 'e'.toUInt8 || byte = 'E'.toUInt8) then
    let value := value.drop 1
    takeDigits "JSON number exponent needs digits"
      (if value.head?.any (fun byte => byte = '+'.toUInt8 || byte = '-'.toUInt8) then value.drop 1
        else value)
  else .ok value

def parseNumber (value : List UInt8) : Except ProtocolError (List UInt8) := do
  let value ← parseInteger (parseSign value)
  let value ← parseFraction value
  parseExponent value

def hexDigit (byte : UInt8) : Except ProtocolError ℕ :=
  if isAsciiDigit byte then .ok (byte.toNat - 48)
  else if 'a'.toUInt8 ≤ byte && byte ≤ 'f'.toUInt8 then .ok (byte.toNat - 97 + 10)
  else if 'A'.toUInt8 ≤ byte && byte ≤ 'F'.toUInt8 then .ok (byte.toNat - 65 + 10)
  else .error (invalidJson "invalid Unicode escape")

def parseHexQuad (value : List UInt8) : Except ProtocolError ℕ := do
  refuse (value.length < 4) (invalidJson "short Unicode escape")
  (value.take 4).foldlM (fun code byte => do return code * 16 + (← hexDigit byte)) 0

/-- Surrogates are no characters. -/
def fromU32 (code : ℕ) : Option Char :=
  if code < 0xD800 ∨ 0xDFFF < code ∧ code < 0x110000 then some (Char.ofNat code) else none

def appendUtf8Segment (output : String) (segment : List UInt8) : Except ProtocolError String :=
  match fromUtf8 segment with
  | some segment => .ok (output ++ segment)
  | none => .error (invalidJson "invalid UTF-8 string")

/-- What the byte behind a backslash stands for, where it is not `u`. -/
def simpleEscape (escape : UInt8) : Option Char :=
  if escape = '\x22'.toUInt8 then some '\x22'
  else if escape = '\\'.toUInt8 then some '\\'
  else if escape = '/'.toUInt8 then some '/'
  else if escape = 'b'.toUInt8 then some '\x08'
  else if escape = 'f'.toUInt8 then some '\x0c'
  else if escape = 'n'.toUInt8 then some '\n'
  else if escape = 'r'.toUInt8 then some '\r'
  else if escape = 't'.toUInt8 then some '\t'
  else none

def parseStringBody (decoded : String) (segment : List UInt8) :
    List UInt8 → Except ProtocolError (String × List UInt8)
  | [] => .error (invalidJson "unterminated JSON string")
  | byte :: rest =>
    if byte = '\x22'.toUInt8 then do
      let decoded ← appendUtf8Segment decoded segment
      return (decoded, rest)
    else if byte = '\\'.toUInt8 then do
      let decoded ← appendUtf8Segment decoded segment
      match rest with
      | [] => .error (invalidJson "unfinished JSON escape")
      | escape :: rest =>
        match simpleEscape escape with
        | some character => parseStringBody (decoded.push character) [] rest
        | none =>
          if escape = 'u'.toUInt8 then do
            let code ← parseHexQuad rest
            match rest with
            | _ :: _ :: _ :: _ :: rest =>
              match fromU32 code with
              | some character => parseStringBody (decoded.push character) [] rest
              | none => .error (invalidJson "invalid Unicode escape")
            | _ => .error (invalidJson "short Unicode escape")
          else .error (invalidJson "unknown JSON escape")
    else if byte < 0x20 then .error (invalidJson "unescaped control in JSON string")
    else parseStringBody decoded (segment ++ [byte]) rest

def parseString (value : List UInt8) : Except ProtocolError (String × List UInt8) :=
  match value with
  | byte :: rest =>
    if byte = '\x22'.toUInt8 then parseStringBody "" [] rest
    else .error (invalidJson "expected a JSON string")
  | [] => .error (invalidJson "expected a JSON string")

section Values

def outOfFuel : ProtocolError := invalidJson "out of fuel"

mutual

def parseValue : ℕ → List UInt8 → Except ProtocolError (List UInt8)
  | 0, _ => .error outOfFuel
  | fuel + 1, value =>
    let value := skipWhitespace value
    match value with
    | [] => .error (invalidJson "expected a JSON value")
    | byte :: _ =>
      if byte = '\x22'.toUInt8 then Except.map Prod.snd (parseString value)
      else if byte = '{'.toUInt8 then parseObjectValue fuel value
      else if byte = '['.toUInt8 then parseArrayValue fuel value
      else if byte = 't'.toUInt8 then parseLiteral value (utf8 "true")
      else if byte = 'f'.toUInt8 then parseLiteral value (utf8 "false")
      else if byte = 'n'.toUInt8 then parseLiteral value (utf8 "null")
      else if byte = '-'.toUInt8 || isAsciiDigit byte then parseNumber value
      else .error (invalidJson "expected a JSON value")

def parseObjectValue : ℕ → List UInt8 → Except ProtocolError (List UInt8)
  | 0, _ => .error outOfFuel
  | fuel + 1, value =>
    let value := skipWhitespace (value.drop 1)
    if value.head? = some '}'.toUInt8 then .ok (value.drop 1)
    else parseObjectFields fuel value

def parseObjectFields : ℕ → List UInt8 → Except ProtocolError (List UInt8)
  | 0, _ => .error outOfFuel
  | fuel + 1, value => do
    let (_, value) ← parseString (skipWhitespace value)
    let value ← expectByte (skipWhitespace value) ':'
    let value ← parseValue fuel value
    let value := skipWhitespace value
    if value.head? = some ','.toUInt8 then parseObjectFields fuel (value.drop 1)
    else if value.head? = some '}'.toUInt8 then return value.drop 1
    else .error (invalidJson "object fields must be comma-separated")

def parseArrayValue : ℕ → List UInt8 → Except ProtocolError (List UInt8)
  | 0, _ => .error outOfFuel
  | fuel + 1, value =>
    let value := skipWhitespace (value.drop 1)
    if value.head? = some ']'.toUInt8 then .ok (value.drop 1)
    else parseArrayValues fuel value

def parseArrayValues : ℕ → List UInt8 → Except ProtocolError (List UInt8)
  | 0, _ => .error outOfFuel
  | fuel + 1, value => do
    let value ← parseValue fuel value
    let value := skipWhitespace value
    if value.head? = some ','.toUInt8 then parseArrayValues fuel (value.drop 1)
    else if value.head? = some ']'.toUInt8 then return value.drop 1
    else .error (invalidJson "array values must be comma-separated")

end

/-- A value takes at most three calls for each of its bytes. -/
def fuelFor (value : List UInt8) : ℕ := 3 * value.length + 1

def validateJson (value : List UInt8) : Except String Unit :=
  match parseValue (fuelFor value) value with
  | .error error => .error error.message
  | .ok rest =>
    if skipWhitespace rest = [] then .ok () else .error "trailing data after JSON value"

end Values

end Boreal.Service
