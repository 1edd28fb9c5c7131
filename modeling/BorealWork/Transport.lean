/- Requests and responses on a local socket: JSON envelopes, in frames with their length in front. -/
import BorealWork.BusinessTime
import BorealWork.JsonValidator

namespace Boreal.Service
open Boreal.Source (beBytes fromBeBytes fromUtf8 utf8)
open WorkModel (isControl)
open Drain

section Errors

def ProtocolErrorCode.asStr : ProtocolErrorCode → String
  | .invalidJson => "invalid_json"
  | .invalidEnvelope => "invalid_envelope"
  | .missingField => "missing_field"
  | .duplicateField => "duplicate_field"
  | .unknownField => "unknown_field"
  | .invalidField => "invalid_field"
  | .invalidPayload => "invalid_payload"
  | .busy => "busy"
  | .unknownErrorCode => "unknown_error_code"

def ProtocolErrorCode.fromStr : String → Option ProtocolErrorCode
  | "invalid_json" => some .invalidJson
  | "invalid_envelope" => some .invalidEnvelope
  | "missing_field" => some .missingField
  | "duplicate_field" => some .duplicateField
  | "unknown_field" => some .unknownField
  | "invalid_field" => some .invalidField
  | "invalid_payload" => some .invalidPayload
  | "busy" => some .busy
  | "unknown_error_code" => some .unknownErrorCode
  | _ => none

theorem ProtocolErrorCode.fromStr_asStr (code : ProtocolErrorCode) : fromStr code.asStr = some code := by
  cases code <;> rfl

def ProtocolError.toText (error : ProtocolError) : String :=
  "protocol error (" ++ error.code.asStr ++ "): " ++ error.message

variable (unprintable : Char → Bool)

/-- A text between quotes, the way messages show it. -/
def debugText (text : String) : String := String.ofList (Rendering.debugString unprintable text)

def BusyOutcome.toText : BusyOutcome → String
  | .writerQueueFull capacity depth retryAfterMs =>
    "writer queue is full (" ++ toString depth ++ "/" ++ toString capacity ++ "); retry after " ++
      toString retryAfterMs ++ " ms"
  | .readPoolFull capacity depth retryAfterMs =>
    "read pool is full (" ++ toString depth ++ "/" ++ toString capacity ++ "); retry after " ++
      toString retryAfterMs ++ " ms"
  | .dispatchQueueFull capacity depth retryAfterMs =>
    "application dispatch queue is full (" ++ toString depth ++ "/" ++ toString capacity ++
      "); retry after " ++ toString retryAfterMs ++ " ms"
  | .projectAlreadyOwned projectId (some ownerId) =>
    "project " ++ debugText unprintable projectId ++ " is already owned by " ++
      debugText unprintable ownerId
  | .projectAlreadyOwned projectId none =>
    "project " ++ debugText unprintable projectId ++ " is already owned"

def ProtocolError.withBusy (outcome : BusyOutcome) : ProtocolError :=
  ⟨.busy, outcome.toText unprintable, some outcome⟩

/-- The numbers of an outcome are machine integers. -/
def BusyOutcome.Representable : BusyOutcome → Prop
  | .writerQueueFull capacity depth retryAfterMs
  | .readPoolFull capacity depth retryAfterMs
  | .dispatchQueueFull capacity depth retryAfterMs =>
    capacity < 2 ^ 64 ∧ depth < 2 ^ 64 ∧ retryAfterMs < 2 ^ 64
  | .projectAlreadyOwned _ _ => True

/-- The fields of an error are private: it comes from one of the two constructors. -/
inductive ProtocolError.Built : ProtocolError → Prop
  | new (code : ProtocolErrorCode) (message : String) : Built (.new code message)
  | withBusy (outcome : BusyOutcome) : outcome.Representable → Built (.withBusy unprintable outcome)

end Errors

def validateRequestId (requestId : String) : Except ProtocolError Unit :=
  refuse (requestId.toList = [] ∨ requestId.toList.any isControl = true)
    (.new .invalidField "request_id must be non-empty and contain no control characters")

structure JsonRequest where
  requestId : String
  payload : String
  identified : validateRequestId requestId = .ok ()
  validated : validateJson (utf8 payload) = .ok ()

def JsonRequest.new (requestId payload : String) : Except ProtocolError JsonRequest :=
  match identified : validateRequestId requestId with
  | .error error => .error error
  | .ok () =>
    match validated : validateJson (utf8 payload) with
    | .error message => .error (.new .invalidPayload message)
    | .ok () => .ok ⟨requestId, payload, identified, validated⟩

/-- A response contains either a payload or an error. -/
inductive Carries : Option String → Option ProtocolError → Prop
  | payload {payload : String} : validateJson (utf8 payload) = .ok () → Carries (some payload) none
  | error (error : ProtocolError) : Carries none (some error)

structure JsonResponse where
  requestId : String
  payload : Option String
  error : Option ProtocolError
  identified : validateRequestId requestId = .ok ()
  carries : Carries payload error

def JsonResponse.success (requestId payload : String) : Except ProtocolError JsonResponse :=
  match identified : validateRequestId requestId with
  | .error error => .error error
  | .ok () =>
    match validated : validateJson (utf8 payload) with
    | .error message => .error (.new .invalidPayload message)
    | .ok () => .ok ⟨requestId, some payload, none, identified, .payload validated⟩

def JsonResponse.failure (requestId : String) (error : ProtocolError) :
    Except ProtocolError JsonResponse :=
  match identified : validateRequestId requestId with
  | .error error => .error error
  | .ok () => .ok ⟨requestId, none, some error, identified, .error error⟩

def hexPadded (code : ℕ) : List Char := List.leftpad 4 '0' (Nat.toDigits 16 code)

def quoteCharacter (c : Char) : List Char :=
  if c = '\x22' then ['\\', '\x22']
  else if c = '\\' then ['\\', '\\']
  else if c = '\n' then ['\\', 'n']
  else if c = '\r' then ['\\', 'r']
  else if c = '\t' then ['\\', 't']
  else if c = '\x08' then ['\\', 'b']
  else if c = '\x0c' then ['\\', 'f']
  else if isControl c then '\\' :: 'u' :: hexPadded c.toNat
  else [c]

def quoteJsonString (value : String) : String :=
  String.ofList ('\x22' :: value.toList.flatMap quoteCharacter ++ ['\x22'])

def encodeRequest (request : JsonRequest) : String :=
  "\x7b\"request_id\":" ++ quoteJsonString request.requestId ++ ",\"payload\":" ++
    request.payload ++ "\x7d"

def encodeFull (kind : String) (capacity depth retryAfterMs : ℕ) : String :=
  "\x7b\"kind\":\"" ++ kind ++ "\",\"capacity\":" ++ toString capacity ++ ",\"depth\":" ++
    toString depth ++ ",\"retry_after_ms\":" ++ toString retryAfterMs ++ "\x7d"

def encodeBusyOutcome : BusyOutcome → String
  | .writerQueueFull capacity depth retryAfterMs =>
    encodeFull "writer_queue_full" capacity depth retryAfterMs
  | .readPoolFull capacity depth retryAfterMs =>
    encodeFull "read_pool_full" capacity depth retryAfterMs
  | .dispatchQueueFull capacity depth retryAfterMs =>
    encodeFull "dispatch_queue_full" capacity depth retryAfterMs
  | .projectAlreadyOwned projectId ownerId =>
    "\x7b\"kind\":\"project_already_owned\",\"project_id\":" ++ quoteJsonString projectId ++
      ",\"owner_id\":" ++ (ownerId.map quoteJsonString).getD "null" ++ "\x7d"

def encodeError (error : ProtocolError) : String :=
  "\x7b\"code\":" ++ quoteJsonString error.code.asStr ++ ",\"message\":" ++
    quoteJsonString error.message ++
    error.busy.elim "" (fun busy => ",\"busy\":" ++ encodeBusyOutcome busy) ++ "\x7d"

def encodeResponse (response : JsonResponse) : String :=
  "\x7b\"request_id\":" ++ quoteJsonString response.requestId ++
    (match response.payload, response.error with
      | some payload, _ => ",\"payload\":" ++ payload
      | none, some error => ",\"error\":" ++ encodeError error
      | none, none => "") ++ "\x7d"

section Fields

structure Field where
  name : String
  value : String
  deriving DecidableEq

variable (unprintable : Char → Bool)

def envelopeFields : ℕ → List Field → List UInt8 → Except ProtocolError (List Field × List UInt8)
  | 0, _, _ => .error outOfFuel
  | fuel + 1, fields, body => do
    let (name, body) ← parseString (skipWhitespace body)
    let body ← expectByte (skipWhitespace body) ':'
    let value := skipWhitespace body
    let rest ← parseValue (fuelFor value) value
    let slice ← (fromUtf8 (value.take (value.length - rest.length))).elim
      (.error (invalidJson "envelope contains non-UTF-8 JSON")) .ok
    refuse (fields.any (fun field => field.name = name) = true)
      (.new .duplicateField ("field " ++ debugText unprintable name ++ " appears more than once"))
    let fields := fields ++ [⟨name, slice⟩]
    let rest := skipWhitespace rest
    if rest.head? = some ','.toUInt8 then envelopeFields fuel fields (rest.drop 1)
    else if rest.head? = some '}'.toUInt8 then return (fields, rest.drop 1)
    else .error (invalidJson "object fields must be comma-separated")

def parseEnvelope (body : List UInt8) : Except ProtocolError (List Field) := do
  let body := skipWhitespace body
  refuse (body.head? ≠ some '{'.toUInt8) (invalidJson "envelope must be a JSON object")
  let body := skipWhitespace (body.drop 1)
  let (fields, rest) ←
    if body.head? = some '}'.toUInt8 then .ok ([], body.drop 1)
    else envelopeFields unprintable (body.length + 1) [] body
  refuse (skipWhitespace rest ≠ []) (invalidJson "trailing data after JSON envelope")
  return fields

def rejectUnknownFields (fields : List Field) (allowed : List String) :
    Except ProtocolError Unit :=
  match fields.find? (fun field => field.name ∉ allowed) with
  | some field =>
    .error (.new .unknownField ("unknown envelope field " ++ debugText unprintable field.name))
  | none => .ok ()

def requiredField (fields : List Field) (name : String) : Except ProtocolError Field :=
  (fields.find? (fun field => field.name = name)).elim
    (.error (.new .missingField ("missing " ++ debugText unprintable name))) .ok

def requiredString (fields : List Field) (name : String) : Except ProtocolError String := do
  let field ← requiredField unprintable fields name
  let (value, rest) ← parseString (utf8 field.value)
  refuse (rest ≠ [])
    (.new .invalidField ("field " ++ debugText unprintable name ++ " must be a JSON string"))
  return value

def requiredRawValue (fields : List Field) (name : String) : Except ProtocolError String := do
  return (← requiredField unprintable fields name).value

def parseJsonStringValue (raw : String) : Except ProtocolError String := do
  let (value, rest) ← parseString (utf8 raw)
  refuse (rest ≠ []) (.new .invalidField "field must be a JSON string")
  return value

/-- The decimal digits of a number below `2 ^ 64`, behind a plus sign or not. -/
def parseU64 (value : String) : Option ℕ :=
  let digits := if value.toList.head? = some '+' then value.toList.drop 1 else value.toList
  if digits ≠ [] ∧ digits.all Char.isDigit ∧ Nat.ofDigitChars 10 digits 0 < 2 ^ 64 then
    some (Nat.ofDigitChars 10 digits 0)
  else none

def requiredU64 (fields : List Field) (name : String) : Except ProtocolError ℕ := do
  let value ← requiredRawValue unprintable fields name
  (parseU64 value).elim (.error (.new .invalidField
    ("field " ++ debugText unprintable name ++ " must be a non-negative integer"))) .ok

/-- On the supported targets a `usize` has 64 bits. -/
def requiredUsize (fields : List Field) (name : String) : Except ProtocolError ℕ := do
  let value ← requiredU64 unprintable fields name
  refuse (2 ^ 64 ≤ value)
    (.new .invalidField ("field " ++ debugText unprintable name ++ " is too large"))
  return value

end Fields

section Decoding

variable (unprintable : Char → Bool)

def decodeFull (fields : List Field) (outcome : ℕ → ℕ → ℕ → BusyOutcome) :
    Except ProtocolError BusyOutcome := do
  let capacity ← requiredUsize unprintable fields "capacity"
  let depth ← requiredUsize unprintable fields "depth"
  let retryAfterMs ← requiredU64 unprintable fields "retry_after_ms"
  return outcome capacity depth retryAfterMs

def decodeOwner (owner : Field) : Except ProtocolError (Option String) :=
  if owner.value = "null" then .ok none else some <$> parseJsonStringValue owner.value

def decodeKind (fields : List Field) : String → Except ProtocolError BusyOutcome
  | "writer_queue_full" => decodeFull unprintable fields .writerQueueFull
  | "read_pool_full" => decodeFull unprintable fields .readPoolFull
  | "dispatch_queue_full" => decodeFull unprintable fields .dispatchQueueFull
  | "project_already_owned" => do
    let owner ← (fields.find? (fun field => field.name = "owner_id")).elim
      (.error (.new .missingField "missing \"owner_id\"")) .ok
    let ownerId ← decodeOwner owner
    return .projectAlreadyOwned (← requiredString unprintable fields "project_id") ownerId
  | _ => .error (.new .invalidField "unknown busy outcome kind")

def decodeBusyOutcome (raw : String) : Except ProtocolError BusyOutcome := do
  let fields ← parseEnvelope unprintable (utf8 raw)
  let kind ← requiredString unprintable fields "kind"
  decodeKind unprintable fields kind

/-- The constructors report a bad envelope. -/
def asEnvelope {α : Type} (built : Except ProtocolError α) : Except ProtocolError α :=
  built.mapError fun error => .new .invalidEnvelope error.toText

def decodeRequest (body : String) : Except ProtocolError JsonRequest := do
  let fields ← parseEnvelope unprintable (utf8 body)
  rejectUnknownFields unprintable fields ["request_id", "payload"]
  let requestId ← requiredString unprintable fields "request_id"
  let payload ← requiredRawValue unprintable fields "payload"
  asEnvelope (JsonRequest.new requestId payload)

def decodeError (raw : String) : Except ProtocolError ProtocolError := do
  let fields ← parseEnvelope unprintable (utf8 raw)
  rejectUnknownFields unprintable fields ["code", "message", "busy"]
  let code ← requiredString unprintable fields "code"
  let code ← (ProtocolErrorCode.fromStr code).elim
    (.error (.new .unknownErrorCode "unknown protocol error code")) .ok
  let message ← requiredString unprintable fields "message"
  match fields.find? (fun field => field.name = "busy") with
  | some busy => return .withBusy unprintable (← decodeBusyOutcome unprintable busy.value)
  | none => return .new code message

def decodeResponse (body : String) : Except ProtocolError JsonResponse := do
  let fields ← parseEnvelope unprintable (utf8 body)
  rejectUnknownFields unprintable fields ["request_id", "payload", "error"]
  let requestId ← requiredString unprintable fields "request_id"
  let payload := fields.find? (fun field => field.name = "payload")
  let error := fields.find? (fun field => field.name = "error")
  match payload, error with
  | some _, some _ =>
    .error (.new .invalidEnvelope "response cannot contain both payload and error")
  | some payload, none => asEnvelope (JsonResponse.success requestId payload.value)
  | none, some error => do
    let error ← decodeError unprintable error.value
    asEnvelope (JsonResponse.failure requestId error)
  | none, none => .error (.new .missingField "response requires payload or error")

end Decoding

/-- The settings that a client and a server share, once they are validated. -/
structure TransportConfig where
  maxFrameSize : ℕ
  positive : 0 < maxFrameSize
  prefixed : maxFrameSize < 2 ^ 32

inductive TransportError
  | unexpectedEof
  | frameTooLarge (size maximum : ℕ)
  | protocol (error : ProtocolError)
  deriving DecidableEq

def ensureFrameSize (size : ℕ) (config : TransportConfig) : Except TransportError Unit :=
  refuse (config.maxFrameSize < size) (.frameTooLarge size config.maxFrameSize)

def writeFrame (config : TransportConfig) (body : String) :
    Except TransportError (List UInt8) := do
  let size := (utf8 body).length
  ensureFrameSize size config
  return beBytes 4 size ++ utf8 body

def readExact (size : ℕ) (stream : List UInt8) : Except TransportError (List UInt8 × List UInt8) := do
  refuse (stream.length < size) .unexpectedEof
  return (stream.take size, stream.drop size)

def readFrame (config : TransportConfig) (stream : List UInt8) :
    Except TransportError (String × List UInt8) := do
  let (header, stream) ← readExact 4 stream
  let size := fromBeBytes header
  ensureFrameSize size config
  let (body, stream) ← readExact size stream
  match fromUtf8 body with
  | some body => return (body, stream)
  | none => .error (.protocol (.new .invalidJson "frame body is not UTF-8"))

def readFrames (config : TransportConfig) :
    ℕ → List UInt8 → Except TransportError (List String × List UInt8)
  | 0, stream => .ok ([], stream)
  | count + 1, stream => do
    let (body, stream) ← readFrame config stream
    let (bodies, stream) ← readFrames config count stream
    return (body :: bodies, stream)

end Boreal.Service
