/- The stored payload of an external wait: its JSON form, and the decoder that reads it back. -/
import BorealWork.ExternalWaits
import BorealWork.StoreJournal

namespace Boreal.Store
open Drain JsonValue WorkModel

section Fields
variable (value : Value) (key : String)

def required : Except StoreError Value :=
  match value.get? key with
  | some found => .ok found
  | none => .error (.corrupt s!"payload is missing {key}")

def requiredString : Except StoreError String := do
  match ← required value key with
  | .string text => .ok text
  | _ => .error (.corrupt s!"payload field {key} is not text")

def optionalString : Except StoreError (Option String) := do
  match ← required value key with
  | .null => .ok none
  | .string text => .ok (some text)
  | _ => .error (.corrupt s!"payload field {key} is not text or null")

def requiredU64 : Except StoreError ℕ := do
  match ← required value key with
  | .number (.natural n) => .ok n
  | _ => .error (.corrupt s!"payload field {key} is not an unsigned integer")

def optionalU64 : Except StoreError (Option ℕ) := do
  match ← required value key with
  | .null => .ok none
  | .number (.natural n) => .ok (some n)
  | _ => .error (.corrupt s!"payload field {key} is not an unsigned integer or null")

/-- The narrower types are the widths of what was encoded, so that they always fit again. -/
def requiredInteger : Except StoreError ℤ := do
  match ← required value key with
  | .number (.natural n) => .ok n
  | .number (.negative n) => .ok (Int.negSucc n)
  | _ => .error (.corrupt s!"payload field {key} is not a 32-bit integer")

def requiredSmall : Except StoreError ℕ := do
  match ← required value key with
  | .number (.natural n) => .ok n
  | _ => .error (.corrupt s!"payload field {key} is not an 8-bit unsigned integer")

end Fields

/-- A name table, read in the other direction; unknown names are refused. -/
def parseName {α : Type} (label : String) (name : α → String) (all : List α) (value : String) :
    Except StoreError α :=
  match all.find? (fun a => name a = value) with
  | some a => .ok a
  | none => .error (.corrupt s!"unknown {label} {repr value}")

def externalWaitCategoryName : ExternalWaitCategory → String
  | .decision => "decision"
  | .approval => "approval"
  | .information => "information"
  | .access => "access"
  | .service => "service"
  | .other => "other"

def parseExternalWaitCategory : String → Except StoreError ExternalWaitCategory :=
  parseName "external-wait category" externalWaitCategoryName
    [.decision, .approval, .information, .access, .service, .other]

def externalWaitStateName : ExternalWaitState → String
  | .opened => "open"
  | .resolved => "resolved"
  | .cancelled => "cancelled"

def parseExternalWaitState : String → Except StoreError ExternalWaitState :=
  parseName "external-wait state" externalWaitStateName [.opened, .resolved, .cancelled]

def externalWaitOutcomeName : ExternalWaitOutcome → String
  | .approved => "approved"
  | .rejected => "rejected"
  | .decisionProvided => "decisionprovided"
  | .outputProvided => "outputprovided"
  | .declined => "declined"
  | .unavailable => "unavailable"
  | .cancelled => "cancelled"

def parseExternalWaitOutcome : String → Except StoreError ExternalWaitOutcome :=
  parseName "external-wait outcome" externalWaitOutcomeName
    [.approved, .rejected, .decisionProvided, .outputProvided, .declined, .unavailable, .cancelled]

/-- The policies are named by their constructors, in lower case. -/
def gapPolicyDebug : GapPolicy → String
  | .nextValid => "NextValid"

def parseGapPolicy (value : String) : Except StoreError GapPolicy :=
  if value = "nextvalid" then .ok .nextValid
  else .error (.corrupt "unknown local-time gap policy")

def foldPolicyDebug : FoldPolicy → String
  | .earlierOffset => "EarlierOffset"
  | .laterOffset => "LaterOffset"

def parseFoldPolicy (value : String) : Except StoreError FoldPolicy :=
  if value = "earlieroffset" then .ok .earlierOffset
  else if value = "lateroffset" then .ok .laterOffset
  else .error (.corrupt "unknown local-time fold policy")

def toAsciiLowercase (text : String) : String := String.ofList (text.toList.map Char.toLower)

def actorRoleName : ActorRole → String
  | .agent => "agent"
  | .reviewer => "reviewer"
  | .operator => "operator"
  | .publisher => "publisher"

def parseActorRole : String → Except StoreError ActorRole :=
  parseName "actor role" actorRoleName [.agent, .reviewer, .operator, .publisher]

def natural (n : ℕ) : Value := .number (.natural n)

def integer : ℤ → Value
  | .ofNat n => .number (.natural n)
  | .negSucc n => .number (.negative n)

def orNull {α : Type} (encode : α → Value) : Option α → Value
  | none => .null
  | some a => encode a

def encodeBusinessDate : BusinessDate → Value
  | .instant moment => .object [("kind", .string "instant"), ("at_ms", natural moment.value)]
  | .localDate date => .object [("kind", .string "local_date"), ("year", integer date.year),
      ("month", natural date.month), ("day", natural date.day)]
  | .resolvedLocal value => .object [("kind", .string "resolved_local"),
      ("nominal_local", .object [("year", integer value.nominalLocal.date.year),
        ("month", natural value.nominalLocal.date.month),
        ("day", natural value.nominalLocal.date.day),
        ("hour", natural value.nominalLocal.time.hour),
        ("minute", natural value.nominalLocal.time.minute),
        ("second", natural value.nominalLocal.time.second)]),
      ("utc_instant_ms", natural value.utcInstant.value),
      ("utc_offset_minutes", integer value.utcOffsetMinutes),
      ("timezone", .string value.timezone), ("tzdb_identity", .string value.tzdbIdentity),
      ("gap_policy", .string (toAsciiLowercase (gapPolicyDebug value.gapPolicy))),
      ("fold_policy", .string (toAsciiLowercase (foldPolicyDebug value.foldPolicy)))]

def encodeAccountable : ExternalWaitAccountable → Value
  | .person reference displayName => .object [("kind", .string "person"),
      ("reference", .string reference), ("display_name", .string displayName)]
  | .role role => .object [("kind", .string "role"), ("role", .string (actorRoleName role))]
  | .service reference displayName => .object [("kind", .string "service"),
      ("reference", .string reference), ("display_name", .string displayName)]

def encodeResolution (value : ExternalWaitResolution) : Value :=
  .object [("outcome", .string (externalWaitOutcomeName value.outcome)),
    ("detail", .string value.detail), ("output_ref", orNull .string value.outputRef),
    ("supplied_by", encodeAccountable value.suppliedBy),
    ("recorded_by", .string value.recordedBy),
    ("recorded_as", .string (actorRoleName value.recordedAs)),
    ("recorded_at_ms", natural value.recordedAt.value)]

def encodeExternalWait (wait : ExternalWait) : Value :=
  .object [("version", natural 1), ("revision", natural wait.revision),
    ("source_work_id", .string wait.sourceWorkId.value),
    ("affected_work_ids", .array (wait.affectedWorkIds.map fun workId => .string workId.value)),
    ("category", .string (externalWaitCategoryName wait.category)),
    ("reason", .string wait.reason),
    ("accountable", encodeAccountable wait.accountable),
    ("expected_decision", orNull .string wait.expectedDecision),
    ("expected_output", orNull .string wait.expectedOutput),
    ("follow_up", orNull encodeBusinessDate wait.followUp),
    ("civil_time_setting_revision", orNull natural wait.civilTimeSettingRevision),
    ("state", .string (externalWaitStateName wait.state)),
    ("created_by", .string wait.createdBy),
    ("created_at_ms", natural wait.createdAt.value),
    ("resolution", orNull encodeResolution wait.resolution)]

def decodeBusinessDateKind (value : Value) : Except StoreError BusinessDate := do
  let kind ← requiredString value "kind"
  if kind = "instant" then
    let moment ← requiredU64 value "at_ms"
    return .instant ⟨moment⟩
  else if kind = "local_date" then
    let year ← requiredInteger value "year"
    let month ← requiredSmall value "month"
    let day ← requiredSmall value "day"
    return .localDate ⟨year, month, day⟩
  else if kind = "resolved_local" then
    let nominal ← required value "nominal_local"
    let year ← requiredInteger nominal "year"
    let month ← requiredSmall nominal "month"
    let day ← requiredSmall nominal "day"
    let hour ← requiredSmall nominal "hour"
    let minute ← requiredSmall nominal "minute"
    let second ← requiredSmall nominal "second"
    let moment ← requiredU64 value "utc_instant_ms"
    let offset ← requiredInteger value "utc_offset_minutes"
    let timezone ← requiredString value "timezone"
    let tzdb ← requiredString value "tzdb_identity"
    let gap ← parseGapPolicy (← requiredString value "gap_policy")
    let fold ← parseFoldPolicy (← requiredString value "fold_policy")
    return .resolvedLocal
      ⟨⟨⟨year, month, day⟩, ⟨hour, minute, second⟩⟩, ⟨moment⟩, offset, timezone, tzdb, gap, fold⟩
  else .error (.corrupt s!"unknown business-date kind {repr kind}")

def decodeBusinessDate (value : Value) : Except StoreError (Option BusinessDate) :=
  match value with
  | .null => .ok none
  | value => do
    let date ← decodeBusinessDateKind value
    date.validate.mapError fun error => StoreError.corrupt s!"invalid business date: {error.display}"
    return some date

def decodeAccountable (value : Value) : Except StoreError ExternalWaitAccountable := do
  let kind ← requiredString value "kind"
  if kind = "person" then
    let reference ← requiredString value "reference"
    let displayName ← requiredString value "display_name"
    return .person reference displayName
  else if kind = "service" then
    let reference ← requiredString value "reference"
    let displayName ← requiredString value "display_name"
    return .service reference displayName
  else if kind = "role" then
    let name ← requiredString value "role"
    let role ← parseActorRole name
    return .role role
  else .error (.corrupt s!"unknown accountable kind {repr kind}")

def decodeResolution (value : Value) : Except StoreError ExternalWaitResolution := do
  let outcome ← parseExternalWaitOutcome (← requiredString value "outcome")
  let detail ← requiredString value "detail"
  let outputRef ← optionalString value "output_ref"
  let suppliedBy ← decodeAccountable (← required value "supplied_by")
  let recordedBy ← requiredString value "recorded_by"
  let recordedAs ← parseActorRole (← requiredString value "recorded_as")
  let recordedAt ← requiredU64 value "recorded_at_ms"
  return ⟨outcome, detail, outputRef, suppliedBy, recordedBy, recordedAs, ⟨recordedAt⟩⟩

def decodeWorkId : Value → Except StoreError WorkId
  | .string text => .ok ⟨text⟩
  | _ => .error (.corrupt "external-wait scope ID is not text")

def decodeScope : Value → Except StoreError (List WorkId)
  | .array items => items.mapM decodeWorkId
  | _ => .error (.corrupt "external-wait scope is not an array")

def decodeOptionalResolution : Value → Except StoreError (Option ExternalWaitResolution)
  | .null => .ok none
  | value => some <$> decodeResolution value

def decodeExternalWait (projectId : ProjectId) (waitId : ExternalWaitId) (revision : ℕ)
    (payload : Value) : Except StoreError ExternalWait := do
  let version ← requiredU64 payload "version"
  let stored ← requiredU64 payload "revision"
  refuse (version ≠ 1 ∨ stored ≠ revision)
    (.corrupt "unsupported or mismatched external-wait payload revision")
  let affected ← decodeScope (← required payload "affected_work_ids")
  let state ← parseExternalWaitState (← requiredString payload "state")
  let resolution ← decodeOptionalResolution (← required payload "resolution")
  let source ← requiredString payload "source_work_id"
  let category ← parseExternalWaitCategory (← requiredString payload "category")
  let reason ← requiredString payload "reason"
  let accountable ← decodeAccountable (← required payload "accountable")
  let expectedDecision ← optionalString payload "expected_decision"
  let expectedOutput ← optionalString payload "expected_output"
  let followUp ← decodeBusinessDate (← required payload "follow_up")
  let civilTimeSettingRevision ← optionalU64 payload "civil_time_setting_revision"
  let createdBy ← requiredString payload "created_by"
  let createdAt ← requiredU64 payload "created_at_ms"
  return {
    id := waitId
    projectId := projectId
    sourceWorkId := ⟨source⟩
    affectedWorkIds := affected
    category := category
    reason := reason
    accountable := accountable
    expectedDecision := expectedDecision
    expectedOutput := expectedOutput
    followUp := followUp
    civilTimeSettingRevision := civilTimeSettingRevision
    revision := revision
    state := state
    createdBy := createdBy
    createdAt := ⟨createdAt⟩
    resolution := resolution }

theorem parseExternalWaitCategory_name (category : ExternalWaitCategory) :
    parseExternalWaitCategory (externalWaitCategoryName category) = .ok category := by
  cases category <;> rfl

theorem parseExternalWaitState_name (state : ExternalWaitState) :
    parseExternalWaitState (externalWaitStateName state) = .ok state := by
  cases state <;> rfl

theorem parseExternalWaitOutcome_name (outcome : ExternalWaitOutcome) :
    parseExternalWaitOutcome (externalWaitOutcomeName outcome) = .ok outcome := by
  cases outcome <;> rfl

theorem parseActorRole_name (role : ActorRole) : parseActorRole (actorRoleName role) = .ok role := by
  cases role <;> rfl

theorem parseGapPolicy_debug (policy : GapPolicy) :
    parseGapPolicy (toAsciiLowercase (gapPolicyDebug policy)) = .ok policy := by
  cases policy
  rfl

theorem parseFoldPolicy_debug (policy : FoldPolicy) :
    parseFoldPolicy (toAsciiLowercase (foldPolicyDebug policy)) = .ok policy := by
  cases policy <;> rfl

theorem decodeAccountable_encode (accountable : ExternalWaitAccountable) :
    decodeAccountable (encodeAccountable accountable) = .ok accountable := by
  cases accountable with
  | person reference displayName => rfl
  | service reference displayName => rfl
  | role role => cases role <;> rfl

variable {members : List (String × Value)}

theorem integer_field {key : String} (n : ℤ) (found : (Value.object members).get? key = some (integer n)) :
    requiredInteger (.object members) key = .ok n := by
  rw [requiredInteger, required, found, ok_bind]
  cases n <;> rfl

theorem decodeBusinessDateKind_encode (date : BusinessDate) :
    decodeBusinessDateKind (encodeBusinessDate date) = .ok date := by
  cases date with
  | instant moment => rfl
  | localDate date =>
    have kind : requiredString (encodeBusinessDate (.localDate date)) "kind" =
      .ok "local_date" := rfl
    have year : requiredInteger (encodeBusinessDate (.localDate date)) "year" = .ok date.year :=
      integer_field date.year rfl
    rw [decodeBusinessDateKind, kind, ok_bind, if_neg (by decide), if_pos rfl, year, ok_bind]
    rfl
  | resolvedLocal value =>
    have kind : requiredString (encodeBusinessDate (.resolvedLocal value)) "kind" =
      .ok "resolved_local" := rfl
    have offset : requiredInteger (encodeBusinessDate (.resolvedLocal value))
      "utc_offset_minutes" = .ok value.utcOffsetMinutes := integer_field _ rfl
    have year := @integer_field [("year", integer value.nominalLocal.date.year),
      ("month", natural value.nominalLocal.date.month),
      ("day", natural value.nominalLocal.date.day),
      ("hour", natural value.nominalLocal.time.hour),
      ("minute", natural value.nominalLocal.time.minute),
      ("second", natural value.nominalLocal.time.second)] "year" _ rfl
    have nominal : required (encodeBusinessDate (.resolvedLocal value)) "nominal_local" =
      .ok _ := rfl
    have gap : requiredString (encodeBusinessDate (.resolvedLocal value)) "gap_policy" =
      .ok (toAsciiLowercase (gapPolicyDebug value.gapPolicy)) := rfl
    have fold : requiredString (encodeBusinessDate (.resolvedLocal value)) "fold_policy" =
      .ok (toAsciiLowercase (foldPolicyDebug value.foldPolicy)) := rfl
    rw [decodeBusinessDateKind, kind, ok_bind, if_neg (by decide), if_neg (by decide),
      if_pos rfl, nominal, ok_bind, year, ok_bind, offset]
    simp only [gap, fold, ok_bind, parseGapPolicy_debug, parseFoldPolicy_debug]
    rfl

theorem decodeBusinessDate_encode {date : Option BusinessDate}
    (valid : date.forM BusinessDate.validate = .ok ()) :
    decodeBusinessDate (orNull encodeBusinessDate date) = .ok date := by
  cases date with
  | none => rfl
  | some date =>
    have decoded : decodeBusinessDate (encodeBusinessDate date) = (do
        let date ← decodeBusinessDateKind (encodeBusinessDate date)
        date.validate.mapError fun error =>
          StoreError.corrupt s!"invalid business date: {error.display}"
        return some date) := by
      cases date <;> rfl
    have checked : date.validate = .ok () := valid
    rw [orNull, decoded, decodeBusinessDateKind_encode, ok_bind, checked]
    rfl

theorem optionalString_field {key : String} (text : Option String)
    (found : (Value.object members).get? key = some (orNull .string text)) :
    optionalString (.object members) key = .ok text := by
  rw [optionalString, required, found, ok_bind]
  cases text <;> rfl

theorem optionalU64_field {key : String} (n : Option ℕ)
    (found : (Value.object members).get? key = some (orNull natural n)) :
    optionalU64 (.object members) key = .ok n := by
  rw [optionalU64, required, found, ok_bind]
  cases n <;> rfl

theorem decodeResolution_encode (resolution : ExternalWaitResolution) :
    decodeResolution (encodeResolution resolution) = .ok resolution := by
  have outcome : requiredString (encodeResolution resolution) "outcome" = .ok _ := rfl
  have detail : requiredString (encodeResolution resolution) "detail" = .ok _ := rfl
  have output : optionalString (encodeResolution resolution) "output_ref" = .ok _ :=
    optionalString_field resolution.outputRef rfl
  have supplied : required (encodeResolution resolution) "supplied_by" = .ok _ := rfl
  have role : requiredString (encodeResolution resolution) "recorded_as" = .ok _ := rfl
  rw [decodeResolution, outcome, ok_bind, parseExternalWaitOutcome_name, ok_bind, detail, ok_bind,
    output, ok_bind, supplied, ok_bind, decodeAccountable_encode, ok_bind]
  simp only [role, ok_bind, parseActorRole_name]
  rfl

theorem decodeOptionalResolution_encode (resolution : Option ExternalWaitResolution) :
    decodeOptionalResolution (orNull encodeResolution resolution) = .ok resolution := by
  cases resolution with
  | none => rfl
  | some resolution =>
    have decoded : decodeOptionalResolution (orNull encodeResolution (some resolution)) =
      some <$> decodeResolution (encodeResolution resolution) := rfl
    rw [decoded, decodeResolution_encode]
    rfl

theorem decodeScope_encode (affected : List WorkId) :
    decodeScope (.array (affected.map fun workId => .string workId.value)) = .ok affected := by
  rw [decodeScope]
  induction affected with
  | nil => rfl
  | cons workId rest ih =>
    rw [List.map_cons, List.mapM_cons, ih]
    rfl

theorem decodeExternalWait_encode {wait : ExternalWait}
    (valid : wait.followUp.forM BusinessDate.validate = .ok ()) :
    decodeExternalWait wait.projectId wait.id wait.revision (encodeExternalWait wait) =
      .ok wait := by
  have version : requiredU64 (encodeExternalWait wait) "version" = .ok 1 := rfl
  have revision : requiredU64 (encodeExternalWait wait) "revision" = .ok wait.revision := rfl
  have affected : required (encodeExternalWait wait) "affected_work_ids" = .ok _ := rfl
  have state : requiredString (encodeExternalWait wait) "state" = .ok _ := rfl
  have resolution : required (encodeExternalWait wait) "resolution" = .ok _ := rfl
  have source : requiredString (encodeExternalWait wait) "source_work_id" = .ok _ := rfl
  have category : requiredString (encodeExternalWait wait) "category" = .ok _ := rfl
  have reason : requiredString (encodeExternalWait wait) "reason" = .ok _ := rfl
  have accountable : required (encodeExternalWait wait) "accountable" = .ok _ := rfl
  have decision : optionalString (encodeExternalWait wait) "expected_decision" = .ok _ :=
    optionalString_field wait.expectedDecision rfl
  have output : optionalString (encodeExternalWait wait) "expected_output" = .ok _ :=
    optionalString_field wait.expectedOutput rfl
  have followUp : required (encodeExternalWait wait) "follow_up" = .ok _ := rfl
  have setting : optionalU64 (encodeExternalWait wait) "civil_time_setting_revision" = .ok _ :=
    optionalU64_field wait.civilTimeSettingRevision rfl
  have created : requiredString (encodeExternalWait wait) "created_by" = .ok _ := rfl
  have moment : requiredU64 (encodeExternalWait wait) "created_at_ms" = .ok _ := rfl
  unfold decodeExternalWait
  simp only [version, revision, affected, state, resolution, source, category, reason, accountable,
    decision, output, followUp, setting, created, moment, ok_bind, decodeScope_encode,
    parseExternalWaitState_name, decodeOptionalResolution_encode, parseExternalWaitCategory_name,
    decodeAccountable_encode, decodeBusinessDate_encode valid]
  rw [refuse_of_not (by simp), ok_bind]
  rfl

end Boreal.Store
