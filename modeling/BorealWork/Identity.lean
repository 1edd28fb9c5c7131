/- Identifiers, revisions and the identity records that every decision module reads. -/
import BorealWork.Library.Lookup
import BorealWork.Library.Rendering

namespace Boreal
open Rendering

/-- The string newtypes that one macro declares; the parameter is the declared type's name. -/
structure TypedId (typeName : String) where
  value : String

structure TypedRevision (typeName : String) where
  value : ℕ

theorem TypedId.value_injective {name : String} : Function.Injective (@TypedId.value name) := by
  rintro ⟨a⟩ ⟨b⟩ h
  exact congrArg TypedId.mk h

theorem TypedRevision.value_injective {name : String} : Function.Injective (@TypedRevision.value name) := by
  rintro ⟨a⟩ ⟨b⟩ h
  exact congrArg TypedRevision.mk h

/-- Strings compare by code point, which is their byte order. -/
instance {name : String} : LinearOrder (TypedId name) :=
  LinearOrder.lift' TypedId.value TypedId.value_injective

instance {name : String} : LinearOrder (TypedRevision name) :=
  LinearOrder.lift' TypedRevision.value TypedRevision.value_injective

instance {name : String} : LawfulBEq (TypedId name) := inferInstance

abbrev ProjectId := TypedId "ProjectId"
abbrev WorkId := TypedId "WorkId"
abbrev AttemptId := TypedId "AttemptId"
abbrev ActorId := TypedId "ActorId"
abbrev GateId := TypedId "GateId"
abbrev ProfileId := TypedId "ProfileId"
abbrev SourceVersionId := TypedId "SourceVersionId"
abbrev ConfigIdentity := TypedId "ConfigIdentity"
abbrev DependencyId := TypedId "DependencyId"
abbrev RequirementId := TypedId "RequirementId"
abbrev SubmissionId := TypedId "SubmissionId"
abbrev ReviewId := TypedId "ReviewId"
abbrev DecisionId := TypedId "DecisionId"
abbrev ContentDigest := TypedId "ContentDigest"
abbrev VerifierPolicyId := TypedId "VerifierPolicyId"

abbrev EntityRevision := TypedRevision "EntityRevision"
abbrev ProofRevision := TypedRevision "ProofRevision"
abbrev AttemptFence := TypedRevision "AttemptFence"

abbrev TimestampMs := TypedRevision "TimestampMs"

structure EntityIdentity where
  projectId : ProjectId
  workId : WorkId
  revision : EntityRevision

/-- The derived order compares the fields in declaration order. -/
def EntityIdentity.key (i : EntityIdentity) : ProjectId ×ₗ WorkId ×ₗ EntityRevision :=
  toLex (i.projectId, toLex (i.workId, i.revision))

theorem EntityIdentity.key_injective : Function.Injective EntityIdentity.key := by
  rintro ⟨p, w, r⟩ ⟨p', w', r'⟩ h
  simp only [key, EmbeddingLike.apply_eq_iff_eq, Prod.mk.injEq] at h
  obtain ⟨rfl, rfl, rfl⟩ := h
  rfl

instance : LinearOrder EntityIdentity :=
  LinearOrder.lift' EntityIdentity.key EntityIdentity.key_injective

inductive PersistedLifecycle
  | draft
  | open
  | closed
  | cancelled
  deriving DecidableEq

def PersistedLifecycle.isTerminal : PersistedLifecycle → Bool
  | .closed | .cancelled => true
  | .draft | .open => false

inductive ActorRole
  | agent
  | reviewer
  | operator
  | publisher
  deriving DecidableEq

inductive DependencyPolicy
  | closedOnly
  deriving DecidableEq

/-- Characters with the Unicode `White_Space` property, which trimming removes. -/
def isWhiteSpace (c : Char) : Bool :=
  let n := c.toNat
  (9 ≤ n && n ≤ 13) || n = 0x20 || n = 0x85 || n = 0xA0 || n = 0x1680 ||
    (0x2000 ≤ n && n ≤ 0x200A) || n = 0x2028 || n = 0x2029 || n = 0x202F || n = 0x205F ||
    n = 0x3000

/-- `text.trim().is_empty()`. -/
def isBlank (text : String) : Bool := text.toList.all isWhiteSpace

section Debug

variable (unprintable : Char → Bool)

def TypedId.debug {name : String} (i : TypedId name) : List Char :=
  debugTuple name (debugString unprintable i.value)

def TypedRevision.debug {name : String} (r : TypedRevision name) : List Char :=
  debugNumber name r.value

def EntityIdentity.debug (i : EntityIdentity) : List Char :=
  debugStruct "EntityIdentity" [("project_id", i.projectId.debug unprintable),
    ("work_id", i.workId.debug unprintable), ("revision", i.revision.debug)]

theorem TypedId.debug_prefixFree {name : String} : PrefixFree (@TypedId.debug unprintable name) :=
  debugTuple_prefixFree name ((debugString_prefixFree unprintable).comp TypedId.value_injective)

theorem TypedRevision.debug_prefixFree {name : String} : PrefixFree (@TypedRevision.debug name) :=
  (debugNumber_prefixFree name).comp TypedRevision.value_injective

theorem EntityIdentity.debug_prefixFree : PrefixFree (EntityIdentity.debug unprintable) := by
  rintro ⟨p, w, r⟩ ⟨p', w', r'⟩ s t h
  simp only [debug, debugStruct, debugFields, List.append_assoc, List.append_cancel_left_eq] at h
  obtain ⟨rfl, h₁⟩ := TypedId.debug_prefixFree unprintable h
  simp only [List.append_cancel_left_eq] at h₁
  obtain ⟨rfl, h₂⟩ := TypedId.debug_prefixFree unprintable h₁
  simp only [List.append_cancel_left_eq] at h₂
  obtain ⟨rfl, h₃⟩ := TypedRevision.debug_prefixFree h₂
  exact ⟨rfl, List.append_cancel_left h₃⟩

end Debug

end Boreal
