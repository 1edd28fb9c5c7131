/- What is observed about an edge's prerequisite, and the order observations are read in.
The order compares debug text, so the text has to determine the outcome. -/
import BorealWork.DependencyValidation

namespace Boreal.Dependencies
open Rendering Sorting

/-- Active for `validFrom ≤ revision < revokedAt`. -/
structure EdgeWaiver where
  decisionId : DecisionId
  edgeId : DependencyId
  edgeRevision : EntityRevision
  projectId : ProjectId
  successor : WorkId
  validFrom : EntityRevision
  revokedAt : Option EntityRevision

/-- The derived order; an absent revocation comes first. -/
def EdgeWaiver.key (w : EdgeWaiver) : DecisionId ×ₗ DependencyId ×ₗ EntityRevision ×ₗ ProjectId ×ₗ
    WorkId ×ₗ EntityRevision ×ₗ WithBot EntityRevision :=
  toLex (w.decisionId, toLex (w.edgeId, toLex (w.edgeRevision, toLex (w.projectId,
    toLex (w.successor, toLex (w.validFrom, (w.revokedAt : WithBot EntityRevision)))))))

theorem EdgeWaiver.key_injective : Function.Injective EdgeWaiver.key := by
  rintro ⟨d, e, r, p, s, v, x⟩ ⟨d', e', r', p', s', v', x'⟩ same
  simp only [key, EmbeddingLike.apply_eq_iff_eq, Prod.mk.injEq] at same
  obtain ⟨rfl, rfl, rfl, rfl, rfl, rfl, rfl⟩ := same
  rfl

instance : LinearOrder EdgeWaiver := LinearOrder.lift' EdgeWaiver.key EdgeWaiver.key_injective

namespace EdgeWaiver

def scopeMatches (waiver : EdgeWaiver) (edge : DependencyEdge) : Bool :=
  waiver.edgeId = edge.id && waiver.edgeRevision = edge.revision &&
    waiver.projectId = edge.projectId && waiver.successor = edge.successor

def appliesTo (waiver : EdgeWaiver) (edge : DependencyEdge) (atRevision : EntityRevision) : Bool :=
  waiver.edgeId = edge.id && waiver.edgeRevision = edge.revision &&
    waiver.projectId = edge.projectId && waiver.successor = edge.successor &&
    waiver.validFrom ≤ atRevision && waiver.revokedAt.all (atRevision < ·)

end EdgeWaiver

inductive UnreadableReason
  | corrupt
  | unsupportedVersion
  | missingReference
  | permissionDenied
  deriving DecidableEq

structure RawPrerequisiteContext where
  edgeId : DependencyId
  edgeRevision : EntityRevision
  predecessor : EntityIdentity
  payload : String
  deriving DecidableEq

structure UnreadablePrerequisite where
  reason : UnreadableReason
  raw : RawPrerequisiteContext
  deriving DecidableEq

structure CorruptPrerequisite where
  detail : String
  raw : RawPrerequisiteContext
  deriving DecidableEq

structure StalePrerequisite where
  expected : EntityRevision
  observed : EntityRevision
  raw : RawPrerequisiteContext
  deriving DecidableEq

inductive ClosedOutcome
  | unaccepted (identity : Option EntityIdentity)
  | accepted (identity : EntityIdentity) (proofGeneration : ProofRevision)
  | revoked (identity : EntityIdentity) (proofGeneration : ProofRevision)
  deriving DecidableEq

inductive UpstreamOutcome
  | open
  | complete
  | verified
  | cancelled
  | failed
  | closed (outcome : ClosedOutcome)
  | unreadable (prerequisite : UnreadablePrerequisite)
  | corrupt (prerequisite : CorruptPrerequisite)
  | stale (prerequisite : StalePrerequisite)
  deriving DecidableEq

structure DependencyObservation where
  edgeId : DependencyId
  edgeRevision : EntityRevision
  predecessor : EntityIdentity
  outcome : UpstreamOutcome
  waiver : Option EdgeWaiver
  deriving DecidableEq

section Debug

variable (unprintable : Char → Bool)

def UnreadableReason.debug : UnreadableReason → List Char
  | .corrupt => "Corrupt".toList
  | .unsupportedVersion => "UnsupportedVersion".toList
  | .missingReference => "MissingReference".toList
  | .permissionDenied => "PermissionDenied".toList

def RawPrerequisiteContext.debug (raw : RawPrerequisiteContext) : List Char :=
  debugStruct "RawPrerequisiteContext" [("edge_id", raw.edgeId.debug unprintable),
    ("edge_revision", raw.edgeRevision.debug), ("predecessor", raw.predecessor.debug unprintable),
    ("payload", debugString unprintable raw.payload)]

def UnreadablePrerequisite.debug (p : UnreadablePrerequisite) : List Char :=
  debugStruct "UnreadablePrerequisite" [("reason", p.reason.debug), ("raw", p.raw.debug unprintable)]

def CorruptPrerequisite.debug (p : CorruptPrerequisite) : List Char :=
  debugStruct "CorruptPrerequisite" [("detail", debugString unprintable p.detail),
    ("raw", p.raw.debug unprintable)]

def StalePrerequisite.debug (p : StalePrerequisite) : List Char :=
  debugStruct "StalePrerequisite" [("expected", p.expected.debug), ("observed", p.observed.debug),
    ("raw", p.raw.debug unprintable)]

def ClosedOutcome.debug : ClosedOutcome → List Char
  | .unaccepted identity => debugStruct "Unaccepted"
      [("identity", debugOption (EntityIdentity.debug unprintable) identity)]
  | .accepted identity proofGeneration => debugStruct "Accepted"
      [("identity", identity.debug unprintable), ("proof_generation", proofGeneration.debug)]
  | .revoked identity proofGeneration => debugStruct "Revoked"
      [("identity", identity.debug unprintable), ("proof_generation", proofGeneration.debug)]

def UpstreamOutcome.debug : UpstreamOutcome → List Char
  | .open => "Open".toList
  | .complete => "Complete".toList
  | .verified => "Verified".toList
  | .cancelled => "Cancelled".toList
  | .failed => "Failed".toList
  | .closed outcome => debugTuple "Closed" (outcome.debug unprintable)
  | .unreadable p => debugTuple "Unreadable" (p.debug unprintable)
  | .corrupt p => debugTuple "Corrupt" (p.debug unprintable)
  | .stale p => debugTuple "Stale" (p.debug unprintable)

theorem UnreadableReason.debug_prefixFree : PrefixFree UnreadableReason.debug := by
  intro a b s t h
  cases a <;> cases b <;>
    first
    | exact absurd (List.cons.inj h).1 (by decide)
    | exact ⟨rfl, List.append_cancel_left h⟩

theorem RawPrerequisiteContext.debug_prefixFree :
    PrefixFree (RawPrerequisiteContext.debug unprintable) := by
  rintro ⟨e, r, p, x⟩ ⟨e', r', p', x'⟩ s t h
  simp only [debug, debugStruct, debugFields, List.append_assoc, List.append_cancel_left_eq] at h
  obtain ⟨rfl, h₁⟩ := TypedId.debug_prefixFree unprintable h
  simp only [List.append_cancel_left_eq] at h₁
  obtain ⟨rfl, h₂⟩ := TypedRevision.debug_prefixFree h₁
  simp only [List.append_cancel_left_eq] at h₂
  obtain ⟨rfl, h₃⟩ := EntityIdentity.debug_prefixFree unprintable h₂
  simp only [List.append_cancel_left_eq] at h₃
  obtain ⟨rfl, h₄⟩ := debugString_prefixFree unprintable h₃
  exact ⟨rfl, List.append_cancel_left h₄⟩

theorem UnreadablePrerequisite.debug_prefixFree :
    PrefixFree (UnreadablePrerequisite.debug unprintable) := by
  rintro ⟨r, x⟩ ⟨r', x'⟩ s t h
  simp only [debug, debugStruct, debugFields, List.append_assoc, List.append_cancel_left_eq] at h
  obtain ⟨rfl, h₁⟩ := UnreadableReason.debug_prefixFree h
  simp only [List.append_cancel_left_eq] at h₁
  obtain ⟨rfl, h₂⟩ := RawPrerequisiteContext.debug_prefixFree unprintable h₁
  exact ⟨rfl, List.append_cancel_left h₂⟩

theorem CorruptPrerequisite.debug_prefixFree : PrefixFree (CorruptPrerequisite.debug unprintable) := by
  rintro ⟨d, x⟩ ⟨d', x'⟩ s t h
  simp only [debug, debugStruct, debugFields, List.append_assoc, List.append_cancel_left_eq] at h
  obtain ⟨rfl, h₁⟩ := debugString_prefixFree unprintable h
  simp only [List.append_cancel_left_eq] at h₁
  obtain ⟨rfl, h₂⟩ := RawPrerequisiteContext.debug_prefixFree unprintable h₁
  exact ⟨rfl, List.append_cancel_left h₂⟩

theorem StalePrerequisite.debug_prefixFree : PrefixFree (StalePrerequisite.debug unprintable) := by
  rintro ⟨e, o, x⟩ ⟨e', o', x'⟩ s t h
  simp only [debug, debugStruct, debugFields, List.append_assoc, List.append_cancel_left_eq] at h
  obtain ⟨rfl, h₁⟩ := TypedRevision.debug_prefixFree h
  simp only [List.append_cancel_left_eq] at h₁
  obtain ⟨rfl, h₂⟩ := TypedRevision.debug_prefixFree h₁
  simp only [List.append_cancel_left_eq] at h₂
  obtain ⟨rfl, h₃⟩ := RawPrerequisiteContext.debug_prefixFree unprintable h₂
  exact ⟨rfl, List.append_cancel_left h₃⟩

theorem debugClosed_prefixFree (name : String) : PrefixFree fun x : EntityIdentity × ProofRevision =>
    debugStruct name [("identity", x.1.debug unprintable), ("proof_generation", x.2.debug)] := by
  rintro ⟨i, g⟩ ⟨i', g'⟩ s t h
  simp only [debugStruct, debugFields, List.append_assoc, List.append_cancel_left_eq] at h
  obtain ⟨rfl, h₁⟩ := EntityIdentity.debug_prefixFree unprintable h
  simp only [List.append_cancel_left_eq] at h₁
  obtain ⟨rfl, h₂⟩ := TypedRevision.debug_prefixFree h₁
  exact ⟨rfl, List.append_cancel_left h₂⟩

theorem ClosedOutcome.debug_prefixFree : PrefixFree (ClosedOutcome.debug unprintable) := by
  intro a b s t h
  cases a with
  | unaccepted i =>
    cases b with
    | unaccepted i' =>
      simp only [debug, debugStruct, debugFields, List.append_assoc, List.append_cancel_left_eq] at h
      obtain ⟨rfl, rest⟩ := debugOption_prefixFree (EntityIdentity.debug_prefixFree unprintable) h
      exact ⟨rfl, List.append_cancel_left rest⟩
    | accepted i' g' => exact absurd (List.cons.inj h).1 (by decide)
    | revoked i' g' => exact absurd (List.cons.inj h).1 (by decide)
  | accepted i g =>
    cases b with
    | unaccepted i' => exact absurd (List.cons.inj h).1 (by decide)
    | accepted i' g' =>
      obtain ⟨same, rest⟩ := debugClosed_prefixFree unprintable "Accepted" (a := (i, g))
        (b := (i', g')) h
      obtain ⟨rfl, rfl⟩ := Prod.mk.inj same
      exact ⟨rfl, rest⟩
    | revoked i' g' => exact absurd (List.cons.inj h).1 (by decide)
  | revoked i g =>
    cases b with
    | unaccepted i' => exact absurd (List.cons.inj h).1 (by decide)
    | accepted i' g' => exact absurd (List.cons.inj h).1 (by decide)
    | revoked i' g' =>
      obtain ⟨same, rest⟩ := debugClosed_prefixFree unprintable "Revoked" (a := (i, g))
        (b := (i', g')) h
      obtain ⟨rfl, rfl⟩ := Prod.mk.inj same
      exact ⟨rfl, rest⟩

/-- Three characters tell the nine outcomes apart. -/
def UpstreamOutcome.initials : UpstreamOutcome → List Char
  | .open => ['O', 'p', 'e']
  | .complete => ['C', 'o', 'm']
  | .verified => ['V', 'e', 'r']
  | .cancelled => ['C', 'a', 'n']
  | .failed => ['F', 'a', 'i']
  | .closed _ => ['C', 'l', 'o']
  | .unreadable _ => ['U', 'n', 'r']
  | .corrupt _ => ['C', 'o', 'r']
  | .stale _ => ['S', 't', 'a']

theorem UpstreamOutcome.take_debug (o : UpstreamOutcome) : (o.debug unprintable).take 3 = o.initials := by
  cases o <;> rfl

theorem UpstreamOutcome.debug_injective : Function.Injective (UpstreamOutcome.debug unprintable) := by
  intro a b h
  have same : a.initials = b.initials := by
    rw [← take_debug unprintable a, ← take_debug unprintable b, h]
  cases a <;> cases b <;> first
    | rfl
    | (exfalso; revert same; simp [initials]; done)
    | skip
  case closed.closed c d =>
    exact congrArg closed ((debugTuple_prefixFree "Closed"
      (ClosedOutcome.debug_prefixFree unprintable)).injective h)
  case unreadable.unreadable p q =>
    exact congrArg unreadable ((debugTuple_prefixFree "Unreadable"
      (UnreadablePrerequisite.debug_prefixFree unprintable)).injective h)
  case corrupt.corrupt p q =>
    exact congrArg corrupt ((debugTuple_prefixFree "Corrupt"
      (CorruptPrerequisite.debug_prefixFree unprintable)).injective h)
  case stale.stale p q =>
    exact congrArg stale ((debugTuple_prefixFree "Stale"
      (StalePrerequisite.debug_prefixFree unprintable)).injective h)

/-- `observation_order`: edge, edge revision, predecessor, outcome text, waiver. -/
def DependencyObservation.key (o : DependencyObservation) : DependencyId ×ₗ EntityRevision ×ₗ
    EntityIdentity ×ₗ List Char ×ₗ WithBot EdgeWaiver :=
  toLex (o.edgeId, toLex (o.edgeRevision, toLex (o.predecessor,
    toLex (o.outcome.debug unprintable, (o.waiver : WithBot EdgeWaiver)))))

theorem DependencyObservation.key_injective :
    Function.Injective (DependencyObservation.key unprintable) := by
  rintro ⟨e, r, p, o, w⟩ ⟨e', r', p', o', w'⟩ same
  simp only [key, EmbeddingLike.apply_eq_iff_eq, Prod.mk.injEq] at same
  obtain ⟨rfl, rfl, rfl, pair⟩ := same
  obtain ⟨text, rfl⟩ := Prod.mk.inj pair
  rw [UpstreamOutcome.debug_injective unprintable text]

end Debug

end Boreal.Dependencies
