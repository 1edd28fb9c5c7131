/- Interpretation of pinned requirements: each declaration is assessed against the evidence, the
reviews and the operator exceptions supplied for one subject. -/
import BorealWork.Identity
import BorealWork.Library.Sorting

namespace Boreal

structure AttemptIdentity where
  attemptId : AttemptId
  fence : AttemptFence
  deriving DecidableEq

structure ProfileIdentity where
  profileId : ProfileId
  version : String
  digest : ContentDigest
  deriving DecidableEq

structure ProofIdentity where
  entity : EntityIdentity
  proofRevision : ProofRevision
  attempt : Option AttemptIdentity
  sourceSnapshot : Option SourceVersionId
  configuration : Option ConfigIdentity
  profile : ProfileIdentity
  policyVersion : String
  deriving DecidableEq

inductive GateKind
  | checkpoint
  | verification
  | review
  | operatorApproval
  | summary
  | audit
  deriving DecidableEq

inductive ReviewRequirementPolicy
  | notRequired
  | independent
  | operatorAllowed
  deriving DecidableEq

namespace Acceptance
open Sorting

abbrev EvidenceId := TypedId "EvidenceId"
abbrev CloseoutId := TypedId "CloseoutId"
abbrev ExceptionId := TypedId "ExceptionId"

inductive ProofContext
  | taskAttempt (attempt : AttemptIdentity)
  | containerCloseout (closeoutId : CloseoutId) (scopeRevision : EntityRevision)
  deriving DecidableEq

def ProofContext.isTask : ProofContext → Bool
  | .taskAttempt _ => true
  | .containerCloseout _ _ => false

structure AcceptanceSubject where
  proof : ProofIdentity
  context : ProofContext
  deriving DecidableEq

namespace AcceptanceSubject

def projectId (subject : AcceptanceSubject) : ProjectId := subject.proof.entity.projectId
def workId (subject : AcceptanceSubject) : WorkId := subject.proof.entity.workId
def isTask (subject : AcceptanceSubject) : Bool := subject.context.isTask
def isContainer (subject : AcceptanceSubject) : Bool := !subject.context.isTask

def sameWorkAndAttempt (subject other : AcceptanceSubject) : Bool :=
  subject.projectId = other.projectId && subject.workId = other.workId &&
    match subject.context, other.context with
    | .taskAttempt _, .taskAttempt _ => true
    | .containerCloseout _ _, .containerCloseout _ _ => true
    | _, _ => false

end AcceptanceSubject

structure RequirementReference where
  id : RequirementId
  gateId : GateId
  kind : GateKind
  profile : ProfileIdentity
  declarationDigest : ContentDigest
  deriving DecidableEq

inductive RequirementPurpose
  | taskProof
  | containerScope
  | closeoutSummary
  deriving DecidableEq

structure RequirementDeclarationBody where
  reference : RequirementReference
  subject : AcceptanceSubject
  purpose : RequirementPurpose
  required : Bool
  requiredObservables : Finset String
  reviewPolicy : ReviewRequirementPolicy
  deriving DecidableEq

inductive RequirementDeclaration
  | present (body : RequirementDeclarationBody)
  | deleted (expected : RequirementReference)
  | mismatched (expected observed : RequirementReference)
  deriving DecidableEq

def RequirementDeclaration.reference : RequirementDeclaration → RequirementReference
  | .present body => body.reference
  | .deleted expected => expected
  | .mismatched expected _ => expected

inductive EvidenceFailureReason
  | nonZeroExit
  | verifierRejected
  | unknownOutcome
  deriving DecidableEq

inductive EvidenceDisposition
  | current
  | superseded
  | revoked
  | late
  deriving DecidableEq

inductive EvidenceResult
  | passed
  | failed (reason : EvidenceFailureReason)
  | stale
  | altered
  deriving DecidableEq

structure EvidenceObservation where
  id : EvidenceId
  requirement : RequirementReference
  subject : AcceptanceSubject
  observedAt : TimestampMs
  result : EvidenceResult
  disposition : EvidenceDisposition
  observables : Finset String
  artifactDigest : Option ContentDigest
  attested : Bool
  deriving DecidableEq

def EvidenceObservation.key (e : EvidenceObservation) : TimestampMs ×ₗ EvidenceId :=
  toLex (e.observedAt, e.id)

inductive ReviewOutcome
  | pending
  | approved
  | rejected
  | returned
  | revoked
  deriving DecidableEq

structure ReviewDecision where
  id : ReviewId
  requirement : RequirementReference
  subject : AcceptanceSubject
  submissionId : SubmissionId
  reviewerId : ActorId
  reviewerRole : ActorRole
  attemptActorId : ActorId
  outcome : ReviewOutcome
  decidedAt : TimestampMs
  deriving DecidableEq

def ReviewDecision.key (r : ReviewDecision) : TimestampMs ×ₗ ReviewId := toLex (r.decidedAt, r.id)

structure ForceException where
  id : ExceptionId
  requirement : RequirementReference
  subject : AcceptanceSubject
  actorRole : ActorRole
  comment : String
  expiresAt : Option TimestampMs
  revoked : Bool
  deriving DecidableEq

inductive DeclarationProblem
  | missing
  | deleted
  | mismatched
  | duplicate
  | wrongSubject
  deriving DecidableEq

inductive StaleProofReason
  | superseded
  | late
  | subjectRevision
  | proofRevision
  | attemptFence
  deriving DecidableEq

inductive IrrelevantProofReason
  | foreignWork
  | wrongGate
  | wrongProfile
  | wrongContext
  deriving DecidableEq

inductive ReviewState
  | missing
  | pending (id : ReviewId)
  | approved (id : ReviewId)
  | rejected (id : ReviewId)
  | returned (id : ReviewId)
  | revoked (id : ReviewId)
  | selfReviewRejected (id : ReviewId)
  | unauthorized (id : ReviewId)
  | irrelevant (id : ReviewId)
  deriving DecidableEq

inductive RawRequirementState
  | missing
  | passed (id : EvidenceId)
  | failed (id : EvidenceId) (reason : EvidenceFailureReason)
  | stale (id : EvidenceId) (reason : StaleProofReason)
  | altered (id : EvidenceId)
  | irrelevant (id : EvidenceId) (reason : IrrelevantProofReason)
  | declaration (problem : DeclarationProblem)
  | review (state : ReviewState)
  deriving DecidableEq

def RawRequirementState.isUnsatisfied : RawRequirementState → Bool
  | .passed _ | .review (.approved _) => false
  | _ => true

inductive EffectiveRequirementState
  | satisfied
  | satisfiedByException (id : ExceptionId)
  | unsatisfied
  | notRequired
  deriving DecidableEq

def EffectiveRequirementState.isSatisfied : EffectiveRequirementState → Bool
  | .satisfied | .satisfiedByException _ => true
  | .unsatisfied | .notRequired => false

structure RequirementAssessment where
  reference : RequirementReference
  purpose : RequirementPurpose
  required : Bool
  raw : RawRequirementState
  effective : EffectiveRequirementState
  exceptionId : Option ExceptionId
  deriving DecidableEq

inductive ExceptionInvalidReason
  | wrongRole
  | emptyComment
  | expired
  | revoked
  | wrongRequirement
  | wrongSubject
  deriving DecidableEq

inductive AcceptanceDiagnostic
  | emptyRequirementSet
  | declaration (requirement : RequirementReference) (problem : DeclarationProblem)
  | declarationMismatch (requirement observed : RequirementReference)
  | wrongRequirementSubject (id : RequirementId)
  | duplicateRequirement (id : RequirementId)
  | duplicateEvidence (id : EvidenceId)
  | duplicateReview (id : ReviewId)
  | irrelevantEvidence (id : EvidenceId) (reason : IrrelevantProofReason)
  | staleEvidence (id : EvidenceId) (reason : StaleProofReason)
  | alteredEvidence (id : EvidenceId)
  | selfReviewRejected (id : ReviewId)
  | reviewUnauthorized (id : ReviewId)
  | reviewRejected (id : ReviewId)
  | reviewReturned (id : ReviewId)
  | reviewRevoked (id : ReviewId)
  | invalidException (id : ExceptionId) (reason : ExceptionInvalidReason)
  | invalidCloseoutRequirement (id : RequirementId)
  deriving DecidableEq

def AcceptanceDiagnostic.isBlocking : AcceptanceDiagnostic → Bool
  | .emptyRequirementSet | .declaration _ _ | .declarationMismatch _ _
  | .wrongRequirementSubject _ | .duplicateRequirement _ | .duplicateEvidence _
  | .duplicateReview _ | .invalidCloseoutRequirement _ => true
  | _ => false

inductive ContainerAttemptPolicy
  | forbidden
  deriving DecidableEq

inductive CloseoutAssessment
  | task (proofRequirements summaryRequirements : List RequirementId)
      (proofSatisfied summarySatisfied : Bool)
  | container (scopeRequirements summaryRequirements : List RequirementId)
      (scopeSatisfied summarySatisfied : Bool) (attemptPolicy : ContainerAttemptPolicy)
  deriving DecidableEq

def CloseoutAssessment.isReady : CloseoutAssessment → Bool
  | .task _ _ proofSatisfied summarySatisfied => proofSatisfied && summarySatisfied
  | .container _ _ scopeSatisfied summarySatisfied _ => scopeSatisfied && summarySatisfied

structure AcceptanceInput where
  subject : AcceptanceSubject
  currentSubmissionId : SubmissionId
  declarations : List RequirementDeclaration
  evidence : List EvidenceObservation
  reviews : List ReviewDecision
  exceptions : List ForceException
  evaluatedAt : TimestampMs
  deriving DecidableEq

structure AcceptanceInterpretation where
  subject : AcceptanceSubject
  requirements : List RequirementAssessment
  diagnostics : List AcceptanceDiagnostic
  closeout : CloseoutAssessment
  deriving DecidableEq

namespace AcceptanceInterpretation

def hasBlockingDeclarationIssue (i : AcceptanceInterpretation) : Bool :=
  i.diagnostics.any AcceptanceDiagnostic.isBlocking

def requiredSatisfied (i : AcceptanceInterpretation) : Bool :=
  !i.hasBlockingDeclarationIssue &&
    (i.requirements.filter (·.required)).all (·.effective.isSatisfied)

def hasFailures (i : AcceptanceInterpretation) : Bool :=
  i.requirements.any fun r => r.required && r.raw.isUnsatisfied

def assessment (i : AcceptanceInterpretation) (id : RequirementId) : Option RequirementAssessment :=
  i.requirements.find? (·.reference.id = id)

def effectivelySatisfied (i : AcceptanceInterpretation) (id : RequirementId) : Bool :=
  (i.assessment id).any (·.effective.isSatisfied)

def closeoutReady (i : AcceptanceInterpretation) : Bool := i.requiredSatisfied && i.closeout.isReady

end AcceptanceInterpretation

def purposeMatchesSubject (purpose : RequirementPurpose) (subject : AcceptanceSubject) : Bool :=
  match purpose with
  | .taskProof => subject.isTask
  | .containerScope => subject.isContainer
  | .closeoutSummary => true

def purposeForKind (kind : GateKind) (container : Bool) : RequirementPurpose :=
  if kind = .summary then .closeoutSummary
  else if container then .containerScope
  else .taskProof

section Interpreters

variable (body : RequirementDeclarationBody) (input : AcceptanceInput)

def candidateEvidence : List EvidenceObservation :=
  input.evidence.filter (·.requirement.id = body.reference.id)

def mismatchedEvidence : List EvidenceObservation :=
  (candidateEvidence body input).filter (·.requirement ≠ body.reference)

def matchingEvidence : List EvidenceObservation :=
  (candidateEvidence body input).filter (·.requirement = body.reference)

def exactEvidence : List EvidenceObservation :=
  (matchingEvidence body input).filter fun e =>
    e.subject = input.subject && e.disposition = .current

def invalidatedEvidence : List EvidenceObservation :=
  (matchingEvidence body input).filter fun e =>
    e.subject = input.subject && e.disposition ≠ .current

def staleEvidence : List EvidenceObservation :=
  (matchingEvidence body input).filter fun e =>
    e.subject ≠ input.subject && e.subject.sameWorkAndAttempt input.subject

def irrelevantEvidence : List EvidenceObservation :=
  (matchingEvidence body input).filter fun e =>
    e.subject ≠ input.subject && !e.subject.sameWorkAndAttempt input.subject

def irrelevantReason (e : EvidenceObservation) : IrrelevantProofReason :=
  if e.subject.projectId ≠ input.subject.projectId ∨ e.subject.workId ≠ input.subject.workId then
    .foreignWork
  else if e.subject.isTask ≠ input.subject.isTask then .wrongContext
  else if e.requirement.profile ≠ body.reference.profile then .wrongProfile
  else .wrongGate

def unmatchedEvidenceReason (e : EvidenceObservation) : IrrelevantProofReason :=
  if e.subject.projectId ≠ input.subject.projectId ∨ e.subject.workId ≠ input.subject.workId then
    .foreignWork
  else if e.subject.isTask ≠ input.subject.isTask then .wrongContext
  else .wrongGate

def staleReason (e : EvidenceObservation) : StaleProofReason :=
  let revision : StaleProofReason :=
    if e.subject.proof.proofRevision ≠ input.subject.proof.proofRevision then .proofRevision
    else .subjectRevision
  match e.subject.context, input.subject.context with
  | .taskAttempt old, .taskAttempt current =>
    if old.attemptId = current.attemptId ∧ old.fence ≠ current.fence then .attemptFence
    else revision
  | _, _ => revision

def provesRequirement (e : EvidenceObservation) : Bool :=
  body.requiredObservables ⊆ e.observables && e.artifactDigest.isSome &&
    (body.reference.kind ≠ .verification || e.attested)

def invalidatedDiagnostic (e : EvidenceObservation) : List AcceptanceDiagnostic :=
  match e.disposition with
  | .superseded => [.staleEvidence e.id .superseded]
  | .late => [.staleEvidence e.id .late]
  | .revoked => [.alteredEvidence e.id]
  | .current => []

def exactState (e : EvidenceObservation) : RawRequirementState :=
  match e.result with
  | .passed => if provesRequirement body e then .passed e.id else .altered e.id
  | .failed reason => .failed e.id reason
  | .stale => .stale e.id .proofRevision
  | .altered => .altered e.id

def rawDiagnostic : RawRequirementState → List AcceptanceDiagnostic
  | .stale id reason => [.staleEvidence id reason]
  | .altered id => [.alteredEvidence id]
  | .irrelevant id reason => [.irrelevantEvidence id reason]
  | _ => []

def evidenceDiagnostics : List AcceptanceDiagnostic :=
  ((sortOn EvidenceObservation.key (staleEvidence body input)).map fun e =>
      .staleEvidence e.id (staleReason input e)) ++
    (sortOn EvidenceObservation.key (invalidatedEvidence body input)).flatMap
      invalidatedDiagnostic ++
    ((sortOn EvidenceObservation.key (irrelevantEvidence body input)).map fun e =>
      .irrelevantEvidence e.id (irrelevantReason body input e)) ++
    match (mismatchedEvidence body input).getLast? with
      | some e => [.declarationMismatch body.reference e.requirement]
      | none => []

def interpretEvidence : RawRequirementState × List AcceptanceDiagnostic :=
  let diagnostics := evidenceDiagnostics body input
  match (sortOn EvidenceObservation.key (exactEvidence body input)).getLast? with
  | some e =>
    let altered := if e.result = .passed ∧ provesRequirement body e = false then
      [AcceptanceDiagnostic.alteredEvidence e.id] else []
    let raw := exactState body e
    (raw, diagnostics ++ altered ++ rawDiagnostic raw)
  | none => match (sortOn EvidenceObservation.key (staleEvidence body input)).getLast? with
      | some e => (.stale e.id (staleReason input e), diagnostics)
      | none => match (sortOn EvidenceObservation.key (irrelevantEvidence body input)).getLast? with
          | some e => (.irrelevant e.id (irrelevantReason body input e), diagnostics)
          | none =>
            if mismatchedEvidence body input ≠ [] then (.declaration .mismatched, diagnostics)
            else (.missing, diagnostics)

def reviewIsAuthorized (review : ReviewDecision) (policy : ReviewRequirementPolicy) : Bool :=
  match policy with
  | .notRequired => false
  | .independent => review.reviewerRole = .reviewer
  | .operatorAllowed => review.reviewerRole = .operator

def matchingReviews : List ReviewDecision :=
  (input.reviews.filter (·.requirement.id = body.reference.id)).filter
    (·.requirement = body.reference)

def exactReviews : List ReviewDecision :=
  (matchingReviews body input).filter fun r =>
    r.subject = input.subject && r.submissionId = input.currentSubmissionId

def irrelevantReviews : List ReviewDecision :=
  (matchingReviews body input).filter fun r =>
    !(r.subject = input.subject && r.submissionId = input.currentSubmissionId)

def reviewState (review : ReviewDecision) : ReviewState × List AcceptanceDiagnostic :=
  if review.reviewerId = review.attemptActorId then
    (.selfReviewRejected review.id, [.selfReviewRejected review.id])
  else if reviewIsAuthorized review body.reviewPolicy = false then
    (.unauthorized review.id, [.reviewUnauthorized review.id])
  else match review.outcome with
    | .pending => (.pending review.id, [])
    | .approved => (.approved review.id, [])
    | .rejected => (.rejected review.id, [.reviewRejected review.id])
    | .returned => (.returned review.id, [.reviewReturned review.id])
    | .revoked => (.revoked review.id, [.reviewRevoked review.id])

/-- The source pushes a review's diagnostic both directly and through the returned list. -/
def interpretReview : RawRequirementState × List AcceptanceDiagnostic :=
  match (sortOn ReviewDecision.key (exactReviews body input)).getLast? with
  | some review =>
    let (state, diagnostics) := reviewState body review
    (.review state, diagnostics ++ diagnostics)
  | none => match (irrelevantReviews body input).getLast? with
      | some review => (.review (.irrelevant review.id), [])
      | none => (.review .missing, [])

def exceptionIsValid (exception : ForceException) : Bool :=
  exception.actorRole = .operator && !isBlank exception.comment && !exception.revoked &&
    exception.expiresAt.all (input.evaluatedAt < ·) &&
    exception.requirement = ((input.declarations.findSome? fun
      | .present body => if body.reference = exception.requirement then some body.reference else none
      | _ => none).getD exception.requirement) &&
    exception.subject = input.subject

def exceptionAppliesToRaw : RawRequirementState → Bool
  | .failed _ _ | .stale _ _ | .altered _ => true
  | .review (.rejected _) | .review (.returned _) | .review (.revoked _) => true
  | _ => false

def scopedExceptions : List ForceException :=
  input.exceptions.filter fun x => x.requirement = body.reference && x.subject = input.subject

/-- The exception taken into account: the last one with the greatest id. -/
def chosenException : Option ForceException :=
  maxBy ForceException.id (scopedExceptions body input)

def effectiveState (raw : RawRequirementState) : EffectiveRequirementState × Option ExceptionId :=
  if !body.required then (.notRequired, none)
  else match chosenException body input with
    | some exception =>
      if raw.isUnsatisfied && exceptionIsValid input exception && exceptionAppliesToRaw raw then
        (.satisfiedByException exception.id, some exception.id)
      else if raw.isUnsatisfied then (.unsatisfied, none)
      else (.satisfied, none)
    | none => if raw.isUnsatisfied then (.unsatisfied, none) else (.satisfied, none)

def assessmentFor (raw : RawRequirementState) : RequirementAssessment × List AcceptanceDiagnostic :=
  let (effective, exceptionId) := effectiveState body input raw
  (⟨body.reference, body.purpose, body.required, raw, effective, exceptionId⟩,
    if body.reference.kind = .review ∧ body.reviewPolicy = .notRequired then
      [.invalidCloseoutRequirement body.reference.id]
    else [])

def interpretDeclaration : RawRequirementState × List AcceptanceDiagnostic :=
  if body.subject ≠ input.subject ∨ purposeMatchesSubject body.purpose body.subject = false then
    (.declaration .wrongSubject, [])
  else if body.reference.kind = .review then interpretReview body input
  else interpretEvidence body input

end Interpreters

/-- One turn of the loop over the declarations. -/
def assessDeclaration (input : AcceptanceInput) :
    RequirementDeclaration → RequirementAssessment × List AcceptanceDiagnostic
  | .present body =>
    let (raw, diagnostics) := interpretDeclaration body input
    let (assessment, pushed) := assessmentFor body input raw
    (assessment, diagnostics ++ pushed)
  | .deleted expected =>
    (⟨expected, purposeForKind expected.kind input.subject.isContainer, true,
        .declaration .deleted, .unsatisfied, none⟩,
      [.declaration expected .deleted])
  | .mismatched expected observed =>
    (⟨expected, purposeForKind expected.kind input.subject.isContainer, true,
        .declaration .mismatched, .unsatisfied, none⟩,
      [.declarationMismatch expected observed])

def repeated {α : Type*} {name : String} (id : α → TypedId name)
    (report : TypedId name → AcceptanceDiagnostic) :
    List α → Std.TreeSet (TypedId name) → List AcceptanceDiagnostic
  | [], _ => []
  | a :: rest, seen => (if seen.contains (id a) then [report (id a)] else []) ++
      repeated id report rest (seen.insert (id a))

def subjectDiagnostics (input : AcceptanceInput) :
    RequirementDeclaration → List AcceptanceDiagnostic
  | .present body =>
    (if body.subject ≠ input.subject then [.wrongRequirementSubject body.reference.id] else []) ++
      if purposeMatchesSubject body.purpose body.subject = false then
        [.invalidCloseoutRequirement body.reference.id]
      else []
  | _ => []

def declarationDiagnostics (input : AcceptanceInput) :
    List RequirementDeclaration → Std.TreeSet RequirementId → List AcceptanceDiagnostic
  | [], _ => []
  | d :: rest, seen =>
    (if seen.contains d.reference.id then [.duplicateRequirement d.reference.id] else []) ++
      subjectDiagnostics input d ++
      declarationDiagnostics input rest (seen.insert d.reference.id)

def exceptionInvalidReason (input : AcceptanceInput) (exception : ForceException) :
    Option ExceptionInvalidReason :=
  if exception.actorRole ≠ .operator then some .wrongRole
  else if isBlank exception.comment then some .emptyComment
  else if exception.revoked then some .revoked
  else if exception.expiresAt.any (· ≤ input.evaluatedAt) then some .expired
  else if exception.subject ≠ input.subject then some .wrongSubject
  else if !input.declarations.any fun
      | .present body => body.reference = exception.requirement
      | _ => false then some .wrongRequirement
  else none

def validateExceptionRecords (input : AcceptanceInput) : List AcceptanceDiagnostic :=
  input.exceptions.filterMap fun exception =>
    (exceptionInvalidReason input exception).map (.invalidException exception.id)

def observationDiagnostics (input : AcceptanceInput) (e : EvidenceObservation) :
    List AcceptanceDiagnostic :=
  match input.declarations.find? (·.reference.id = e.requirement.id) with
  | none =>
    if e.subject = input.subject then [.declaration e.requirement .missing]
    else [.irrelevantEvidence e.id (unmatchedEvidenceReason input e)]
  | some (.present body) =>
    if body.reference ≠ e.requirement then [.declarationMismatch body.reference e.requirement]
    else []
  | some (.deleted expected) => [.declaration expected .deleted]
  | some (.mismatched expected observed) => [.declarationMismatch expected observed]

def buildCloseout (requirements : List RequirementAssessment) (container : Bool) :
    CloseoutAssessment :=
  let ids (purpose : RequirementPurpose) : List RequirementId :=
    (requirements.filter fun r => r.purpose = purpose && r.required).map (·.reference.id)
  let satisfied (purpose : RequirementPurpose) : Bool :=
    (requirements.filter fun r => r.purpose = purpose && r.required).all (·.effective.isSatisfied)
  if container then
    .container (ids .containerScope) (ids .closeoutSummary) (satisfied .containerScope)
      (satisfied .closeoutSummary) .forbidden
  else
    .task (ids .taskProof) (ids .closeoutSummary) (satisfied .taskProof)
      (satisfied .closeoutSummary)

def interpretAcceptance (input : AcceptanceInput) : AcceptanceInterpretation :=
  let assessed := input.declarations.map (assessDeclaration input)
  let requirements := assessed.map Prod.fst
  let diagnostics :=
    (if input.declarations = [] then [.emptyRequirementSet] else []) ++
      declarationDiagnostics input input.declarations ∅ ++
      repeated EvidenceObservation.id .duplicateEvidence input.evidence ∅ ++
      repeated ReviewDecision.id .duplicateReview input.reviews ∅ ++
      validateExceptionRecords input ++
      assessed.flatMap Prod.snd ++
      input.evidence.flatMap (observationDiagnostics input)
  ⟨input.subject, requirements, diagnostics, buildCloseout requirements input.subject.isContainer⟩

end Acceptance

end Boreal
