/- One task's rollup: which facts make it complete, and that its diagnostics tell when it is corrupt. -/
import BorealWork.Rollups

namespace Boreal.Rollups
open Sorting

/-- The task's own facts agree with each other. -/
structure Trustworthy (t : TaskRollupInput) : Prop where
  valid : t.integrity = .valid
  unclaimable : ¬ (t.executionMode = .container ∧ t.claimableForActor = true)
  unexecuted : ¬ (t.executionMode = .container ∧ t.activeExecution = true)
  ended : ¬ (t.lifecycle.isTerminal = true ∧ t.activeExecution = true)
  status : ¬ LifecycleStatusMismatch t
  outcome : ∀ o ∈ t.acceptedOutcome,
    o.identity = t.identity ∧ t.lifecycle = .closed ∧ isBlank o.digest.value = false

def ReconciledByOwn (t : TaskRollupInput) : Prop :=
  match t.disposition with
  | none => False
  | some (.acceptedClosed entityRevision outcomeDigest) =>
    outcomeMatches t entityRevision outcomeDigest = true
  | some (.acceptedCancelled entityRevision outcomeDigest) =>
    t.lifecycle = .cancelled ∧ entityRevision = t.identity.revision ∧
      isBlank outcomeDigest.value = false
  | some (.deferred reason) => isBlank reason = false
  | some (.replaced replacementId reason) =>
    replacementId ≠ t.identity.workId ∧ isBlank reason = false

structure Settled (t : TaskRollupInput) : Prop where
  trustworthy : Trustworthy t
  reconciled : ReconciledByOwn t

namespace Findings

def Coherent (f : Findings) : Prop :=
  f.quality = .corrupt ↔ f.codes.any RollupFactDiagnostic.isStructural = true

variable {f : Findings} {violated : Prop} [Decidable violated] {code : RollupFactDiagnostic}

theorem Coherent.corrupt_iff (h : f.Coherent) :
    f.quality = .corrupt ↔ f.codes.any RollupFactDiagnostic.isStructural = true := h

theorem Coherent.report (structural : code.isStructural = true) :
    Coherent ⟨.corrupt, f.codes ++ [code]⟩ := by
  simp [Coherent, structural]

theorem Coherent.corruptIf (h : f.Coherent) (structural : code.isStructural = true) :
    (f.corruptIf violated code).Coherent := by
  rw [Findings.corruptIf]
  split
  · exact .report structural
  · exact h

@[simp] theorem corruptIf_complete :
    (f.corruptIf violated code).quality = .complete ↔ ¬ violated ∧ f.quality = .complete := by
  rw [Findings.corruptIf]
  split
  case isTrue bad => simp [bad]
  case isFalse good => simp [good]

end Findings

section Task

variable (t : TaskRollupInput)

theorem integrityFindings_coherent : (integrityFindings t).Coherent := by
  rw [integrityFindings]
  cases t.integrity <;> simp [Findings.Coherent, RollupFactDiagnostic.isStructural]

theorem integrityFindings_complete : (integrityFindings t).quality = .complete ↔ t.integrity = .valid := by
  rw [integrityFindings]
  cases t.integrity <;> simp

variable {f : Findings}

theorem executionFindings_coherent (h : f.Coherent) : (executionFindings t f).Coherent :=
  h.corruptIf rfl |>.corruptIf rfl |>.corruptIf rfl |>.corruptIf rfl

theorem outcomeFindings_coherent (h : f.Coherent) : (outcomeFindings t f).1.Coherent := by
  rw [outcomeFindings]
  split
  · exact h
  · split_ifs
    · exact .report rfl
    · exact .report rfl
    · exact .report rfl
    · exact h

theorem outcomeFindings_complete : (outcomeFindings t f).1.quality = .complete ↔
    f.quality = .complete ∧ ∀ o ∈ t.acceptedOutcome,
      o.identity = t.identity ∧ t.lifecycle = .closed ∧ isBlank o.digest.value = false := by
  rw [outcomeFindings]
  cases t.acceptedOutcome with
  | none => simp
  | some outcome =>
    simp only [Option.mem_some_iff, forall_eq']
    split_ifs with identity lifecycle digest
    · simp [identity]
    · simp [lifecycle]
    · simp [digest]
    · rw [not_not] at identity lifecycle
      simp [identity, lifecycle, digest]

theorem dispositionFindings_coherent (requires : Bool) (h : f.Coherent) :
    (dispositionFindings t requires f).1.Coherent := by
  rw [dispositionFindings]
  split
  · split
    · have kept : (if f.quality = .complete then RollupQuality.incomplete else f.quality) =
          .corrupt ↔ f.quality = .corrupt := by
        cases f.quality <;> simp
      rw [Findings.Coherent, Findings.push, kept, h.corrupt_iff]
      simp [RollupFactDiagnostic.isStructural]
    · exact h
  · exact h.corruptIf (by split <;> rfl)
  · exact (h.corruptIf rfl).corruptIf rfl
  · exact h.corruptIf rfl
  · exact h.corruptIf rfl

theorem dispositionFindings_complete :
    (dispositionFindings t true f).1.quality = .complete ↔
      f.quality = .complete ∧ ReconciledByOwn t := by
  rw [dispositionFindings, ReconciledByOwn]
  cases t.disposition with
  | none =>
    refine iff_of_false ?_ fun h => h.2
    simp only [if_true, Findings.push]
    cases f.quality <;> simp
  | some disposition => cases disposition with
    | acceptedClosed entityRevision outcomeDigest => simp [and_comm]
    | acceptedCancelled entityRevision outcomeDigest => simp; tauto
    | deferred reason => simp [and_comm]
    | replaced replacementId reason => simp [and_comm]

theorem dispositionFindings_unresolved :
    (dispositionFindings t true f).2 = .unresolved ↔ t.disposition = none := by
  rw [dispositionFindings]
  cases t.disposition with
  | none => simp
  | some disposition => cases disposition <;> simp

def taskFindings (requires : Bool) : Findings × ReconciliationState :=
  dispositionFindings t requires (outcomeFindings t (executionFindings t (integrityFindings t))).1

theorem evaluateTask_quality (requires : Bool) :
    (evaluateTask t requires).quality = (taskFindings t requires).1.quality := rfl

theorem evaluateTask_complete : (evaluateTask t true).quality = .complete ↔ Settled t := by
  rw [evaluateTask_quality, taskFindings, dispositionFindings_complete, outcomeFindings_complete,
    executionFindings]
  simp only [Findings.corruptIf_complete, integrityFindings_complete]
  constructor
  · rintro ⟨⟨⟨status, ended, unexecuted, unclaimable, valid⟩, outcome⟩, reconciled⟩
    exact ⟨⟨valid, unclaimable, unexecuted, ended, status, outcome⟩, reconciled⟩
  · rintro ⟨h, reconciled⟩
    exact ⟨⟨⟨h.status, h.ended, h.unexecuted, h.unclaimable, h.valid⟩, h.outcome⟩, reconciled⟩

theorem evaluateTask_corrupt (requires : Bool) : (evaluateTask t requires).quality = .corrupt ↔
    ∃ d ∈ (evaluateTask t requires).diagnostics, d.isStructural = true := by
  have coherent : (taskFindings t requires).1.Coherent :=
    dispositionFindings_coherent t requires (outcomeFindings_coherent t
      (executionFindings_coherent t (integrityFindings_coherent t)))
  rw [evaluateTask_quality, coherent.corrupt_iff, List.any_eq_true]
  have reported : (evaluateTask t requires).diagnostics = sortOn RollupDiagnostic.key
      ((taskFindings t requires).1.codes.map (.task t.identity.workId)) := rfl
  simp [reported, RollupDiagnostic.isStructural]

theorem evaluateTask_unresolved :
    (evaluateTask t true).reconciliation = .unresolved ↔ t.disposition = none :=
  dispositionFindings_unresolved t

@[simp] theorem evaluateTask_workId (requires : Bool) :
    (evaluateTask t requires).workId = t.identity.workId := rfl

@[simp] theorem evaluateTask_executionMode (requires : Bool) :
    (evaluateTask t requires).executionMode = t.executionMode := rfl

@[simp] theorem evaluateTask_gateGaps (requires : Bool) :
    (evaluateTask t requires).gateGaps = [] ↔ t.gateGaps = [] := by
  simp [evaluateTask, normalizedGates]

@[simp] theorem evaluateTask_blockers (requires : Bool) :
    (evaluateTask t requires).blockers = [] ↔ t.blockers = [] := by
  simp [evaluateTask, normalizedBlockers]

variable {t}

theorem Settled.resolved (h : Settled t) : t.disposition ≠ none := by
  intro none
  have reconciled := h.reconciled
  rw [ReconciledByOwn, none] at reconciled
  exact reconciled

theorem Settled.isReconciled (h : Settled t) : (evaluateTask t true).isReconciled = true := by
  have complete := (evaluateTask_complete t).mpr h
  have reconciled (f : Findings) : (dispositionFindings t true f).2.isReconciled = true := by
    rw [dispositionFindings]
    cases given : t.disposition with
    | none => exact absurd given h.resolved
    | some disposition => cases disposition <;> rfl
  rw [TaskRollup.isReconciled, complete]
  exact reconciled _

theorem Settled.acceptedClosed (h : Settled t) :
    (evaluateTask t true).acceptedClosed = true ↔ t.acceptedOutcome.isSome = true := by
  have complete := (evaluateTask_complete t).mpr h
  have accepted : (evaluateTask t true).acceptedClosed =
      ((outcomeFindings t (executionFindings t (integrityFindings t))).2 &&
        decide ((evaluateTask t true).quality ≠ .corrupt)) := rfl
  rw [accepted, complete, outcomeFindings]
  cases given : t.acceptedOutcome with
  | none => simp
  | some outcome =>
    obtain ⟨identity, lifecycle, digest⟩ := h.trustworthy.outcome outcome given
    simp [identity, lifecycle, digest, h.trustworthy.valid, DescendantIntegrity.isTrustworthy]

end Task

end Boreal.Rollups
