/- The order in which descendants and assignments are listed does not matter to a rollup. -/
import BorealWork.CycleRollups

namespace Boreal.Rollups
open Sorting WorkModel

theorem RollupFactDiagnostic.ctorIdx_injective : Function.Injective RollupFactDiagnostic.ctorIdx := by
  intro a b same
  cases a <;> cases b <;> first | rfl | cases same

theorem RollupDiagnostic.key_injective : Function.Injective RollupDiagnostic.key := by
  intro a b same
  simp only [key, EmbeddingLike.apply_eq_iff_eq, Prod.mk.injEq] at same
  obtain ⟨constructor, subject, rank⟩ := same
  cases a <;> cases b <;> cases constructor
  case task.task =>
    rw [TypedId.value_injective subject, RollupFactDiagnostic.ctorIdx_injective rank]
  case wrongScopeSubject.wrongScopeSubject | invalidCycle.invalidCycle
      | cycleHasLiveAssignments.cycleHasLiveAssignments => rfl
  case assignmentProjectMismatch.assignmentProjectMismatch
      | assignmentCycleMismatch.assignmentCycleMismatch
      | assignmentWorkMismatch.assignmentWorkMismatch => exact congrArg _ subject
  all_goals exact congrArg _ (TypedId.value_injective subject)

theorem sortOn_diagnostics {l l' : List RollupDiagnostic} (perm : l.Perm l') :
    sortOn RollupDiagnostic.key l = sortOn RollupDiagnostic.key l' :=
  sortOn_congr perm fun _ _ _ _ same => RollupDiagnostic.key_injective same

section Corrupt

theorem Findings.corruptIf_corrupt {f : Findings} {violated : Prop} [Decidable violated]
    {code : RollupFactDiagnostic} (corrupt : f.quality = .corrupt) :
    (f.corruptIf violated code).quality = .corrupt := by
  rw [Findings.corruptIf]
  split
  · rfl
  · exact corrupt

variable {t : TaskRollupInput} {f : Findings}

theorem outcomeFindings_corrupt (corrupt : f.quality = .corrupt) :
    (outcomeFindings t f).1.quality = .corrupt := by
  rw [outcomeFindings]
  split
  · exact corrupt
  · split_ifs <;> first | rfl | exact corrupt

theorem dispositionFindings_corrupt {requires : Bool} (corrupt : f.quality = .corrupt) :
    (dispositionFindings t requires f).1.quality = .corrupt := by
  rw [dispositionFindings]
  split
  · split
    · simp [Findings.push, corrupt]
    · exact corrupt
  · exact Findings.corruptIf_corrupt corrupt
  · exact Findings.corruptIf_corrupt (Findings.corruptIf_corrupt corrupt)
  · exact Findings.corruptIf_corrupt corrupt
  · exact Findings.corruptIf_corrupt corrupt

theorem evaluateTask_of_corrupt {code : String} (corrupt : t.integrity = .corrupt code)
    (requires : Bool) : (evaluateTask t requires).quality = .corrupt := by
  rw [evaluateTask_quality, taskFindings]
  apply dispositionFindings_corrupt
  apply outcomeFindings_corrupt
  rw [executionFindings]
  iterate 4 apply Findings.corruptIf_corrupt
  rw [integrityFindings, corrupt]

end Corrupt

section Descendants

variable {projectId : ProjectId} {inputs inputs' : List TaskRollupInput} {requires : Bool}

@[simp] theorem admitDescendant_identity (seen : Std.TreeSet WorkId) (t : TaskRollupInput) :
    (admitDescendant projectId seen t).1.identity = t.identity := by
  simp only [admitDescendant]
  split_ifs <;> rfl

@[simp] theorem admitDescendant_overdue (seen : Std.TreeSet WorkId) (t : TaskRollupInput) :
    (admitDescendant projectId seen t).1.overdue = t.overdue := by
  simp only [admitDescendant]
  split_ifs <;> rfl

variable (projectId requires)

theorem evaluateDescendants_overdueWork (inputs : List TaskRollupInput) :
    (evaluateDescendants projectId inputs requires).totals.overdueWork =
      (inputs.map (·.overdue.toNat)).sum := by
  have counted : (evaluateDescendants projectId inputs requires).totals.overdueWork = 0 +
      ((evaluateDescendants projectId inputs requires).descendants.map (·.overdue.toNat)).sum :=
    foldl_record (fun _ _ => rfl) _ .zero
  have listed : (evaluateDescendants projectId inputs requires).descendants.Perm
      ((admitDescendants projectId ∅ inputs).map fun a => evaluateTask a.1 requires) :=
    sortOn_perm _ _
  have kept : ((admitDescendants projectId ∅ inputs).map fun a => evaluateTask a.1 requires).map
      (·.overdue.toNat) = inputs.map (·.overdue.toNat) := by
    rw [List.map_map, admitDescendants_eq]
    apply Lookup.map_admitAll
    intro seen t
    exact congrArg Bool.toNat (admitDescendant_overdue seen t)
  rw [counted, Nat.zero_add, (listed.map (·.overdue.toNat)).sum_eq, kept]

theorem evaluateDescendants_repeated (again : ¬ (inputs.map (·.identity.workId)).Nodup) :
    (∃ d ∈ (evaluateDescendants projectId inputs requires).diagnostics, d.isStructural = true) ∧
      (evaluateDescendants projectId inputs requires).quality = .corrupt := by
  have repeated : ¬ ((inputs.map (·.identity.workId)).Nodup ∧
      ∀ t ∈ inputs, t.identity.workId ∉ (∅ : Std.TreeSet WorkId)) := fun clear => again clear.1
  obtain ⟨t, _, before, old, taken⟩ := Lookup.admitAll_repeated (admitDescendant projectId) repeated
  rw [← admitDescendants_eq] at taken
  have duplicate : before.contains t.identity.workId = true := Std.TreeSet.contains_iff_mem.mpr old
  constructor
  · refine ⟨.duplicateDescendant t.identity.workId, ?_, rfl⟩
    refine mem_sortOn.mpr (List.mem_append_left _ (List.mem_flatMap.mpr ⟨_, taken, ?_⟩))
    simp [admitDescendant, duplicate]
  · have corrupt : (admitDescendant projectId before t).1.integrity =
        .corrupt "duplicate_descendant" := by
      simp [admitDescendant, duplicate]
    have judged : evaluateTask (admitDescendant projectId before t).1 requires ∈
        (evaluateDescendants projectId inputs requires).descendants :=
      mem_sortOn.mpr (List.mem_map.mpr ⟨_, taken, rfl⟩)
    have counted : (evaluateDescendants projectId inputs requires).totals.corruptDescendants ≠ 0 := by
      intro none
      have clear := (counter_eq_zero RollupTotals.corruptDescendants (fun _ _ => rfl) rfl
        (evaluateDescendants projectId inputs requires).descendants).mp none _ judged
      exact of_decide_eq_false clear (evaluateTask_of_corrupt corrupt requires)
    exact if_pos counted

theorem evaluateDescendants_perm (perm : inputs.Perm inputs')
    (distinct : (inputs.map (·.identity.workId)).Nodup) :
    evaluateDescendants projectId inputs requires = evaluateDescendants projectId inputs' requires := by
  have fresh (l : List TaskRollupInput) : ∀ t ∈ l, t.identity.workId ∉ (∅ : Std.TreeSet WorkId) :=
    fun _ _ => Std.TreeSet.not_mem_emptyc
  have distinct' : (inputs'.map (·.identity.workId)).Nodup := (perm.map _).nodup distinct
  have taken : (admitDescendants projectId ∅ inputs).Perm (admitDescendants projectId ∅ inputs') := by
    rw [admitDescendants_distinct distinct (fresh inputs),
      admitDescendants_distinct distinct' (fresh inputs')]
    exact perm.map _
  have judged : sortOn TaskRollup.workId
        ((admitDescendants projectId ∅ inputs).map fun a => evaluateTask a.1 requires) =
      sortOn TaskRollup.workId
        ((admitDescendants projectId ∅ inputs').map fun a => evaluateTask a.1 requires) := by
    apply sortOn_congr (taken.map _)
    have named : (((admitDescendants projectId ∅ inputs).map fun a => evaluateTask a.1 requires).map
        TaskRollup.workId).Nodup := by
      rw [List.map_map, admitDescendants_eq]
      refine (congrArg List.Nodup (Lookup.map_admitAll fun seen t => ?_)).mpr distinct
      exact congrArg EntityIdentity.workId (admitDescendant_identity seen t)
    exact fun a ha b hb same => List.inj_on_of_nodup_map named ha hb same
  simp only [evaluateDescendants, judged]
  congr 1
  exact sortOn_diagnostics ((taken.flatMap_right _).append_right _)

end Descendants

section Container

variable {input : ContainerRollupInput} {descendants : List TaskRollupInput}

def ContainerRollupInput.rearranged (input : ContainerRollupInput)
    (descendants : List TaskRollupInput) : ContainerRollupInput := { input with descendants }

theorem container_overdue : (evaluateContainerRollup input).overdue =
    (input.overdue ||
      decide ((input.descendants.map (·.overdue.toNat)).sum + input.overdue.toNat ≠ 0)) := by
  rw [← evaluateDescendants_overdueWork input.scope.projectId true]
  rfl

theorem container_repeated (again : ¬ (input.descendants.map (·.identity.workId)).Nodup) :
    (evaluateContainerRollup input).state = .attention ∧
      (evaluateContainerRollup input).quality = .corrupt := by
  obtain ⟨⟨d, reported, structural⟩, corrupt⟩ :=
    evaluateDescendants_repeated input.scope.projectId true again
  have attention : (evaluateContainerRollup input).diagnostics.any RollupDiagnostic.isStructural =
      true := by
    refine List.any_eq_true.mpr ⟨d, mem_sortOn.mpr ?_, structural⟩
    exact List.mem_append_left _ (List.mem_append_right _ reported)
  constructor
  · rw [evaluateContainerRollup_state, attention, containerState.eq_def]
    exact if_pos (.inl rfl)
  · exact if_pos (.inr corrupt)

theorem container_perm (perm : input.descendants.Perm descendants)
    (distinct : (input.descendants.map (·.identity.workId)).Nodup) :
    evaluateContainerRollup input = evaluateContainerRollup (input.rearranged descendants) := by
  simp only [evaluateContainerRollup, ContainerRollupInput.rearranged,
    evaluateDescendants_perm input.scope.projectId true perm distinct]
  rfl

theorem evaluateContainerRollup_perm (perm : input.descendants.Perm descendants) :
    (evaluateContainerRollup (input.rearranged descendants)).state =
        (evaluateContainerRollup input).state ∧
      (evaluateContainerRollup (input.rearranged descendants)).quality =
        (evaluateContainerRollup input).quality ∧
      (evaluateContainerRollup (input.rearranged descendants)).overdue =
        (evaluateContainerRollup input).overdue ∧
      ((input.descendants.map (·.identity.workId)).Nodup →
        evaluateContainerRollup (input.rearranged descendants) = evaluateContainerRollup input) := by
  have overdue : (evaluateContainerRollup (input.rearranged descendants)).overdue =
      (evaluateContainerRollup input).overdue := by
    rw [container_overdue, container_overdue, (perm.map (·.overdue.toNat)).sum_eq]
    rfl
  by_cases distinct : (input.descendants.map (·.identity.workId)).Nodup
  · have same := (container_perm perm distinct).symm
    rw [same]
    exact ⟨rfl, rfl, rfl, fun _ => rfl⟩
  · have again : ¬ ((input.rearranged descendants).descendants.map (·.identity.workId)).Nodup :=
      fun clear => distinct ((perm.map _).nodup_iff.mpr clear)
    obtain ⟨state, quality⟩ := container_repeated distinct
    obtain ⟨state', quality'⟩ := container_repeated again
    exact ⟨state'.trans state.symm, quality'.trans quality.symm, overdue,
      fun clear => absurd clear distinct⟩

end Container

section Cycle

variable {input : CycleRollupInput} {assignments : List CycleAssignmentRollupInput}

def CycleRollupInput.reassigned (input : CycleRollupInput)
    (assignments : List CycleAssignmentRollupInput) : CycleRollupInput := { input with assignments }

@[simp] theorem corruptTaskIf_overdue {violated : Bool} {code : String}
    {diagnostic : RollupDiagnostic} {taken : TaskRollupInput × List RollupDiagnostic} :
    (corruptTaskIf violated code diagnostic taken).1.overdue = taken.1.overdue := by
  cases violated <;> rfl

theorem admitAssignment_identity (seen : Std.TreeSet String) (entry : CycleAssignmentRollupInput) :
    (admitAssignment input seen entry).1.identity = entry.task.identity := by
  simp [admitAssignment]

theorem admitAssignment_overdue (seen : Std.TreeSet String) (entry : CycleAssignmentRollupInput) :
    (admitAssignment input seen entry).1.overdue = entry.task.overdue := by
  simp [admitAssignment]

theorem admitAssignments_workIds : ((admitAssignments input).map Prod.fst).map (·.identity.workId) =
    input.tasks.map (·.identity.workId) := by
  rw [CycleRollupInput.tasks, List.map_map, List.map_map]
  apply Lookup.map_admitAll
  intro seen entry
  exact congrArg EntityIdentity.workId (admitAssignment_identity seen entry)

theorem cycle_overdue : (evaluateCycleRollup input).overdue = (input.overdue ||
    decide ((input.tasks.map (·.overdue.toNat)).sum + input.overdue.toNat ≠ 0)) := by
  have kept : ((admitAssignments input).map Prod.fst).map (·.overdue.toNat) =
      input.tasks.map (·.overdue.toNat) := by
    rw [CycleRollupInput.tasks, List.map_map, List.map_map]
    apply Lookup.map_admitAll
    intro seen entry
    exact congrArg Bool.toNat (admitAssignment_overdue seen entry)
  rw [← kept, ← evaluateDescendants_overdueWork input.scope.projectId true]
  rfl

theorem cycle_corrupt (corrupt : (evaluateCycleRollup input).quality = .corrupt) :
    (evaluateCycleRollup input).state = .attention := by
  rw [evaluateCycleRollup_state, corrupt]
  exact if_pos (.inl rfl)

theorem cycle_repeated (again : ¬ ((input.assignments.map (·.assignment.id)).Nodup ∧
      (input.tasks.map (·.identity.workId)).Nodup)) : (evaluateCycleRollup input).quality = .corrupt := by
  by_contra uncorrupted
  obtain ⟨silent, quality⟩ := evaluateCycleRollup_uncorrupted input uncorrupted
  have distinct := (admitAssignments_structural fun a member d reported =>
    silent d (mem_cycleReports input (.inr (.inl ⟨a, member, reported⟩)))).2.1
  have distinctWork : ¬ (((admitAssignments input).map Prod.fst).map (·.identity.workId)).Nodup := by
    rw [admitAssignments_workIds]
    exact fun clear => again ⟨distinct, clear⟩
  rw [quality] at uncorrupted
  exact uncorrupted (evaluateDescendants_repeated input.scope.projectId true distinctWork).2

theorem assignmentCounts_perm {states states' : List CycleAssignmentState}
    (perm : states.Perm states') : states.foldl AssignmentCounts.record .zero =
      states'.foldl AssignmentCounts.record .zero := by
  have commutes : RightCommutative AssignmentCounts.record := by
    constructor
    intro counts a b
    cases a <;> cases b <;> rfl
  exact perm.foldl_eq _

theorem cycleQuality_perm {unaccepted unaccepted' diagnostics diagnostics' : List RollupDiagnostic}
    (perm : unaccepted.Perm unaccepted') (perm' : diagnostics.Perm diagnostics') (liveAfterEnd : Bool)
    (quality : RollupQuality) : cycleQuality unaccepted liveAfterEnd diagnostics quality =
      cycleQuality unaccepted' liveAfterEnd diagnostics' quality := by
  have empty : unaccepted = [] ↔ unaccepted' = [] := by
    rw [← List.length_eq_zero_iff, ← List.length_eq_zero_iff, perm.length_eq]
  rw [cycleQuality, cycleQuality, perm'.any_eq]
  simp only [ne_eq, empty]

section Distinct

variable (perm : input.assignments.Perm assignments)
  (distinct : (input.assignments.map (·.assignment.id)).Nodup)
include perm distinct

theorem admitAssignments_perm :
    (admitAssignments (input.reassigned assignments)).Perm (admitAssignments input) := by
  have distinct' : (assignments.map (·.assignment.id)).Nodup := (perm.map _).nodup distinct
  have taken : admitAssignments (input.reassigned assignments) =
      assignments.map (admitAssignment input ∅) := admitAssignments_distinct distinct'
  rw [taken, admitAssignments_distinct distinct]
  exact perm.symm.map _

theorem unacceptedAssignments_perm (descendants : List TaskRollup) :
    (unacceptedAssignments (input.reassigned assignments) descendants).Perm
      (unacceptedAssignments input descendants) := by
  have distinct' : (assignments.map (·.assignment.id)).Nodup := (perm.map _).nodup distinct
  have taken : admitAssignments (input.reassigned assignments) =
      assignments.map (admitAssignment input ∅) := admitAssignments_distinct distinct'
  have listed : (input.reassigned assignments).assignments = assignments := rfl
  rw [unacceptedAssignments, unacceptedAssignments, taken, listed, admitAssignments_distinct distinct,
    List.map_map, List.map_map, List.zip_map', List.zip_map']
  exact ((perm.symm.map _).filter _).map _

theorem cycle_perm (distinctWork : (input.tasks.map (·.identity.workId)).Nodup) :
    evaluateCycleRollup (input.reassigned assignments) = evaluateCycleRollup input := by
  have taken := admitAssignments_perm perm distinct
  have unaccepted := unacceptedAssignments_perm perm distinct
  have scope : evaluateDescendants input.scope.projectId
        ((admitAssignments (input.reassigned assignments)).map Prod.fst) true =
      evaluateDescendants input.scope.projectId ((admitAssignments input).map Prod.fst) true := by
    refine (evaluateDescendants_perm _ true (taken.symm.map Prod.fst) ?_).symm
    rw [admitAssignments_workIds]
    exact distinctWork
  have counts := assignmentCounts_perm (perm.symm.map (·.assignment.state))
  have diagnostics (descendants : DescendantsRollup) (live closeout : List RollupDiagnostic) :
      (cycleDiagnostics input ++ (admitAssignments (input.reassigned assignments)).flatMap Prod.snd ++
        descendants.diagnostics ++
        unacceptedAssignments (input.reassigned assignments) descendants.descendants ++ live ++
        closeout).Perm
      (cycleDiagnostics input ++ (admitAssignments input).flatMap Prod.snd ++
        descendants.diagnostics ++ unacceptedAssignments input descendants.descendants ++ live ++
        closeout) := by
    refine List.Perm.append_right _ (List.Perm.append_right _ (List.Perm.append ?_ (unaccepted _)))
    exact List.Perm.append_right _ (List.Perm.append_left _ (taken.flatMap_right _))
  have own : cycleDiagnostics (input.reassigned assignments) = cycleDiagnostics input := rfl
  simp only [evaluateCycleRollup, own]
  simp only [CycleRollupInput.reassigned] at scope counts diagnostics unaccepted ⊢
  simp only [scope, counts, sortOn_diagnostics (diagnostics _ _ _),
    cycleQuality_perm (unaccepted _) (diagnostics _ _ _)]

end Distinct

theorem evaluateCycleRollup_perm (perm : input.assignments.Perm assignments) :
    (evaluateCycleRollup (input.reassigned assignments)).state = (evaluateCycleRollup input).state ∧
      (evaluateCycleRollup (input.reassigned assignments)).quality =
        (evaluateCycleRollup input).quality ∧
      (evaluateCycleRollup (input.reassigned assignments)).overdue =
        (evaluateCycleRollup input).overdue ∧
      ((input.assignments.map (·.assignment.id)).Nodup →
        (input.tasks.map (·.identity.workId)).Nodup →
        evaluateCycleRollup (input.reassigned assignments) = evaluateCycleRollup input) := by
  have tasks : (input.reassigned assignments).tasks.Perm input.tasks := perm.symm.map _
  have overdue : (evaluateCycleRollup (input.reassigned assignments)).overdue =
      (evaluateCycleRollup input).overdue := by
    rw [cycle_overdue, cycle_overdue, (tasks.map (·.overdue.toNat)).sum_eq]
    rfl
  by_cases distinct : (input.assignments.map (·.assignment.id)).Nodup ∧
      (input.tasks.map (·.identity.workId)).Nodup
  · rw [cycle_perm perm distinct.1 distinct.2]
    exact ⟨rfl, rfl, rfl, fun _ _ => rfl⟩
  · have again : ¬ (((input.reassigned assignments).assignments.map (·.assignment.id)).Nodup ∧
        ((input.reassigned assignments).tasks.map (·.identity.workId)).Nodup) := by
      rw [(tasks.map _).nodup_iff]
      exact fun clear => distinct ⟨(perm.map _).nodup_iff.mpr clear.1, clear.2⟩
    have corrupt := cycle_repeated distinct
    have corrupt' := cycle_repeated again
    refine ⟨?_, corrupt'.trans corrupt.symm, overdue, fun ids work => absurd ⟨ids, work⟩ distinct⟩
    rw [cycle_corrupt corrupt, cycle_corrupt corrupt']

end Cycle

/-- Rollups do not depend on the order of what they hold: neither the state nor the quality nor the
overdue flag, and nothing at all where no id is repeated. -/
theorem rollups_perm :
    (∀ (input : ContainerRollupInput) (descendants : List TaskRollupInput),
      input.descendants.Perm descendants →
      (evaluateContainerRollup (input.rearranged descendants)).state =
          (evaluateContainerRollup input).state ∧
        (evaluateContainerRollup (input.rearranged descendants)).quality =
          (evaluateContainerRollup input).quality ∧
        (evaluateContainerRollup (input.rearranged descendants)).overdue =
          (evaluateContainerRollup input).overdue ∧
        ((input.descendants.map (·.identity.workId)).Nodup →
          evaluateContainerRollup (input.rearranged descendants) = evaluateContainerRollup input)) ∧
    ∀ (input : CycleRollupInput) (assignments : List CycleAssignmentRollupInput),
      input.assignments.Perm assignments →
      (evaluateCycleRollup (input.reassigned assignments)).state =
          (evaluateCycleRollup input).state ∧
        (evaluateCycleRollup (input.reassigned assignments)).quality =
          (evaluateCycleRollup input).quality ∧
        (evaluateCycleRollup (input.reassigned assignments)).overdue =
          (evaluateCycleRollup input).overdue ∧
        ((input.assignments.map (·.assignment.id)).Nodup →
          (input.tasks.map (·.identity.workId)).Nodup →
          evaluateCycleRollup (input.reassigned assignments) = evaluateCycleRollup input) :=
  ⟨fun _ _ perm => evaluateContainerRollup_perm perm, fun _ _ perm => evaluateCycleRollup_perm perm⟩

theorem rollups_perm_reversed :
    evaluateContainerRollup ((Fixture.container .open [Fixture.deferredTask "first" .direct false,
          Fixture.deferredTask "second" .direct true] none).rearranged
        [Fixture.deferredTask "second" .direct true, Fixture.deferredTask "first" .direct false]) =
      evaluateContainerRollup (Fixture.container .open [Fixture.deferredTask "first" .direct false,
        Fixture.deferredTask "second" .direct true] none) ∧
    evaluateCycleRollup (Fixture.runCycle.reassigned Fixture.runCycle.assignments.reverse) =
      evaluateCycleRollup Fixture.runCycle :=
  ⟨(rollups_perm.1 _ _ (List.Perm.swap _ _ _)).2.2.2 (by decide),
    (rollups_perm.2 _ _ (List.reverse_perm _).symm).2.2.2 (by decide) (by decide)⟩

namespace Fixture

/-- Two assignments of different work under one assignment id. -/
def twiceAssigned : CycleRollupInput :=
  cycle .active [assigned "assignment" .completed (acceptedTask "finished"),
    assigned "assignment" .carriedOver (deferredTask "deferred" .direct false)]

end Fixture

theorem totals_twiceAssigned : (Fixture.twiceAssigned.tasks.map (·.identity.workId)).Nodup ∧
    (Fixture.twiceAssigned.assignments.map (·.assignment.workId)).Nodup ∧
    ∃ assignments, Fixture.twiceAssigned.assignments.Perm assignments ∧
      (evaluateCycleRollup (Fixture.twiceAssigned.reassigned assignments)).totals ≠
        (evaluateCycleRollup Fixture.twiceAssigned).totals := by
  refine ⟨by decide, by decide, Fixture.twiceAssigned.assignments.reverse,
    (List.reverse_perm _).symm, ?_⟩
  decide

end Boreal.Rollups
