/- When a cycle is reported ready to complete, or completed: what that says about its assignments. -/
import BorealWork.Cycles
import BorealWork.ContainerRollups

namespace Boreal.Rollups
open Sorting WorkModel

section Selection

variable {lifecycle : CycleLifecycle} {quality : RollupQuality} {scopeReconciled : Bool} {live : ℕ}
  {gateReviewGaps : List GateId} {integrationBlocks : Bool} {blockers : List RollupBlocker}

theorem cycleState_done
    (done : cycleState lifecycle quality scopeReconciled live gateReviewGaps integrationBlocks
        blockers = .readyToComplete ∨
      cycleState lifecycle quality scopeReconciled live gateReviewGaps integrationBlocks
        blockers = .completed) :
    (quality ≠ .corrupt ∧ blockers = []) ∧
      (scopeReconciled = true ∧ gateReviewGaps = [] ∧ integrationBlocks = false) ∧
      (live = 0 ∨ lifecycle.isTerminal = true) := by
  rw [cycleState.eq_def] at done
  by_cases attention : quality = .corrupt ∨ blockers ≠ []
  · simp [attention] at done
  · rw [if_neg attention] at done
    rw [not_or, not_not] at attention
    refine ⟨attention, ?_⟩
    cases lifecycle with
    | planned => simp at done
    | cancelled => simp at done
    | active =>
      by_cases clear : scopeReconciled = true ∧ live = 0 ∧ gateReviewGaps = [] ∧
          integrationBlocks = false
      · exact ⟨⟨clear.1, clear.2.2⟩, .inl clear.2.1⟩
      · simp [clear] at done
    | completed =>
      by_cases clear : scopeReconciled = true ∧ gateReviewGaps = [] ∧ integrationBlocks = false
      · exact ⟨clear, .inr rfl⟩
      · simp [clear] at done

end Selection

theorem assignmentCounts_live (states : List CycleAssignmentState) (counts : AssignmentCounts) :
    (states.foldl AssignmentCounts.record counts).live =
      counts.live + states.countP CycleAssignmentState.isLive := by
  induction states generalizing counts with
  | nil => rfl
  | cons state rest ih =>
    rw [List.foldl_cons, ih]
    cases state with
    | planned | committed =>
      simp only [AssignmentCounts.record, CycleAssignmentState.isLive, List.countP_cons]
      simp
      omega
    | removed | completed | carriedOver =>
      simp [AssignmentCounts.record, CycleAssignmentState.isLive]

section Admission

variable {input : CycleRollupInput} {seen : Std.TreeSet String} {entry : CycleAssignmentRollupInput}

@[simp] theorem corruptTaskIf_diagnostics {violated : Bool} {code : String}
    {diagnostic : RollupDiagnostic} {taken : TaskRollupInput × List RollupDiagnostic} :
    (corruptTaskIf violated code diagnostic taken).2 =
      taken.2 ++ if violated then [diagnostic] else [] := by
  cases violated <;> simp [corruptTaskIf]

@[simp] theorem corruptTaskIf_workId {violated : Bool} {code : String}
    {diagnostic : RollupDiagnostic} {taken : TaskRollupInput × List RollupDiagnostic} :
    (corruptTaskIf violated code diagnostic taken).1.identity = taken.1.identity := by
  cases violated <;> rfl

structure AssignmentMatches (input : CycleRollupInput) (entry : CycleAssignmentRollupInput) :
    Prop where
  project : entry.assignment.projectId = input.scope.projectId
  cycle : entry.assignment.cycleId = input.cycle.id
  work : entry.assignment.workId = entry.task.identity.workId

theorem admitAssignment_silent (fresh : entry.assignment.id ∉ seen)
    (own : AssignmentMatches input entry) : admitAssignment input seen entry = (entry.task, []) := by
  simp [admitAssignment, corruptTaskIf, Std.TreeSet.contains_iff_mem, fresh, own.project, own.cycle,
    own.work]

theorem admitAssignment_structural
    (silent : ∀ d ∈ (admitAssignment input seen entry).2, d.isCycleStructural = false) :
    entry.assignment.id ∉ seen ∧ AssignmentMatches input entry := by
  have told (d : RollupDiagnostic) (structural : d.isCycleStructural = true) :
      d ∉ (admitAssignment input seen entry).2 := by
    intro member
    rw [silent d member] at structural
    cases structural
  refine ⟨fun again => ?_, ⟨?_, ?_, ?_⟩⟩
  · apply told (.assignmentWorkMismatch entry.assignment.id) rfl
    simp [admitAssignment, Std.TreeSet.contains_iff_mem, again]
  · by_contra foreign
    apply told (.assignmentProjectMismatch entry.assignment.id) rfl
    simp [admitAssignment, foreign]
  · by_contra foreign
    apply told (.assignmentCycleMismatch entry.assignment.id) rfl
    simp [admitAssignment, foreign]
  · by_contra foreign
    apply told (.assignmentWorkMismatch entry.assignment.id) rfl
    simp [admitAssignment, foreign]

theorem admitAssignment_fresh (fresh : entry.assignment.id ∉ seen) :
    admitAssignment input seen entry = admitAssignment input ∅ entry := by
  have unseen : seen.contains entry.assignment.id = false := by
    rwa [← Bool.not_eq_true, Std.TreeSet.contains_iff_mem]
  simp [admitAssignment, unseen]

theorem admitAssignments_distinct (distinct : (input.assignments.map (·.assignment.id)).Nodup) :
    admitAssignments input = input.assignments.map (admitAssignment input ∅) :=
  Lookup.admitAll_distinct (fun _ _ => admitAssignment_fresh) distinct
    fun _ _ => Std.TreeSet.not_mem_emptyc

theorem admitAssignments_structural
    (silent : ∀ taken ∈ admitAssignments input, ∀ d ∈ taken.2, d.isCycleStructural = false) :
    (∀ entry ∈ input.assignments, AssignmentMatches input entry) ∧
      (input.assignments.map (·.assignment.id)).Nodup ∧
      admitAssignments input = input.assignments.map fun entry => (entry.task, []) := by
  have own : ∀ entry ∈ input.assignments, AssignmentMatches input entry := by
    intro entry member
    obtain ⟨before, taken⟩ :=
      Lookup.exists_admitAll (·.assignment.id) (admitAssignment input) ∅ member
    exact (admitAssignment_structural (silent _ taken)).2
  have distinct : (input.assignments.map (·.assignment.id)).Nodup := by
    by_contra again
    have repeated : ¬ ((input.assignments.map (·.assignment.id)).Nodup ∧
        ∀ entry ∈ input.assignments, entry.assignment.id ∉ (∅ : Std.TreeSet String)) :=
      fun clear => again clear.1
    obtain ⟨entry, _, before, old, taken⟩ :=
      Lookup.admitAll_repeated (admitAssignment input) repeated
    exact (admitAssignment_structural (silent _ taken)).1 old
  refine ⟨own, distinct, ?_⟩
  rw [admitAssignments_distinct distinct]
  apply List.map_congr_left
  intro entry member
  exact admitAssignment_silent Std.TreeSet.not_mem_emptyc (own entry member)

end Admission

section Descendants

variable {projectId : ProjectId} {inputs : List TaskRollupInput}

theorem admitDescendant_valid {seen : Std.TreeSet WorkId} {t : TaskRollupInput}
    (valid : (admitDescendant projectId seen t).1.integrity = .valid) :
    (admitDescendant projectId seen t).2 = [] := by
  simp only [admitDescendant] at valid ⊢
  split_ifs at valid ⊢
  rfl

theorem evaluateDescendants_complete
    (complete : (evaluateDescendants projectId inputs true).quality = .complete) :
    ((∀ t ∈ inputs, t.identity.projectId = projectId) ∧
      (inputs.map (·.identity.workId)).Nodup) ∧ ∀ t ∈ inputs, Settled t := by
  have counted : (evaluateDescendants projectId inputs true).totals.corruptDescendants = 0 ∧
      (evaluateDescendants projectId inputs true).totals.incompleteDescendants = 0 := by
    simp only [evaluateDescendants] at complete ⊢
    split_ifs at complete with corrupt incomplete
    exact ⟨not_not.mp corrupt, not_not.mp incomplete⟩
  have uncorrupted := (counter_eq_zero RollupTotals.corruptDescendants (fun _ _ => rfl) rfl
    (evaluateDescendants projectId inputs true).descendants).mp counted.1
  have undegraded := (counter_eq_zero RollupTotals.incompleteDescendants (fun _ _ => rfl) rfl
    (evaluateDescendants projectId inputs true).descendants).mp counted.2
  have settled : ∀ a ∈ admitDescendants projectId ∅ inputs, Settled a.1 := by
    intro a member
    have judged : evaluateTask a.1 true ∈ (evaluateDescendants projectId inputs true).descendants :=
      mem_sortOn.mpr (List.mem_map.mpr ⟨a, member, rfl⟩)
    rw [← evaluateTask_complete]
    have corrupt := uncorrupted _ judged
    have incomplete := undegraded _ judged
    rw [decide_eq_false_iff_not] at corrupt incomplete
    cases quality : (evaluateTask a.1 true).quality with
    | complete => rfl
    | incomplete => exact absurd quality incomplete
    | corrupt => exact absurd quality corrupt
  have silent : ∀ a ∈ admitDescendants projectId ∅ inputs, ∀ d ∈ a.2, d.isStructural = false := by
    intro a member d reported
    have valid := (settled a member).trustworthy.valid
    rw [admitDescendants_eq] at member
    obtain ⟨t, _, before, rfl⟩ := Lookup.mem_admitAll member
    rw [admitDescendant_valid valid] at reported
    exact absurd reported List.not_mem_nil
  obtain ⟨here, distinct, fresh⟩ := admitDescendants_structural silent
  refine ⟨⟨here, distinct⟩, fun t member => ?_⟩
  rw [admitDescendants_silent here distinct fresh] at settled
  exact settled (t, []) (List.mem_map.mpr ⟨t, member, rfl⟩)

end Descendants

section Cycle

variable (input : CycleRollupInput)

def CycleRollupInput.tasks (input : CycleRollupInput) : List TaskRollupInput :=
  input.assignments.map CycleAssignmentRollupInput.task

structure CycleMatches (input : CycleRollupInput) : Prop where
  subject : input.scope.subject = .cycle input.cycle.id
  project : input.cycle.projectId = input.scope.projectId
  valid : input.cycle.validate = .ok ()

structure CompletionFacts (input : CycleRollupInput) : Prop where
  cycle : CycleMatches input
  assigned : ∀ entry ∈ input.assignments, AssignmentMatches input entry
  distinct : (input.assignments.map (·.assignment.id)).Nodup
  idle : ∀ entry ∈ input.assignments, entry.assignment.state.isLive = false
  projectLocal : ∀ t ∈ input.tasks, t.identity.projectId = input.scope.projectId
  distinctWork : (input.tasks.map (·.identity.workId)).Nodup
  settled : ∀ t ∈ input.tasks, Settled t
  accepted : ∀ entry ∈ input.assignments, entry.assignment.state = .completed →
    (evaluateTask entry.task true).acceptedClosed = true
  ungated : input.gateGaps = [] ∧ ∀ t ∈ input.tasks, t.gateGaps = []
  unblocked : input.blockers = [] ∧ ∀ t ∈ input.tasks, t.blockers = []

theorem cycleDiagnostics_silent
    (silent : ∀ d ∈ cycleDiagnostics input, d.isCycleStructural = false) : CycleMatches input := by
  have told (d : RollupDiagnostic) (structural : d.isCycleStructural = true) :
      d ∉ cycleDiagnostics input := by
    intro member
    rw [silent d member] at structural
    cases structural
  refine ⟨?_, ?_, ?_⟩
  · by_contra other
    apply told (.assignmentCycleMismatch input.cycle.id.value) rfl
    simp [cycleDiagnostics, other]
  · by_contra foreign
    apply told (.assignmentProjectMismatch input.cycle.id.value) rfl
    simp [cycleDiagnostics, foreign]
  · cases checked : input.cycle.validate with
    | ok _ => rfl
    | error _ =>
      refine absurd ?_ (told .invalidCycle rfl)
      simp [cycleDiagnostics, checked]

def cycleDescendants : DescendantsRollup :=
  evaluateDescendants input.scope.projectId ((admitAssignments input).map Prod.fst) true

theorem evaluateCycleRollup_state : (evaluateCycleRollup input).state =
    cycleState input.cycle.lifecycle (evaluateCycleRollup input).quality
      (evaluateCycleRollup input).scopeReconciled (evaluateCycleRollup input).assignmentCounts.live
      (evaluateCycleRollup input).gateReviewGaps
      ((evaluateCycleRollup input).integrationCloseout.any IntegrationCloseoutRollup.blocksCloseout)
      (evaluateCycleRollup input).blockers := rfl

theorem evaluateCycleRollup_live : (evaluateCycleRollup input).assignmentCounts.live =
    (input.assignments.map (·.assignment.state)).countP CycleAssignmentState.isLive := by
  refine (assignmentCounts_live _ _).trans ?_
  exact Nat.zero_add _

theorem cycleQuality_uncorrupted {unaccepted diagnostics : List RollupDiagnostic}
    {liveAfterEnd : Bool} {quality : RollupQuality}
    (sound : cycleQuality unaccepted liveAfterEnd diagnostics quality ≠ .corrupt) :
    (∀ d ∈ diagnostics, d.isCycleStructural = false) ∧
      cycleQuality unaccepted liveAfterEnd diagnostics quality = quality := by
  rw [cycleQuality] at sound ⊢
  split_ifs at sound ⊢ with corrupt
  · exact absurd rfl sound
  · rw [not_or, not_or, List.any_eq_true] at corrupt
    refine ⟨fun d member => ?_, rfl⟩
    by_contra structural
    exact corrupt.2.2 ⟨d, member, by simpa using structural⟩

theorem evaluateCycleRollup_uncorrupted (sound : (evaluateCycleRollup input).quality ≠ .corrupt) :
    (∀ d ∈ (evaluateCycleRollup input).diagnostics, d.isCycleStructural = false) ∧
      (evaluateCycleRollup input).quality = (cycleDescendants input).quality := by
  obtain ⟨silent, quality⟩ := cycleQuality_uncorrupted sound
  exact ⟨fun d member => silent d (mem_sortOn.mp member), quality⟩

theorem mem_cycleReports {d : RollupDiagnostic}
    (reported : d ∈ cycleDiagnostics input ∨
      (∃ taken ∈ admitAssignments input, d ∈ taken.2) ∨
      d ∈ unacceptedAssignments input (cycleDescendants input).descendants ∨
      (d = .cycleHasLiveAssignments ∧ input.cycle.lifecycle.isTerminal = true ∧
        (evaluateCycleRollup input).assignmentCounts.live ≠ 0)) :
    d ∈ (evaluateCycleRollup input).diagnostics := by
  rw [cycleDescendants] at reported
  simp only [evaluateCycleRollup, mem_sortOn, List.mem_append, List.mem_flatMap] at reported ⊢
  rcases reported with own | taken | unaccepted | ⟨rfl, live⟩
  · simp only [own, true_or]
  · simp only [taken, true_or, or_true]
  · simp only [unaccepted, true_or, or_true]
  · simp only [live, ne_eq, not_false_eq_true, and_self, decide_true, if_true, List.mem_singleton,
      true_or, or_true]

variable {input}

structure CompletionReport (input : CycleRollupInput) (rollup : CycleRollup) : Prop where
  reconciled : ∀ task ∈ rollup.descendants, task.isReconciled = true ∧ task.quality = .complete
  covered : (rollup.descendants.map TaskRollup.workId).Perm
    (input.assignments.map (·.assignment.workId))
  accepted : ∀ entry ∈ input.assignments, entry.assignment.state = .completed →
    ∃ task ∈ rollup.descendants, task.workId = entry.assignment.workId ∧ task.acceptedClosed = true
  idle : rollup.assignmentCounts.live = 0
  resolved : rollup.totals.unresolvedScope = 0
  unblocked : rollup.blockers = []

theorem cycleDescendants_own
    (taken : admitAssignments input = input.assignments.map fun entry => (entry.task, [])) :
    cycleDescendants input = evaluateDescendants input.scope.projectId input.tasks true := by
  rw [cycleDescendants, taken, List.map_map]
  rfl

theorem unacceptedAssignments_own
    (taken : admitAssignments input = input.assignments.map fun entry => (entry.task, []))
    {descendants : List TaskRollup} {entry : CycleAssignmentRollupInput}
    (member : entry ∈ input.assignments)
    (unaccepted : unacceptedAssignment descendants entry.assignment.state entry.task = true) :
    .completedAssignmentNotAcceptedClosed entry.task.identity.workId ∈
      unacceptedAssignments input descendants := by
  rw [unacceptedAssignments, taken, List.map_map, List.zip_map']
  refine List.mem_map.mpr ⟨(entry.assignment.state, entry.task), ?_, rfl⟩
  exact List.mem_filter.mpr ⟨List.mem_map.mpr ⟨entry, member, rfl⟩, unaccepted⟩

section Complete

variable (complete : (evaluateCycleRollup input).quality = .complete)
include complete

theorem silent_of_complete {d : RollupDiagnostic} (structural : d.isCycleStructural = true) :
    d ∉ (evaluateCycleRollup input).diagnostics := by
  intro member
  have uncorrupted : (evaluateCycleRollup input).quality ≠ .corrupt := by
    rw [complete]
    exact RollupQuality.noConfusion
  rw [(evaluateCycleRollup_uncorrupted input uncorrupted).1 d member] at structural
  cases structural

theorem admission_of_complete : CycleMatches input ∧
    (∀ entry ∈ input.assignments, AssignmentMatches input entry) ∧
    (input.assignments.map (·.assignment.id)).Nodup ∧
    admitAssignments input = input.assignments.map fun entry => (entry.task, []) := by
  have silent {d : RollupDiagnostic} (member : d ∈ (evaluateCycleRollup input).diagnostics) :
      d.isCycleStructural = false := by
    by_contra structural
    exact silent_of_complete complete (by simpa using structural) member
  constructor
  · exact cycleDiagnostics_silent input fun d member => silent (mem_cycleReports input (.inl member))
  · exact admitAssignments_structural fun a member d reported =>
      silent (mem_cycleReports input (.inr (.inl ⟨a, member, reported⟩)))

theorem settled_of_complete : ((∀ t ∈ input.tasks, t.identity.projectId = input.scope.projectId) ∧
    (input.tasks.map (·.identity.workId)).Nodup) ∧ ∀ t ∈ input.tasks, Settled t := by
  have uncorrupted : (evaluateCycleRollup input).quality ≠ .corrupt := by
    rw [complete]
    exact RollupQuality.noConfusion
  apply evaluateDescendants_complete
  rw [← cycleDescendants_own (admission_of_complete complete).2.2.2,
    ← (evaluateCycleRollup_uncorrupted input uncorrupted).2, complete]

theorem descendants_of_complete : (evaluateCycleRollup input).descendants =
    (evaluateDescendants input.scope.projectId input.tasks true).descendants := by
  have own := cycleDescendants_own (admission_of_complete complete).2.2.2
  exact congrArg DescendantsRollup.descendants own

theorem mem_descendants_of_complete {task : TaskRollup} :
    task ∈ (evaluateCycleRollup input).descendants ↔ ∃ t ∈ input.tasks, evaluateTask t true = task := by
  obtain ⟨⟨here, distinct⟩, _⟩ := settled_of_complete complete
  rw [descendants_of_complete complete, mem_descendants here distinct]

theorem accepted_of_complete {entry : CycleAssignmentRollupInput} (member : entry ∈ input.assignments)
    (finished : entry.assignment.state = .completed) :
    (evaluateTask entry.task true).acceptedClosed = true := by
  obtain ⟨⟨here, distinct⟩, _⟩ := settled_of_complete complete
  have own := (admission_of_complete complete).2.2.2
  have task : entry.task ∈ input.tasks := List.mem_map_of_mem member
  have found : (cycleDescendants input).descendants.find?
      (·.workId = entry.task.identity.workId) = some (evaluateTask entry.task true) := by
    rw [cycleDescendants_own own]
    refine (Lookup.find?_eq_some_iff (descendants_distinct here distinct)).mpr ⟨?_, rfl⟩
    exact (mem_descendants here distinct).mpr ⟨entry.task, task, rfl⟩
  by_contra unaccepted
  refine silent_of_complete complete rfl (mem_cycleReports input (.inr (.inr (.inl
    (unacceptedAssignments_own own member ?_)))))
  rw [unacceptedAssignment, found]
  simpa [finished] using unaccepted

theorem covered_of_complete : ((evaluateCycleRollup input).descendants.map TaskRollup.workId).Perm
    (input.assignments.map (·.assignment.workId)) := by
  obtain ⟨⟨here, distinct⟩, _⟩ := settled_of_complete complete
  have assigned := (admission_of_complete complete).2.1
  have named : input.assignments.map (·.assignment.workId) =
      input.tasks.map (·.identity.workId) := by
    rw [CycleRollupInput.tasks, List.map_map]
    exact List.map_congr_left fun entry member => (assigned entry member).work
  rw [descendants_of_complete complete, evaluateDescendants_own here distinct, named]
  refine ((sortOn_perm TaskRollup.workId _).map TaskRollup.workId).trans ?_
  rw [List.map_map]
  rfl

end Complete

theorem cycle_gates_clear : (evaluateCycleRollup input).gateReviewGaps = [] ↔
    input.gateGaps = [] ∧ ∀ task ∈ (evaluateCycleRollup input).descendants, task.gateGaps = [] := by
  simp [evaluateCycleRollup, normalizedGates]

theorem cycle_blockers_clear : (evaluateCycleRollup input).blockers = [] ↔
    input.blockers = [] ∧ ∀ task ∈ (evaluateCycleRollup input).descendants, task.blockers = [] := by
  simp [evaluateCycleRollup, normalizedBlockers]

/-- A cycle that is reported ready to complete, or completed, has well-formed assignments that are
not live, on descendants that are all reconciled, and nothing unresolved or blocked. -/
theorem evaluateCycleRollup_completion
    (done : (evaluateCycleRollup input).state = .readyToComplete ∨
      (evaluateCycleRollup input).state = .completed) :
    CompletionFacts input ∧ CompletionReport input (evaluateCycleRollup input) := by
  rw [evaluateCycleRollup_state] at done
  obtain ⟨⟨_, unblocked⟩, ⟨reconciled, ungated, _⟩, ended⟩ := cycleState_done done
  obtain ⟨complete, unresolved, _⟩ := of_decide_eq_true reconciled
  obtain ⟨cycle, assigned, distinct, _⟩ := admission_of_complete complete
  obtain ⟨⟨here, distinctWork⟩, settled⟩ := settled_of_complete complete
  have idle : (evaluateCycleRollup input).assignmentCounts.live = 0 := by
    rcases ended with idle | terminal
    · exact idle
    · by_contra live
      exact silent_of_complete complete rfl
        (mem_cycleReports input (.inr (.inr (.inr ⟨rfl, terminal, live⟩))))
  have every {p : TaskRollup → Prop} (holds : ∀ task ∈ (evaluateCycleRollup input).descendants, p task)
      (t : TaskRollupInput) (member : t ∈ input.tasks) : p (evaluateTask t true) :=
    holds _ ((mem_descendants_of_complete complete).mpr ⟨t, member, rfl⟩)
  constructor
  · obtain ⟨ownGates, gates⟩ := cycle_gates_clear.mp ungated
    obtain ⟨ownBlockers, blockers⟩ := cycle_blockers_clear.mp unblocked
    have dead := idle
    rw [evaluateCycleRollup_live, List.countP_eq_zero] at dead
    refine ⟨cycle, assigned, distinct, fun entry member => ?_, here, distinctWork, settled,
      fun entry member finished => accepted_of_complete complete member finished,
      ⟨ownGates, fun t member => ?_⟩, ownBlockers, fun t member => ?_⟩
    · simpa using dead _ (List.mem_map_of_mem member)
    · exact (evaluateTask_gateGaps t true).mp (every gates t member)
    · exact (evaluateTask_blockers t true).mp (every blockers t member)
  · refine ⟨fun task member => ?_, covered_of_complete complete, fun entry member finished => ?_,
      idle, unresolved, unblocked⟩
    · obtain ⟨t, given, rfl⟩ := (mem_descendants_of_complete complete).mp member
      exact ⟨(settled t given).isReconciled, (evaluateTask_complete t).mpr (settled t given)⟩
    · refine ⟨evaluateTask entry.task true, ?_, (assigned entry member).work.symm,
        accepted_of_complete complete member finished⟩
      exact (mem_descendants_of_complete complete).mpr
        ⟨entry.task, List.mem_map_of_mem member, rfl⟩

end Cycle

namespace Fixture

def cycleId : CycleId := ⟨"cycle-1"⟩

def acceptedTask (id : String) : TaskRollupInput :=
  let identity : EntityIdentity := ⟨projectId, ⟨id⟩, ⟨1⟩⟩
  { deferredTask id .direct false with
    lifecycle := .closed
    status := .closed
    acceptedOutcome := some ⟨identity, ⟨1⟩, ⟨"outcome"⟩⟩
    disposition := some (.acceptedClosed ⟨1⟩ ⟨"outcome"⟩) }

def assigned (id : String) (state : CycleAssignmentState) (task : TaskRollupInput) :
    CycleAssignmentRollupInput where
  assignment := ⟨id, cycleId, task.identity.workId, projectId, state⟩
  task

def cycle (lifecycle : CycleLifecycle) (assignments : List CycleAssignmentRollupInput) :
    CycleRollupInput where
  scope := ⟨projectId, .cycle cycleId, ⟨8⟩⟩
  cycle := ⟨cycleId, projectId, lifecycle, some ⟨10⟩, some ⟨20⟩⟩
  assignments
  gateGaps := []
  overdue := false
  blockers := []
  integrationCloseout := none

def runCycle : CycleRollupInput :=
  cycle .active [assigned "assignment-1" .completed (acceptedTask "finished"),
    assigned "assignment-2" .carriedOver (deferredTask "deferred" .direct false)]

end Fixture

theorem evaluateCycleRollup_completion_runCycle : CompletionFacts Fixture.runCycle ∧
    CompletionReport Fixture.runCycle (evaluateCycleRollup Fixture.runCycle) :=
  evaluateCycleRollup_completion (.inl (by decide))

end Boreal.Rollups
