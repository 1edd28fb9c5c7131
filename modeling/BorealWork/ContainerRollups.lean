/- When a container is ready to close, and when it is reported closed. -/
import BorealWork.RollupTasks

namespace Boreal.Rollups
open Sorting

theorem foldl_record {counter : RollupTotals → ℕ} {amount : TaskRollup → ℕ}
    (step : ∀ totals task, counter (totals.record task) = counter totals + amount task)
    (tasks : List TaskRollup) (totals : RollupTotals) :
    counter (tasks.foldl RollupTotals.record totals) =
      counter totals + (tasks.map amount).sum := by
  induction tasks generalizing totals with
  | nil => rfl
  | cons task rest ih =>
    rw [List.foldl_cons, ih, step, List.map_cons, List.sum_cons, Nat.add_assoc]

theorem counter_eq_zero (counter : RollupTotals → ℕ) {flag : TaskRollup → Bool}
    (step : ∀ totals task, counter (totals.record task) = counter totals + (flag task).toNat)
    (start : counter .zero = 0) (tasks : List TaskRollup) :
    counter (tasks.foldl RollupTotals.record .zero) = 0 ↔ ∀ task ∈ tasks, flag task = false := by
  rw [foldl_record step, start, Nat.zero_add, List.sum_eq_zero_iff]
  simp only [List.forall_mem_map]
  exact forall₂_congr fun task _ => by cases flag task <;> simp

structure RollupTotals.Consistent (totals : RollupTotals) : Prop where
  accepted : totals.acceptedClosed ≤ totals.total
  parts : totals.acceptedCancelled + totals.deferred + totals.replaced ≤ totals.reconciledScope
  scope : totals.reconciledScope + totals.unresolvedScope ≤ totals.total

variable {totals : RollupTotals}

theorem RollupTotals.Consistent.record (h : totals.Consistent)
    (task : TaskRollup) : (totals.record task).Consistent := by
  obtain ⟨accepted, parts, scope⟩ := h
  constructor
  · have one : (decide (task.acceptedClosed = true ∧ task.quality ≠ .corrupt)).toNat ≤ 1 :=
      Bool.toNat_le _
    simp only [RollupTotals.record]
    omega
  · have one : (decide (task.quality = .complete ∧ task.reconciliation = .acceptedCancelled)).toNat +
        (decide (task.quality = .complete ∧ task.reconciliation = .deferred)).toNat +
        (decide (task.quality = .complete ∧ task.reconciliation = .replaced)).toNat ≤
        task.isReconciled.toNat := by
      rw [TaskRollup.isReconciled]
      cases task.reconciliation <;> cases task.quality <;> decide
    simp only [RollupTotals.record]
    omega
  · have one : task.isReconciled.toNat + (decide (task.isReconciled = false ∧
        task.reconciliation = .unresolved)).toNat ≤ 1 := by
      cases task.isReconciled <;> cases task.reconciliation <;> decide
    simp only [RollupTotals.record]
    omega

theorem RollupTotals.Consistent.foldl (tasks : List TaskRollup)
    (h : totals.Consistent) : (tasks.foldl RollupTotals.record totals).Consistent := by
  induction tasks generalizing totals with
  | nil => exact h
  | cons task rest ih => exact ih (h.record task)

theorem percentage_le {part total : ℕ} (le : part ≤ total) : part * 100 / total ≤ 100 :=
  Nat.div_le_of_le_mul (by omega)

theorem RollupTotals.Consistent.percentages (h : totals.Consistent) :
    (∀ p ∈ totals.acceptedPercentage, p = totals.acceptedClosed * 100 / totals.total) ∧
    ∀ p ∈ totals.reconciledPercentage, p = totals.reconciledScope * 100 / totals.total := by
  have kept {part : ℕ} (le : part ≤ totals.total) :
      part * 100 / totals.total % 2 ^ 8 = part * 100 / totals.total :=
    Nat.mod_eq_of_lt ((percentage_le le).trans_lt (by decide))
  constructor
  · intro p reported
    simp only [RollupTotals.acceptedPercentage, Option.mem_def, Option.ite_none_left_eq_some,
      Option.some.injEq] at reported
    exact reported.2 ▸ kept h.accepted
  · intro p reported
    simp only [RollupTotals.reconciledPercentage, Option.mem_def, Option.ite_none_left_eq_some,
      Option.some.injEq] at reported
    exact reported.2 ▸ kept (le_of_add_le_left h.scope)

section Admission

variable {projectId : ProjectId} {inputs : List TaskRollupInput}

variable {seen : Std.TreeSet WorkId} {input : TaskRollupInput}

theorem admitDescendant_silent
    (here : input.identity.projectId = projectId) (fresh : input.identity.workId ∉ seen) :
    admitDescendant projectId seen input = (input, []) := by
  simp [admitDescendant, here, Std.TreeSet.contains_iff_mem, fresh]

theorem admitDescendant_structural
    (silent : ∀ d ∈ (admitDescendant projectId seen input).2, d.isStructural = false) :
    input.identity.projectId = projectId ∧ input.identity.workId ∉ seen := by
  by_contra h
  rw [not_and_or, not_not] at h
  rcases h with foreign | duplicate
  · have reported := silent (.foreignProject input.identity.workId)
      (by simp [admitDescendant, foreign])
    cases reported
  · have reported := silent (.duplicateDescendant input.identity.workId)
      (by simp [admitDescendant, duplicate])
    cases reported

theorem admitDescendants_eq (seen : Std.TreeSet WorkId) : admitDescendants projectId seen inputs =
    Lookup.admitAll (·.identity.workId) (admitDescendant projectId) seen inputs := by
  induction inputs generalizing seen with
  | nil => rfl
  | cons t rest ih => rw [admitDescendants, Lookup.admitAll, ih]

theorem admitDescendant_fresh (fresh : input.identity.workId ∉ seen) :
    admitDescendant projectId seen input = admitDescendant projectId ∅ input := by
  have unseen : seen.contains input.identity.workId = false := by
    rwa [← Bool.not_eq_true, Std.TreeSet.contains_iff_mem]
  simp [admitDescendant, unseen]

theorem admitDescendants_distinct (distinct : (inputs.map (·.identity.workId)).Nodup)
    (fresh : ∀ t ∈ inputs, t.identity.workId ∉ seen) :
    admitDescendants projectId seen inputs = inputs.map (admitDescendant projectId ∅) := by
  rw [admitDescendants_eq]
  exact Lookup.admitAll_distinct (fun _ _ => admitDescendant_fresh) distinct fresh

theorem admitDescendants_silent (here : ∀ t ∈ inputs, t.identity.projectId = projectId)
    (distinct : (inputs.map (·.identity.workId)).Nodup) (fresh : ∀ t ∈ inputs, t.identity.workId ∉ seen) :
    admitDescendants projectId seen inputs = inputs.map (·, []) := by
  rw [admitDescendants_distinct distinct fresh]
  apply List.map_congr_left
  intro t member
  exact admitDescendant_silent (here t member) Std.TreeSet.not_mem_emptyc

theorem admitDescendants_structural
    (silent : ∀ a ∈ admitDescendants projectId seen inputs,
      ∀ d ∈ a.2, d.isStructural = false) :
    (∀ t ∈ inputs, t.identity.projectId = projectId) ∧
      (inputs.map (·.identity.workId)).Nodup ∧ ∀ t ∈ inputs, t.identity.workId ∉ seen := by
  rw [admitDescendants_eq] at silent
  refine ⟨fun t member => ?_, ?_⟩
  · obtain ⟨before, taken⟩ :=
      Lookup.exists_admitAll (·.identity.workId) (admitDescendant projectId) seen member
    exact (admitDescendant_structural (silent _ taken)).1
  · by_contra again
    obtain ⟨t, _, before, old, taken⟩ := Lookup.admitAll_repeated (admitDescendant projectId) again
    exact (admitDescendant_structural (silent _ taken)).2 old

end Admission

section Closeout

variable {spec : IntegrationCloseoutSpec} {tasks : List TaskRollup}

/-- The named closeout neither is a container nor, where it is required, stands in the way. -/
def CloseoutPasses (closeout : Option IntegrationCloseoutRollup × List RollupDiagnostic) : Prop :=
  (∀ d ∈ closeout.2, d.isStructural = false) ∧
    closeout.1.any IntegrationCloseoutRollup.blocksCloseout = false

theorem filter_workId_cases (distinct : (tasks.map TaskRollup.workId).Nodup) (id : WorkId) :
    ((∀ t ∈ tasks, t.workId ≠ id) ∧ tasks.filter (·.workId = id) = []) ∨
      ∃ t ∈ tasks, t.workId = id ∧ (∀ u ∈ tasks, u.workId = id → u = t) ∧
        tasks.filter (·.workId = id) = [t] := by
  have unique {t u : TaskRollup} (ht : t ∈ tasks) (hu : u ∈ tasks) (same : t.workId = u.workId) :
      t = u := List.inj_on_of_nodup_map distinct ht hu same
  cases found : tasks.filter (·.workId = id) with
  | nil =>
    refine .inl ⟨fun t member same => ?_, rfl⟩
    have : t ∈ tasks.filter (·.workId = id) := List.mem_filter.mpr ⟨member, decide_eq_true same⟩
    rw [found] at this
    exact absurd this List.not_mem_nil
  | cons t rest =>
    have named {u : TaskRollup} (member : u ∈ t :: rest) : u ∈ tasks ∧ u.workId = id := by
      rw [← found, List.mem_filter] at member
      exact ⟨member.1, of_decide_eq_true member.2⟩
    obtain ⟨member, here⟩ := named List.mem_cons_self
    refine .inr ⟨t, member, here, fun u hu same => unique hu member (same.trans here.symm), ?_⟩
    cases rest with
    | nil => rfl
    | cons u rest =>
      have other := named (List.mem_cons_of_mem t List.mem_cons_self)
      have twice : (t :: u :: rest).Nodup := found ▸ (distinct.of_map _).filter _
      rw [unique member other.1 (here.trans other.2.symm)] at twice
      exact absurd List.mem_cons_self (List.nodup_cons.mp twice).1

theorem closeoutPasses_iff (distinct : (tasks.map TaskRollup.workId).Nodup)
    (complete : ∀ t ∈ tasks, t.quality = .complete) :
    CloseoutPasses (evaluateIntegrationCloseout (some spec) tasks) ↔
      (∀ t ∈ tasks, t.workId = spec.workId → t.executionMode = .direct) ∧
        (spec.required = true → ∃ t ∈ tasks, t.workId = spec.workId ∧ t.acceptedClosed = true) := by
  rcases filter_workId_cases distinct spec.workId with
    ⟨absent, named⟩ | ⟨t, member, here, unique, named⟩
  · simp only [evaluateIntegrationCloseout, named, integrationCloseoutState]
    have unnamed : ∀ t ∈ tasks, t.workId = spec.workId → t.executionMode = .direct :=
      fun t member same => absurd same (absent t member)
    rw [and_iff_right unnamed]
    cases required : spec.required with
    | false => simp [CloseoutPasses, IntegrationCloseoutRollup.blocksCloseout]
    | true =>
      refine iff_of_false (by simp [CloseoutPasses, IntegrationCloseoutRollup.blocksCloseout]) ?_
      intro accepted
      obtain ⟨t, member, same, _⟩ := accepted rfl
      exact absent t member same
  · have direct : (∀ u ∈ tasks, u.workId = spec.workId → u.executionMode = .direct) ↔
        t.executionMode = .direct :=
      ⟨fun h => h t member here, fun h u hu same => (unique u hu same) ▸ h⟩
    have accepted : (∃ u ∈ tasks, u.workId = spec.workId ∧ u.acceptedClosed = true) ↔
        t.acceptedClosed = true := by
      constructor
      · rintro ⟨u, hu, same, closed⟩
        rwa [← unique u hu same]
      · exact fun closed => ⟨t, member, here, closed⟩
    rw [direct, accepted]
    simp only [evaluateIntegrationCloseout, named, integrationCloseoutState, complete t member]
    by_cases mode : t.executionMode = .direct
    · cases spec.required <;> cases t.acceptedClosed <;> cases t.isReconciled <;>
        simp [CloseoutPasses, IntegrationCloseoutRollup.blocksCloseout, mode]
    · simp [CloseoutPasses, mode, RollupDiagnostic.isStructural]

end Closeout

section Descendants

variable {projectId : ProjectId} {inputs : List TaskRollupInput}

theorem evaluateDescendants_own (here : ∀ t ∈ inputs, t.identity.projectId = projectId)
    (distinct : (inputs.map (·.identity.workId)).Nodup) :
    (evaluateDescendants projectId inputs true).descendants =
      sortOn TaskRollup.workId (inputs.map (evaluateTask · true)) := by
  simp only [evaluateDescendants,
    admitDescendants_silent here distinct fun _ _ => Std.TreeSet.not_mem_emptyc, List.map_map,
    Function.comp_def]

theorem mem_descendants (here : ∀ t ∈ inputs, t.identity.projectId = projectId)
    (distinct : (inputs.map (·.identity.workId)).Nodup) {task : TaskRollup} :
    task ∈ (evaluateDescendants projectId inputs true).descendants ↔
      ∃ t ∈ inputs, evaluateTask t true = task := by
  rw [evaluateDescendants_own here distinct, mem_sortOn, List.mem_map]

theorem descendants_distinct (here : ∀ t ∈ inputs, t.identity.projectId = projectId)
    (distinct : (inputs.map (·.identity.workId)).Nodup) :
    ((evaluateDescendants projectId inputs true).descendants.map TaskRollup.workId).Nodup := by
  rw [evaluateDescendants_own here distinct]
  refine ((sortOn_perm _ _).map TaskRollup.workId).nodup_iff.mpr ?_
  rwa [List.map_map]

theorem descendants_silent :
    (∀ d ∈ (evaluateDescendants projectId inputs true).diagnostics, d.isStructural = false) ↔
      (∀ t ∈ inputs, t.identity.projectId = projectId) ∧
        (inputs.map (·.identity.workId)).Nodup ∧
        ∀ t ∈ inputs, (evaluateTask t true).quality ≠ .corrupt := by
  have reported : (∀ d ∈ (evaluateDescendants projectId inputs true).diagnostics,
      d.isStructural = false) ↔
        (∀ a ∈ admitDescendants projectId ∅ inputs, ∀ d ∈ a.2, d.isStructural = false) ∧
        ∀ a ∈ admitDescendants projectId ∅ inputs,
          ∀ d ∈ (evaluateTask a.1 true).diagnostics, d.isStructural = false := by
    simp only [evaluateDescendants, mem_sortOn, List.forall_mem_append, List.forall_mem_flatMap,
      List.forall_mem_map]
  have corrupt (t : TaskRollupInput) : (evaluateTask t true).quality ≠ .corrupt ↔
      ∀ d ∈ (evaluateTask t true).diagnostics, d.isStructural = false := by
    rw [ne_eq, evaluateTask_corrupt]
    simp only [not_exists, not_and, Bool.not_eq_true]
  rw [reported]
  constructor
  · rintro ⟨admitted, judged⟩
    obtain ⟨here, distinct, fresh⟩ := admitDescendants_structural admitted
    refine ⟨here, distinct, fun t member => (corrupt t).mpr ?_⟩
    rw [admitDescendants_silent here distinct fresh] at judged
    exact judged (t, []) (List.mem_map.mpr ⟨t, member, rfl⟩)
  · rintro ⟨here, distinct, judged⟩
    rw [admitDescendants_silent here distinct fun _ _ => Std.TreeSet.not_mem_emptyc]
    refine ⟨List.forall_mem_map.mpr fun _ _ => List.forall_mem_nil _, ?_⟩
    exact List.forall_mem_map.mpr fun t member => (corrupt t).mp (judged t member)

end Descendants

theorem evaluateContainerRollup_consistent (input : ContainerRollupInput) :
    (evaluateContainerRollup input).totals.Consistent := by
  have counted : (evaluateDescendants input.scope.projectId input.descendants true).totals.Consistent :=
    RollupTotals.Consistent.foldl _ ⟨Nat.le_refl 0, Nat.le_refl 0, Nat.le_refl 0⟩
  exact { counted with }

structure CloseoutFacts (input : ContainerRollupInput) : Prop where
  container : input.scope.subject.isContainer = true
  projectLocal : ∀ t ∈ input.descendants, t.identity.projectId = input.scope.projectId
  distinct : (input.descendants.map (·.identity.workId)).Nodup
  settled : ∀ t ∈ input.descendants, Settled t
  ungated : input.gateGaps = [] ∧ ∀ t ∈ input.descendants, t.gateGaps = []
  unblocked : input.blockers = [] ∧ ∀ t ∈ input.descendants, t.blockers = []
  summarised : input.summaryPresent = true
  integrated : ∀ spec ∈ input.integrationCloseout, spec.required = true →
    ∃ t ∈ input.descendants, t.identity.workId = spec.workId ∧ t.executionMode = .direct ∧
      t.acceptedOutcome.isSome = true

def CloseoutDirect (input : ContainerRollupInput) : Prop :=
  ∀ spec ∈ input.integrationCloseout, ∀ t ∈ input.descendants,
    t.identity.workId = spec.workId → t.executionMode = .direct

/-- No descendant is being executed. -/
def Idle (input : ContainerRollupInput) : Prop :=
  ∀ t ∈ input.descendants, t.activeExecution = false

section Container

/-- What the state selection finds in the way of a closeout: nothing. -/
structure Unhindered (rollup : ContainerRollup) : Prop where
  sound : ∀ d ∈ rollup.diagnostics, d.isStructural = false
  blockers : rollup.blockers = []
  integration : rollup.integrationCloseout.any IntegrationCloseoutRollup.blocksCloseout = false
  gates : rollup.gateReviewGaps = []
  resolved : rollup.totals.unresolvedScope = 0
  complete : rollup.totals.incompleteDescendants = 0

variable (input : ContainerRollupInput)

theorem evaluateContainerRollup_state : (evaluateContainerRollup input).state =
    containerState input.lifecycle
      ((evaluateContainerRollup input).diagnostics.any RollupDiagnostic.isStructural)
      ((evaluateContainerRollup input).integrationCloseout.any
        IntegrationCloseoutRollup.blocksCloseout) input.summaryPresent
      (evaluateContainerRollup input).gateReviewGaps (evaluateContainerRollup input).blockers
      (evaluateContainerRollup input).totals := by
  have sorted (l : List RollupDiagnostic) : (sortOn RollupDiagnostic.key l).any
      RollupDiagnostic.isStructural = l.any RollupDiagnostic.isStructural :=
    (sortOn_perm _ l).any_eq
  simp only [evaluateContainerRollup, sorted]

theorem unhindered_selected (rollup : ContainerRollup) (summaryPresent : Bool) :
    (¬ (rollup.diagnostics.any RollupDiagnostic.isStructural = true ∨ rollup.blockers ≠ []) ∧
      ¬ (rollup.integrationCloseout.any IntegrationCloseoutRollup.blocksCloseout = true ∨
        summaryPresent = false ∨ rollup.gateReviewGaps ≠ [] ∨ rollup.totals.unresolvedScope ≠ 0 ∨
        rollup.totals.incompleteDescendants ≠ 0)) ↔
      Unhindered rollup ∧ summaryPresent = true := by
  simp only [not_or, List.any_eq_true, not_exists, not_and, Bool.not_eq_true, Bool.not_eq_false,
    ne_eq, not_not]
  constructor
  · intro passed
    obtain ⟨⟨sound, blockers⟩, integration, summary, gates, resolved, complete⟩ := passed
    exact ⟨⟨sound, blockers, integration, gates, resolved, complete⟩, summary⟩
  · intro clear
    obtain ⟨clear, summary⟩ := clear
    exact ⟨⟨clear.sound, clear.blockers⟩, clear.integration, summary, clear.gates, clear.resolved,
      clear.complete⟩

section Selection

variable {lifecycle : PersistedLifecycle} {structuralAttention integrationBlocks summaryPresent : Bool}
  {gateReviewGaps : List GateId} {blockers : List RollupBlocker} {totals : RollupTotals}

theorem containerState_closed : containerState lifecycle structuralAttention integrationBlocks
      summaryPresent gateReviewGaps blockers totals = .closed ↔
    lifecycle = .closed ∧ ¬ (structuralAttention = true ∨ blockers ≠ []) ∧
      ¬ (integrationBlocks = true ∨ summaryPresent = false ∨ gateReviewGaps ≠ [] ∨
        totals.unresolvedScope ≠ 0 ∨ totals.incompleteDescendants ≠ 0) := by
  rw [containerState.eq_def]
  by_cases attention : structuralAttention = true ∨ blockers ≠ []
  · simp [attention]
  · rw [if_neg attention]
    cases lifecycle with
    | draft => simp
    | cancelled => simp
    | closed =>
      by_cases hindered : integrationBlocks = true ∨ summaryPresent = false ∨
          gateReviewGaps ≠ [] ∨ totals.unresolvedScope ≠ 0 ∨ totals.incompleteDescendants ≠ 0
      · simp [hindered]
      · simp only [hindered, attention, if_false, not_false_eq_true, and_self]
    | «open» =>
      refine iff_of_false ?_ fun h => nomatch h.1
      split_ifs <;> simp

theorem containerState_readyToClose : containerState lifecycle structuralAttention integrationBlocks
      summaryPresent gateReviewGaps blockers totals = .readyToClose ↔
    lifecycle = .open ∧ (¬ (structuralAttention = true ∨ blockers ≠ []) ∧
      ¬ (integrationBlocks = true ∨ summaryPresent = false ∨ gateReviewGaps ≠ [] ∨
        totals.unresolvedScope ≠ 0 ∨ totals.incompleteDescendants ≠ 0)) ∧
      totals.activeWork = 0 := by
  rw [containerState.eq_def]
  by_cases attention : structuralAttention = true ∨ blockers ≠ []
  · simp [attention]
  · rw [if_neg attention]
    cases lifecycle with
    | draft => simp
    | cancelled => simp
    | closed =>
      refine iff_of_false ?_ fun h => nomatch h.1
      split_ifs <;> simp
    | «open» =>
      simp only [ite_eq_right_iff, reduceCtorEq, imp_false, attention, not_false_eq_true, true_and,
        not_or, not_not, ne_eq, and_assoc]

end Selection

theorem state_closed : (evaluateContainerRollup input).state = .closed ↔
    input.lifecycle = .closed ∧ Unhindered (evaluateContainerRollup input) ∧
      input.summaryPresent = true := by
  rw [evaluateContainerRollup_state, containerState_closed, unhindered_selected]

theorem state_readyToClose : (evaluateContainerRollup input).state = .readyToClose ↔
    input.lifecycle = .open ∧ (Unhindered (evaluateContainerRollup input) ∧
      input.summaryPresent = true) ∧ (evaluateContainerRollup input).totals.activeWork = 0 := by
  rw [evaluateContainerRollup_state, containerState_readyToClose, unhindered_selected]

variable {input}

theorem forall_descendants (here : ∀ t ∈ input.descendants, t.identity.projectId = input.scope.projectId)
    (distinct : (input.descendants.map (·.identity.workId)).Nodup) {p : TaskRollup → Prop} :
    (∀ task ∈ (evaluateContainerRollup input).descendants, p task) ↔
      ∀ t ∈ input.descendants, p (evaluateTask t true) := by
  constructor
  · intro h t member
    exact h _ ((mem_descendants here distinct).mpr ⟨t, member, rfl⟩)
  · intro h task member
    obtain ⟨t, ht, rfl⟩ := (mem_descendants here distinct).mp member
    exact h t ht

variable (input)

theorem diagnostics_sound :
    (∀ d ∈ (evaluateContainerRollup input).diagnostics, d.isStructural = false) ↔
      input.scope.subject.isContainer = true ∧
      (∀ d ∈ (evaluateDescendants input.scope.projectId input.descendants true).diagnostics,
        d.isStructural = false) ∧
      ∀ d ∈ (evaluateIntegrationCloseout input.integrationCloseout
        (evaluateContainerRollup input).descendants).2, d.isStructural = false := by
  simp only [evaluateContainerRollup, mem_sortOn, List.forall_mem_append, and_assoc]
  refine and_congr_left fun _ => ?_
  cases input.scope.subject.isContainer with
  | true => simp
  | false => simp [RollupDiagnostic.isStructural]

theorem gates_clear : (evaluateContainerRollup input).gateReviewGaps = [] ↔
    input.gateGaps = [] ∧ ∀ task ∈ (evaluateContainerRollup input).descendants,
      task.gateGaps = [] := by
  simp [evaluateContainerRollup, normalizedGates]

theorem blockers_clear : (evaluateContainerRollup input).blockers = [] ↔
    input.blockers = [] ∧ ∀ task ∈ (evaluateContainerRollup input).descendants,
      task.blockers = [] := by
  simp [evaluateContainerRollup, normalizedBlockers]

theorem unresolved_clear : (evaluateContainerRollup input).totals.unresolvedScope = 0 ↔
    ∀ task ∈ (evaluateContainerRollup input).descendants,
      ¬ (task.isReconciled = false ∧ task.reconciliation = .unresolved) := by
  refine (counter_eq_zero RollupTotals.unresolvedScope (fun _ _ => rfl) rfl
    (evaluateContainerRollup input).descendants).trans ?_
  simp only [decide_eq_false_iff_not]

theorem incomplete_clear : (evaluateContainerRollup input).totals.incompleteDescendants = 0 ↔
    ∀ task ∈ (evaluateContainerRollup input).descendants, task.quality ≠ .incomplete := by
  refine (counter_eq_zero RollupTotals.incompleteDescendants (fun _ _ => rfl) rfl
    (evaluateContainerRollup input).descendants).trans ?_
  simp only [decide_eq_false_iff_not, ne_eq]

theorem active_clear : (evaluateContainerRollup input).totals.activeWork = 0 ↔
    ∀ task ∈ (evaluateContainerRollup input).descendants, task.activeExecution = false :=
  counter_eq_zero RollupTotals.activeWork (fun _ _ => rfl) rfl
    (evaluateContainerRollup input).descendants

theorem closeout_clear (here : ∀ t ∈ input.descendants, t.identity.projectId = input.scope.projectId)
    (distinct : (input.descendants.map (·.identity.workId)).Nodup)
    (settled : ∀ t ∈ input.descendants, Settled t) :
    CloseoutPasses (evaluateIntegrationCloseout input.integrationCloseout
        (evaluateContainerRollup input).descendants) ↔
      CloseoutDirect input ∧ ∀ spec ∈ input.integrationCloseout, spec.required = true →
        ∃ t ∈ input.descendants, t.identity.workId = spec.workId ∧
          t.acceptedOutcome.isSome = true := by
  rw [CloseoutDirect]
  cases input.integrationCloseout with
  | none => simp [CloseoutPasses, evaluateIntegrationCloseout]
  | some spec =>
    have complete : ∀ task ∈ (evaluateContainerRollup input).descendants,
        task.quality = .complete :=
      (forall_descendants here distinct).mpr fun t member =>
        (evaluateTask_complete t).mpr (settled t member)
    have unique : ((evaluateContainerRollup input).descendants.map TaskRollup.workId).Nodup :=
      descendants_distinct here distinct
    rw [closeoutPasses_iff unique complete, forall_descendants here distinct]
    simp only [Option.mem_some_iff, forall_eq', evaluateTask_workId, evaluateTask_executionMode]
    refine and_congr_right fun _ => forall_congr' fun _ => ?_
    constructor
    · rintro ⟨task, member, named, accepted⟩
      obtain ⟨t, ht, rfl⟩ := (mem_descendants here distinct).mp member
      exact ⟨t, ht, named, (settled t ht).acceptedClosed.mp accepted⟩
    · rintro ⟨t, ht, named, accepted⟩
      exact ⟨_, (mem_descendants here distinct).mpr ⟨t, ht, rfl⟩, named,
        (settled t ht).acceptedClosed.mpr accepted⟩

theorem unhindered_iff :
    Unhindered (evaluateContainerRollup input) ∧ input.summaryPresent = true ↔
      CloseoutFacts input ∧ CloseoutDirect input := by
  constructor
  · rintro ⟨clear, summary⟩
    obtain ⟨container, own, passes⟩ := (diagnostics_sound input).mp clear.sound
    obtain ⟨here, distinct, uncorrupted⟩ := descendants_silent.mp own
    have gates := (gates_clear input).mp clear.gates
    have blockers := (blockers_clear input).mp clear.blockers
    have incomplete := (incomplete_clear input).mp clear.complete
    simp only [forall_descendants here distinct, evaluateTask_gateGaps, evaluateTask_blockers]
      at gates blockers incomplete
    have settled (t : TaskRollupInput) (member : t ∈ input.descendants) : Settled t := by
      rw [← evaluateTask_complete]
      cases quality : (evaluateTask t true).quality with
      | complete => rfl
      | incomplete => exact absurd quality (incomplete t member)
      | corrupt => exact absurd quality (uncorrupted t member)
    obtain ⟨direct, accepted⟩ :=
      (closeout_clear input here distinct settled).mp ⟨passes, clear.integration⟩
    refine ⟨⟨container, here, distinct, settled, gates, blockers, summary, ?_⟩, direct⟩
    intro spec given required
    obtain ⟨t, member, named, outcome⟩ := accepted spec given required
    exact ⟨t, member, named, direct spec given t member named, outcome⟩
  · rintro ⟨facts, direct⟩
    have every {p : TaskRollup → Prop} := @forall_descendants input facts.projectLocal facts.distinct p
    have complete (t : TaskRollupInput) (member : t ∈ input.descendants) :
        (evaluateTask t true).quality = .complete :=
      (evaluateTask_complete t).mpr (facts.settled t member)
    have closeout := (closeout_clear input facts.projectLocal facts.distinct facts.settled).mpr
      ⟨direct, fun spec given required => by
        obtain ⟨t, member, named, _, outcome⟩ := facts.integrated spec given required
        exact ⟨t, member, named, outcome⟩⟩
    refine ⟨⟨?_, ?_, closeout.2, ?_, ?_, ?_⟩, facts.summarised⟩
    · refine (diagnostics_sound input).mpr ⟨facts.container, ?_, closeout.1⟩
      refine descendants_silent.mpr ⟨facts.projectLocal, facts.distinct, fun t member => ?_⟩
      rw [complete t member]
      exact RollupQuality.noConfusion
    · rw [blockers_clear, every]
      simpa using facts.unblocked
    · rw [gates_clear, every]
      simpa using facts.ungated
    · rw [unresolved_clear, every]
      intro t member unresolved
      exact (facts.settled t member).resolved ((evaluateTask_unresolved t).mp unresolved.2)
    · rw [incomplete_clear, every]
      intro t member
      rw [complete t member]
      exact RollupQuality.noConfusion

theorem closed_iff : (evaluateContainerRollup input).state = .closed ↔
    input.lifecycle = .closed ∧ CloseoutFacts input ∧ CloseoutDirect input := by
  rw [state_closed, unhindered_iff]

theorem readyToClose_iff : (evaluateContainerRollup input).state = .readyToClose ↔
    input.lifecycle = .open ∧ CloseoutFacts input ∧ CloseoutDirect input ∧ Idle input := by
  rw [state_readyToClose, unhindered_iff, and_assoc]
  refine and_congr_right fun _ => and_congr_right fun facts => and_congr_right fun _ => ?_
  rw [active_clear, forall_descendants facts.projectLocal facts.distinct]
  rfl

/-- A container is ready to close exactly when it is open on facts that allow a closeout, no named
closeout is a container and no descendant is executed; one descendant that is corrupt, degraded or
unresolved keeps it from being ready and from being closed. -/
theorem evaluateContainerRollup_readyToClose :
    ((evaluateContainerRollup input).state = .readyToClose ↔
      input.lifecycle = .open ∧ CloseoutFacts input ∧ CloseoutDirect input ∧ Idle input) ∧
    ∀ t ∈ input.descendants,
      t.integrity ≠ .valid ∨ t.disposition = none ∨ (evaluateTask t true).quality ≠ .complete →
      (evaluateContainerRollup input).state ≠ .readyToClose ∧
        (evaluateContainerRollup input).state ≠ .closed := by
  refine ⟨readyToClose_iff input, fun t member damaged => ?_⟩
  have unsettled : ¬ Settled t := by
    intro settled
    rcases damaged with integrity | unresolved | quality
    · exact integrity settled.trustworthy.valid
    · exact settled.resolved unresolved
    · exact quality ((evaluateTask_complete t).mpr settled)
  constructor
  · rw [ne_eq, readyToClose_iff]
    exact fun h => unsettled (h.2.1.settled t member)
  · rw [ne_eq, closed_iff]
    exact fun h => unsettled (h.2.1.settled t member)

def ContainerRollupInput.reopened (input : ContainerRollupInput) : ContainerRollupInput :=
  { input with lifecycle := .open }

theorem CloseoutFacts.reopened_iff : CloseoutFacts input.reopened ↔ CloseoutFacts input :=
  ⟨fun h => { h with }, fun h => { h with }⟩

/-- A container that is reported closed would have been ready to close exactly when, its other
facts allowing it, no descendant is executed; the closed state does not ask for that. -/
theorem closed_readyToClose_iff :
    ((evaluateContainerRollup input).state = .closed →
      (evaluateContainerRollup input.reopened).state = .readyToClose) ↔
    (input.lifecycle = .closed → CloseoutFacts input → CloseoutDirect input → Idle input) := by
  have ready : (evaluateContainerRollup input.reopened).state = .readyToClose ↔
      CloseoutFacts input ∧ CloseoutDirect input ∧ Idle input := by
    rw [readyToClose_iff, CloseoutFacts.reopened_iff]
    exact and_iff_right rfl
  rw [closed_iff, ready]
  tauto

end Container

namespace Fixture

def projectId : ProjectId := ⟨"project-1"⟩

/-- A descendant whose work was moved to a later scope while it is, or is not, executed. -/
def deferredTask (id : String) (executionMode : WorkModel.ExecutionMode) (activeExecution : Bool) :
    TaskRollupInput where
  identity := ⟨projectId, ⟨id⟩, ⟨1⟩⟩
  executionMode
  lifecycle := .open
  status := if activeExecution then .inProgress else .queued
  claimableForActor := false
  activeExecution
  acceptedOutcome := none
  disposition := some (.deferred "moved to next cycle")
  requiresReconciliation := true
  gateGaps := []
  overdue := false
  blockers := []
  integrity := .valid

def container (lifecycle : PersistedLifecycle) (descendants : List TaskRollupInput)
    (integrationCloseout : Option IntegrationCloseoutSpec) : ContainerRollupInput where
  scope := ⟨projectId, .container ⟨"container"⟩, ⟨8⟩⟩
  lifecycle
  descendants
  gateGaps := []
  overdue := false
  blockers := []
  summaryPresent := true
  integrationCloseout

def nestedCloseout : ContainerRollupInput :=
  container .open [deferredTask "nested" .container false] (some ⟨⟨"nested"⟩, false⟩)

def activeUnderClosed : ContainerRollupInput :=
  container .closed [deferredTask "deferred" .direct true] none

end Fixture

theorem not_readyToClose_nestedCloseout :
    Fixture.nestedCloseout.lifecycle = .open ∧ CloseoutFacts Fixture.nestedCloseout ∧
      Idle Fixture.nestedCloseout ∧
      (evaluateContainerRollup Fixture.nestedCloseout).state ≠ .readyToClose := by
  have settled : ∀ t ∈ Fixture.nestedCloseout.descendants, Settled t :=
    List.forall_mem_singleton.mpr ((evaluateTask_complete _).mp (by decide))
  refine ⟨rfl, ⟨rfl, by decide, by decide, settled, by decide,
    by decide, rfl, ?_⟩, by simp [Idle, Fixture.nestedCloseout, Fixture.container,
      Fixture.deferredTask], by decide⟩
  intro spec given required
  cases given
  cases required

theorem closed_not_readyToClose_activeUnderClosed :
    Fixture.activeUnderClosed.lifecycle = .closed ∧
      (evaluateContainerRollup Fixture.activeUnderClosed).state = .closed ∧
      (evaluateContainerRollup Fixture.activeUnderClosed.reopened).state ≠ .readyToClose := by
  decide

end Boreal.Rollups
