/- The books of a container: into which counters its descendants go, and what the percentages say. -/
import BorealWork.CycleRollups

namespace Boreal.Rollups
open Sorting

section Dispositions

variable {t : TaskRollupInput}

theorem evaluateTask_disposed :
    (evaluateTask t true).reconciliation =
      match t.disposition with
      | none => .unresolved
      | some (.acceptedClosed _ _) => .acceptedClosed
      | some (.acceptedCancelled _ _) => .acceptedCancelled
      | some (.deferred _) => .deferred
      | some (.replaced _ _) => .replaced := by
  unfold evaluateTask dispositionFindings
  cases t.disposition with
  | none => rfl
  | some disposition => cases disposition <;> rfl

theorem evaluateTask_disposed_iff :
    (evaluateTask t true).reconciliation.isReconciled = t.disposition.isSome := by
  rw [evaluateTask_disposed]
  cases t.disposition with
  | none => rfl
  | some disposition => cases disposition <;> rfl

theorem evaluateTask_unresolved_iff :
    (evaluateTask t true).reconciliation = .unresolved ↔ t.disposition.isSome = false := by
  rw [evaluateTask_disposed]
  cases t.disposition with
  | none => simp
  | some disposition => cases disposition <;> simp

end Dispositions

section Counting

/-- Descendants as the container takes them: those of other projects and those repeated are corrupt. -/
def ContainerRollupInput.taken (input : ContainerRollupInput) : List TaskRollupInput :=
  (admitDescendants input.scope.projectId ∅ input.descendants).map Prod.fst

variable {input : ContainerRollupInput}

theorem taken_length : input.taken.length = input.descendants.length := by
  have each (seen : Std.TreeSet WorkId) (t : TaskRollupInput) :
      (admitDescendant input.scope.projectId seen t).1.identity = t.identity := by
    simp only [admitDescendant]
    split_ifs <;> rfl
  have identities : (admitDescendants input.scope.projectId ∅ input.descendants).map (·.1.identity) =
      input.descendants.map (·.identity) := by
    rw [admitDescendants_eq]
    exact Lookup.map_admitAll each
  have lengths := congrArg List.length identities
  rw [List.length_map, List.length_map] at lengths
  rw [ContainerRollupInput.taken, List.length_map, lengths]

theorem container_descendants : (evaluateContainerRollup input).descendants.Perm
    (input.taken.map (evaluateTask · true)) := by
  rw [ContainerRollupInput.taken, List.map_map]
  exact sortOn_perm _ _

theorem container_counter {counter : RollupTotals → ℕ} {flag : TaskRollup → Bool}
    (step : ∀ totals task, counter (totals.record task) = counter totals + (flag task).toNat)
    (start : counter .zero = 0)
    (scope : ∀ totals gateGaps blockers overdue,
      counter (RollupTotals.addScope totals gateGaps blockers overdue) = counter totals) :
    counter (evaluateContainerRollup input).totals = (input.taken.map (evaluateTask · true)).countP flag := by
  have counted (tasks : List TaskRollup) : (tasks.map fun task => (flag task).toNat).sum = tasks.countP flag := by
    induction tasks with
    | nil => rfl
    | cons task rest ih =>
      rw [List.map_cons, List.sum_cons, ih, List.countP_cons, Nat.add_comm]
      cases flag task <;> rfl
  change counter (RollupTotals.addScope _ _ _ _) = _
  rw [scope, ← container_descendants.countP_eq flag, ← counted]
  refine (foldl_record step _ _).trans ?_
  rw [start, Nat.zero_add]
  rfl

theorem countP_add_countP {α : Type*} {l : List α} {p q r : α → Bool}
    (divided : ∀ a ∈ l, (r a).toNat = (p a).toNat + (q a).toNat) :
    l.countP r = l.countP p + l.countP q := by
  induction l with
  | nil => rfl
  | cons a rest ih =>
    rw [List.forall_mem_cons] at divided
    have here := divided.1
    rw [List.countP_cons, List.countP_cons, List.countP_cons, ih divided.2]
    revert here
    cases p a <;> cases q a <;> cases r a <;> simp <;> omega

end Counting

section Books

variable {input : ContainerRollupInput}

/-- A disposition that a fault of the task, or of its record, keeps from counting. -/
def uncounted (t : TaskRollupInput) : Bool :=
  t.disposition.isSome && (evaluateTask t true).quality ≠ .complete

def closedReconciled (task : TaskRollup) : Bool :=
  task.isReconciled && task.reconciliation = .acceptedClosed

theorem container_total : (evaluateContainerRollup input).totals.total = input.taken.length := by
  rw [@container_counter input RollupTotals.total (fun _ => true) (fun _ _ => rfl) rfl fun _ _ _ _ => rfl,
    List.countP_true, List.length_map]

theorem container_reconciled : (evaluateContainerRollup input).totals.reconciledScope =
    (input.taken.map (evaluateTask · true)).countP TaskRollup.isReconciled :=
  container_counter (fun _ _ => rfl) rfl fun _ _ _ _ => rfl

theorem container_unresolved : (evaluateContainerRollup input).totals.unresolvedScope =
    (input.taken.map (evaluateTask · true)).countP fun task =>
      decide (task.isReconciled = false ∧ task.reconciliation = .unresolved) :=
  container_counter (fun _ _ => rfl) rfl fun _ _ _ _ => rfl

theorem container_divided : (evaluateContainerRollup input).totals.total =
    (evaluateContainerRollup input).totals.reconciledScope +
      (evaluateContainerRollup input).totals.unresolvedScope + input.taken.countP uncounted := by
  let settled (t : TaskRollupInput) : Bool := (evaluateTask t true).isReconciled || t.disposition = none
  have counted : input.taken.countP settled = (evaluateContainerRollup input).totals.reconciledScope +
      (evaluateContainerRollup input).totals.unresolvedScope := by
    rw [container_reconciled, container_unresolved, List.countP_map, List.countP_map]
    refine countP_add_countP fun t _ => ?_
    simp only [settled, Function.comp_apply, TaskRollup.isReconciled, evaluateTask_disposed_iff,
      evaluateTask_unresolved_iff]
    cases t.disposition with
    | none => simp
    | some disposition => cases (evaluateTask t true).quality <;> rfl
  rw [container_total, ← counted, ← List.countP_true]
  refine countP_add_countP fun t _ => ?_
  simp only [settled, uncounted, TaskRollup.isReconciled, evaluateTask_disposed_iff]
  cases t.disposition with
  | none => simp
  | some disposition => cases (evaluateTask t true).quality <;> rfl

theorem container_reconciled_parts : (evaluateContainerRollup input).totals.reconciledScope =
    (evaluateContainerRollup input).descendants.countP closedReconciled +
      (evaluateContainerRollup input).totals.acceptedCancelled +
      (evaluateContainerRollup input).totals.deferred + (evaluateContainerRollup input).totals.replaced := by
  let state (s : ReconciliationState) (task : TaskRollup) : Bool :=
    decide (task.quality = .complete ∧ task.reconciliation = s)
  have cancelled : (evaluateContainerRollup input).totals.acceptedCancelled =
      (input.taken.map (evaluateTask · true)).countP (state .acceptedCancelled) :=
    container_counter (fun _ _ => rfl) rfl fun _ _ _ _ => rfl
  have deferred : (evaluateContainerRollup input).totals.deferred =
      (input.taken.map (evaluateTask · true)).countP (state .deferred) :=
    container_counter (fun _ _ => rfl) rfl fun _ _ _ _ => rfl
  have replaced : (evaluateContainerRollup input).totals.replaced =
      (input.taken.map (evaluateTask · true)).countP (state .replaced) :=
    container_counter (fun _ _ => rfl) rfl fun _ _ _ _ => rfl
  rw [container_reconciled, cancelled, deferred, replaced, container_descendants.countP_eq]
  generalize input.taken.map (evaluateTask · true) = tasks
  have first : tasks.countP (fun task => closedReconciled task || state .acceptedCancelled task) =
      tasks.countP closedReconciled + tasks.countP (state .acceptedCancelled) := by
    refine countP_add_countP fun task _ => ?_
    simp only [closedReconciled, state, TaskRollup.isReconciled]
    cases task.quality <;> cases task.reconciliation <;> rfl
  have second : tasks.countP
        (fun task => closedReconciled task || state .acceptedCancelled task || state .deferred task) =
      tasks.countP (fun task => closedReconciled task || state .acceptedCancelled task) +
        tasks.countP (state .deferred) := by
    refine countP_add_countP fun task _ => ?_
    simp only [closedReconciled, state, TaskRollup.isReconciled]
    cases task.quality <;> cases task.reconciliation <;> rfl
  rw [← first, ← second]
  refine countP_add_countP fun task _ => ?_
  simp only [closedReconciled, state, TaskRollup.isReconciled]
  cases task.quality <;> cases task.reconciliation <;> rfl

theorem percentage_eq_hundred {part total : ℕ} (some_ : total ≠ 0) (le : part ≤ total) :
    part * 100 / total = 100 ↔ part = total := by
  have positive : 0 < total := Nat.pos_of_ne_zero some_
  constructor
  · intro all
    have bound := (Nat.le_div_iff_mul_le positive).mp all.ge
    omega
  · rintro rfl
    exact Nat.mul_div_cancel_left 100 positive

/-- The books of every container add up, and what is reported of them in percent is exact. -/
theorem containerRollup_accounts (input : ContainerRollupInput) :
    let totals := (evaluateContainerRollup input).totals
    totals.total = input.descendants.length ∧
    totals.total = totals.reconciledScope + totals.unresolvedScope + input.taken.countP uncounted ∧
    totals.reconciledScope = (evaluateContainerRollup input).descendants.countP closedReconciled +
      totals.acceptedCancelled + totals.deferred + totals.replaced ∧
    (∀ p ∈ totals.acceptedPercentage, p = totals.acceptedClosed * 100 / totals.total ∧ p ≤ 100 ∧
      (p = 100 ↔ totals.acceptedClosed = totals.total)) ∧
    ∀ p ∈ totals.reconciledPercentage, p = totals.reconciledScope * 100 / totals.total ∧ p ≤ 100 ∧
      (p = 100 ↔ totals.reconciledScope = totals.total) := by
  intro totals
  have consistent : totals.Consistent := evaluateContainerRollup_consistent input
  obtain ⟨accepted, reconciled⟩ := consistent.percentages
  have part : totals.reconciledScope ≤ totals.total := le_of_add_le_left consistent.scope
  refine ⟨?_, container_divided, container_reconciled_parts, ?_, ?_⟩
  · exact container_total.trans taken_length
  · intro p reported
    have given : totals.total ≠ 0 := by
      intro none
      rw [RollupTotals.acceptedPercentage, if_pos (.inl none)] at reported
      cases reported
    rw [accepted p reported]
    exact ⟨rfl, percentage_le consistent.accepted, percentage_eq_hundred given consistent.accepted⟩
  · intro p reported
    have given : totals.total ≠ 0 := by
      intro none
      rw [RollupTotals.reconciledPercentage, if_pos (.inl none)] at reported
      cases reported
    rw [reconciled p reported]
    exact ⟨rfl, percentage_le part, percentage_eq_hundred given part⟩

namespace Fixture

/-- A deferral without a reason, which makes its task corrupt. -/
def baselessDeferral : ContainerRollupInput :=
  container .open [{ deferredTask "deferred" .direct false with disposition := some (.deferred "") }] none

end Fixture

theorem baselessDeferral_missing :
    (evaluateContainerRollup Fixture.baselessDeferral).totals.total ≠
      (evaluateContainerRollup Fixture.baselessDeferral).totals.reconciledScope +
        (evaluateContainerRollup Fixture.baselessDeferral).totals.unresolvedScope +
        Fixture.baselessDeferral.taken.countP fun t =>
          t.disposition.isSome && (evaluateTask t true).quality = .incomplete := by
  decide

end Books

end Boreal.Rollups
