/- Chains of checks: refusals of which the first one counts, reports of which all are kept, and
elements that are each checked against the keys of those in front of them. -/
import BorealWork.Library.Drain

namespace Checks

variable {α β κ ρ δ : Type*}

def refuseIf (c : Prop) [Decidable c] (refusal : ρ) : Option ρ := if c then some refusal else none

@[simp] theorem refuseIf_eq_none {c : Prop} [Decidable c] {refusal : ρ} :
    refuseIf c refusal = none ↔ ¬ c := by
  rw [refuseIf, ite_eq_right_iff]
  exact imp_congr_right fun _ => iff_of_false (Option.some_ne_none refusal) id

def reportIf (c : Prop) [Decidable c] (report : δ) : List δ := if c then [report] else []

@[simp] theorem reportIf_eq_nil {c : Prop} [Decidable c] {report : δ} : reportIf c report = [] ↔ ¬ c := by
  rw [reportIf, ite_eq_right_iff]
  exact imp_congr_right fun _ => iff_of_false (List.cons_ne_nil report []) id

def scan (report : List α → α → List δ) : List α → List α → List δ
  | _, [] => []
  | before, a :: rest => report before a ++ scan report (before ++ [a]) rest

theorem scan_eq_nil {report : List α → α → List δ} {l : List α} {before : List α} :
    scan report before l = [] ↔
      ∀ front a back, l = front ++ a :: back → report (before ++ front) a = [] := by
  induction l generalizing before with
  | nil => simp [scan]
  | cons first rest ih =>
    rw [scan, List.append_eq_nil_iff, ih]
    constructor
    · intro clean front a back split
      cases front with
      | nil =>
        obtain ⟨rfl, rfl⟩ := List.cons.inj split
        exact (List.append_nil before).symm ▸ clean.1
      | cons b front =>
        obtain ⟨rfl, tail⟩ := List.cons.inj split
        have later := clean.2 front a back tail
        rwa [List.append_assoc] at later
    · intro clean
      refine ⟨?_, ?_⟩
      · have own := clean [] first rest rfl
        rwa [List.append_nil] at own
      · intro front a back split
        have later := clean (first :: front) a back (by rw [split, List.cons_append])
        rwa [List.append_assoc]

def repeated [DecidableEq κ] (key : α → κ) (report : α → δ) (before : List α) (a : α) : List δ :=
  reportIf (key a ∈ before.map key) (report a)

theorem scan_repeated_eq_nil [DecidableEq κ] {key : α → κ} {report : α → δ} {l : List α} :
    scan (repeated key report) [] l = [] ↔ (l.map key).Nodup := by
  rw [scan_eq_nil]
  simp only [repeated, reportIf_eq_nil, List.nil_append]
  constructor
  · intro fresh
    induction l using List.reverseRecOn with
    | nil => exact List.nodup_nil
    | append_singleton l a ih =>
      rw [List.map_append, List.map_singleton, List.nodup_append_comm, List.singleton_append,
        List.nodup_cons]
      refine ⟨fresh l a [] rfl, ih ?_⟩
      intro front b back split
      exact fresh front b (back ++ [a]) (by rw [split, List.append_assoc, List.cons_append])
  · intro distinct front a back split member
    rw [split, List.map_append, List.map_cons] at distinct
    exact (List.nodup_append.mp distinct).2.2 _ member _ List.mem_cons_self rfl

section Fresh

variable {ε : Type} (key : α → κ) (check : List κ → α → Except ε Unit)

def checkFresh : List κ → List α → Except ε Unit
  | _, [] => .ok ()
  | seen, a :: rest => do
    check seen a
    checkFresh (key a :: seen) rest

variable {key check} {own : α → Prop}

theorem checkFresh_eq_ok (each : ∀ seen a, check seen a = .ok () ↔ key a ∉ seen ∧ own a) {seen : List κ}
    {l : List α} : checkFresh key check seen l = .ok () ↔
      (∀ a ∈ l, own a) ∧ (l.map key).Nodup ∧ ∀ a ∈ l, key a ∉ seen := by
  induction l generalizing seen with
  | nil => simp [checkFresh]
  | cons a rest ih =>
    rw [checkFresh, Drain.check_eq_ok, each, ih, List.forall_mem_cons, List.forall_mem_cons,
      List.map_cons, List.nodup_cons]
    constructor
    · rintro ⟨⟨fresh, here⟩, others, distinct, apart⟩
      refine ⟨⟨here, others⟩, ⟨?_, distinct⟩, fresh, fun b member seen =>
        apart b member (List.mem_cons_of_mem _ seen)⟩
      intro again
      obtain ⟨b, member, same⟩ := List.mem_map.mp again
      exact apart b member (same ▸ List.mem_cons_self)
    · rintro ⟨⟨here, others⟩, ⟨single, distinct⟩, fresh, apart⟩
      refine ⟨⟨fresh, here⟩, others, distinct, fun b member seen => ?_⟩
      rcases List.mem_cons.mp seen with same | seen
      · exact single (same ▸ List.mem_map_of_mem member)
      · exact apart b member seen

end Fresh

end Checks
