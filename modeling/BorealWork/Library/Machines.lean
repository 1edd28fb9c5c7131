/- Machines that answer every call: the state after a run, its history, and how to prove something
about both by looking at one step. -/
import Mathlib

namespace Machines

variable {σ κ ω : Type*} (step : σ → κ → ω × σ)

def final (s : σ) (calls : List κ) : σ := calls.foldl (fun s call => (step s call).2) s

structure Entry (σ κ ω : Type*) where
  before : σ
  call : κ
  answer : ω

def entry (s : σ) (call : κ) : Entry σ κ ω := ⟨s, call, (step s call).1⟩

def Entry.after (e : Entry σ κ ω) : σ := (step e.before e.call).2

def history : σ → List κ → List (Entry σ κ ω)
  | _, [] => []
  | s, call :: calls => entry step s call :: history (step s call).2 calls

@[simp] theorem final_nil (s : σ) : final step s [] = s := rfl

@[simp] theorem final_cons (s : σ) (call : κ) (calls : List κ) :
    final step s (call :: calls) = final step (step s call).2 calls := rfl

@[simp] theorem history_nil (s : σ) : history step s [] = [] := rfl

@[simp] theorem history_cons (s : σ) (call : κ) (calls : List κ) :
    history step s (call :: calls) = entry step s call :: history step (step s call).2 calls := rfl

theorem final_append (s : σ) (calls calls' : List κ) :
    final step s (calls ++ calls') = final step (final step s calls) calls' := by
  unfold final
  rw [List.foldl_append]

theorem history_append (s : σ) (calls calls' : List κ) :
    history step s (calls ++ calls') =
      history step s calls ++ history step (final step s calls) calls' := by
  induction calls generalizing s with
  | nil => rfl
  | cons call calls ih =>
    rw [List.cons_append, history_cons, history_cons, List.cons_append, ih, final_cons]

variable {step}

theorem final_invariant {P : σ → Prop} (preserved : ∀ s call, P s → P (step s call).2) {s : σ}
    (start : P s) (calls : List κ) : P (final step s calls) := by
  induction calls generalizing s with
  | nil => exact start
  | cons call calls ih => exact ih (preserved s call start)

theorem history_invariant {P : σ → Prop} (preserved : ∀ s call, P s → P (step s call).2) {s : σ}
    (start : P s) {calls : List κ} {e : Entry σ κ ω} (member : e ∈ history step s calls) :
    P e.before ∧ e.answer = (step e.before e.call).1 := by
  induction calls generalizing s with
  | nil => cases member
  | cons call calls ih =>
    rw [history_cons, List.mem_cons] at member
    rcases member with rfl | member
    · exact ⟨start, rfl⟩
    · exact ih (preserved s call start) member

theorem mem_history {s : σ} {calls : List κ} {e : Entry σ κ ω} :
    e ∈ history step s calls ↔
      ∃ earlier call later, calls = earlier ++ call :: later ∧ e = entry step (final step s earlier) call := by
  constructor
  · intro member
    induction calls generalizing s with
    | nil => cases member
    | cons call calls ih =>
      rw [history_cons, List.mem_cons] at member
      rcases member with rfl | member
      · exact ⟨[], call, calls, rfl, rfl⟩
      · obtain ⟨earlier, call', later, rfl, rfl⟩ := ih member
        exact ⟨call :: earlier, call', later, rfl, rfl⟩
  · rintro ⟨earlier, call, later, rfl, rfl⟩
    rw [history_append, history_cons]
    exact List.mem_append_right _ List.mem_cons_self

theorem history_answer {s : σ} {calls : List κ} {e : Entry σ κ ω} (member : e ∈ history step s calls) :
    e.answer = (step e.before e.call).1 :=
  (@history_invariant _ _ _ step (fun _ => True) (fun _ _ _ => trivial) s trivial calls e member).2

theorem history_ledger {P : List (Entry σ κ ω) → σ → Prop} {s : σ} (start : P [] s) (calls : List κ)
    (kept : ∀ h t, ∀ call ∈ calls, P h t → P (h ++ [entry step t call]) (step t call).2) :
    P (history step s calls) (final step s calls) := by
  induction calls using List.reverseRecOn with
  | nil => exact start
  | append_singleton calls call ih =>
    rw [history_append, final_append]
    refine kept _ _ call (List.mem_append_right _ (List.mem_singleton_self call)) (ih ?_)
    exact fun h t earlier member => kept h t earlier (List.mem_append_left _ member)

theorem history_once {I P : σ → Prop} {p : Entry σ κ ω → Prop} [DecidablePred p]
    (kept : ∀ s call, I s → I (step s call).2) (lasting : ∀ s call, I s → P s → P (step s call).2)
    (happens : ∀ s call, I s → p (entry step s call) → ¬ P s ∧ P (step s call).2) {s : σ}
    (start : I s) (calls : List κ) : ((history step s calls).filter p).length ≤ 1 := by
  have ledger : I (final step s calls) ∧ ((history step s calls).filter p = [] ∨
      P (final step s calls) ∧ ((history step s calls).filter p).length = 1) := by
    refine history_ledger (P := fun h t => I t ∧ (h.filter p = [] ∨ P t ∧ (h.filter p).length = 1))
      ⟨start, .inl rfl⟩ calls fun h t call _ ⟨good, known⟩ => ⟨kept t call good, ?_⟩
    by_cases now : p (entry step t call)
    · obtain ⟨before, after⟩ := happens t call good now
      rw [List.filter_append, List.filter_singleton, decide_eq_true now]
      rcases known with none | ⟨already, _⟩
      · rw [none]
        exact .inr ⟨after, rfl⟩
      · exact absurd already before
    · rw [List.filter_append, List.filter_singleton, decide_eq_false now]
      simp only [Bool.cond_false, List.append_nil]
      exact known.imp_right fun ⟨already, one⟩ => ⟨lasting t call good already, one⟩
  rcases ledger.2 with none | ⟨_, one⟩
  · rw [none]
    exact Nat.zero_le 1
  · exact one.le

end Machines
