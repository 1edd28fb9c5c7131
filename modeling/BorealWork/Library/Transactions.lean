/- Computations over a state that may fail: what a successful one has gone through, and what a
sequence of successful ones preserves. -/
import Mathlib

namespace Transactions

variable {ε σ α β : Type} {s s' : σ}

variable {x : EStateM ε σ α} {f : α → EStateM ε σ β}

theorem bind_eq_ok {b : β} : (x >>= f) s = .ok b s' ↔ ∃ a t, x s = .ok a t ∧ f a t = .ok b s' := by
  change EStateM.bind x f s = .ok b s' ↔ _
  rw [EStateM.bind]
  cases x s with
  | ok a t => simp
  | error error t => simp

theorem pure_eq_ok {a b : α} : (pure a : EStateM ε σ α) s = .ok b s' ↔ a = b ∧ s = s' := by
  change EStateM.Result.ok a s = .ok b s' ↔ _
  simp

theorem throw_eq_ok {error : ε} {a : α} : (throw error : EStateM ε σ α) s = .ok a s' ↔ False := by
  change EStateM.Result.error error s = .ok a s' ↔ _
  simp

theorem get_eq_ok {t : σ} : (get : EStateM ε σ σ) s = .ok t s' ↔ s = t ∧ s = s' := by
  change EStateM.Result.ok s s = .ok t s' ↔ _
  simp

theorem set_eq_ok {t : σ} {u : PUnit} : (set t : EStateM ε σ PUnit) s = .ok u s' ↔ t = s' := by
  change EStateM.Result.ok PUnit.unit t = .ok u s' ↔ _
  simp

theorem ofExcept_eq_ok {r : Except ε α} {a : α} :
    (MonadExcept.ofExcept r : EStateM ε σ α) s = .ok a s' ↔ r = .ok a ∧ s = s' := by
  cases r with
  | error error => exact throw_eq_ok.trans (by simp)
  | ok b => exact pure_eq_ok.trans (by simp)

theorem discard_eq_ok {u : PUnit} : (discard x : EStateM ε σ PUnit) s = .ok u s' ↔ ∃ a, x s = .ok a s' := by
  change EStateM.map (fun _ => PUnit.unit) x s = .ok u s' ↔ _
  rw [EStateM.map]
  cases x s with
  | ok a t => simp
  | error error t => simp

theorem bind_of_ok {a : α} (ran : x s = .ok a s') : (x >>= f) s = f a s' := by
  change EStateM.bind x f s = _
  rw [EStateM.bind, ran]

theorem bind_of_error {error : ε} (failed : x s = .error error s') : (x >>= f) s = .error error s' := by
  change EStateM.bind x f s = _
  rw [EStateM.bind, failed]

theorem bind_eq_error {error : ε} :
    (x >>= f) s = .error error s' ↔
      x s = .error error s' ∨ ∃ a t, x s = .ok a t ∧ f a t = .error error s' := by
  cases ran : x s with
  | ok a t =>
    rw [bind_of_ok ran]
    simp
  | error error' t =>
    rw [bind_of_error ran]
    simp

theorem ofExcept_eq_error {r : Except ε α} {error : ε} :
    (MonadExcept.ofExcept r : EStateM ε σ α) s = .error error s' ↔ r = .error error ∧ s = s' := by
  cases r with
  | error error' =>
    change EStateM.Result.error error' s = _ ↔ _
    simp
  | ok a =>
    change EStateM.Result.ok a s = _ ↔ _
    simp

theorem ofExcept_error (error : ε) (s : σ) :
    (MonadExcept.ofExcept (.error error) : EStateM ε σ α) s = .error error s := rfl

section Runs

variable {step : α → EStateM ε σ PUnit} {l : List α}

theorem forM_nil_ok {u : PUnit} : ([].forM step : EStateM ε σ PUnit) s = .ok u s' ↔ s = s' := by
  change (pure PUnit.unit : EStateM ε σ PUnit) s = .ok u s' ↔ _
  rw [pure_eq_ok]
  exact and_iff_right rfl

theorem forM_cons_ok {a : α} {u : PUnit} : ((a :: l).forM step) s = .ok u s' ↔
    ∃ t, step a s = .ok PUnit.unit t ∧ l.forM step t = .ok u s' := by
  change (step a >>= fun _ => l.forM step) s = .ok u s' ↔ _
  rw [bind_eq_ok]
  exact ⟨fun ⟨_, t, first, rest⟩ => ⟨t, first, rest⟩, fun ⟨t, first, rest⟩ => ⟨_, t, first, rest⟩⟩

theorem forM_append_ok {l' : List α} {u : PUnit} : ((l ++ l').forM step) s = .ok u s' ↔
    ∃ t, l.forM step s = .ok PUnit.unit t ∧ l'.forM step t = .ok u s' := by
  induction l generalizing s with
  | nil =>
    rw [List.nil_append]
    constructor
    · intro rest
      exact ⟨s, forM_nil_ok.mpr rfl, rest⟩
    · intro ⟨t, same, rest⟩
      cases forM_nil_ok.mp same
      exact rest
  | cons a l ih =>
    rw [List.cons_append, forM_cons_ok]
    constructor
    · intro ⟨t, first, later⟩
      obtain ⟨t', middle, rest⟩ := ih.mp later
      exact ⟨t', forM_cons_ok.mpr ⟨t, first, middle⟩, rest⟩
    · intro ⟨t', front, rest⟩
      obtain ⟨t, first, middle⟩ := forM_cons_ok.mp front
      exact ⟨t, first, ih.mpr ⟨t', middle, rest⟩⟩

end Runs

end Transactions
