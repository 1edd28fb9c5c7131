/- What holds of the results of a computation with a state, whatever state it begins in, if it does
not fail. -/
import BorealWork.Library.Drain

namespace Outcomes
open Drain

variable {σ ε α β : Type} {p : α → Prop} {q : β → Prop}

def Ensures (x : StateT σ (Except ε) α) (p : α → Prop) : Prop := ∀ s a s', x s = .ok (a, s') → p a

variable {f : α → StateT σ (Except ε) β} {x : StateT σ (Except ε) α}

theorem stateT_bind_eq_ok {s : σ}
    {done : β × σ} : (x >>= f) s = .ok done ↔ ∃ a s', x s = .ok (a, s') ∧ f a s' = .ok done := by
  change (x s >>= fun result => f result.1 result.2) = .ok done ↔ _
  rw [bind_eq_ok]
  constructor
  · rintro ⟨⟨a, s'⟩, first, later⟩
    exact ⟨a, s', first, later⟩
  · rintro ⟨a, s', first, later⟩
    exact ⟨(a, s'), first, later⟩

theorem Ensures.bind (first : Ensures x p) (each : ∀ a, p a → Ensures (f a) q) : Ensures (x >>= f) q := by
  intro s b s' done
  obtain ⟨a, between, run, later⟩ := stateT_bind_eq_ok.mp done
  exact each a (first s a between run) between b s' later

theorem Ensures.trivial (x : StateT σ (Except ε) α) : Ensures x fun _ => True := fun _ _ _ _ => True.intro

theorem Ensures.last (each : ∀ a, Ensures (f a) q) : Ensures (x >>= f) q :=
  (Ensures.trivial x).bind fun a _ => each a

theorem Ensures.pure {a : α} (holds : p a) : Ensures (Pure.pure a : StateT σ (Except ε) α) p := by
  intro s b s' done
  cases done
  exact holds

theorem Ensures.ite {c : Prop} [Decidable c] {x y : StateT σ (Except ε) α} (first : c → Ensures x p)
    (second : ¬ c → Ensures y p) : Ensures (if c then x else y) p := by
  split
  · exact first ‹c›
  · exact second ‹¬ c›

end Outcomes
