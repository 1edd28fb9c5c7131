/- Instants compared with a moving clock: before the earliest of the future instants none is reached. -/
import BorealWork.Library.Sorting

namespace Timers
open Sorting

variable {τ : Type*} [LinearOrder τ] {now later t : τ}

/-- The clock may move from `now` to `later` without reaching `t`. -/
def Unreached (now later t : τ) : Prop := now < t → later < t

theorem Unreached.lt_iff (h : Unreached now later t) (after : now ≤ later) : later < t ↔ now < t :=
  ⟨after.trans_lt, h⟩

theorem Unreached.le_iff (h : Unreached now later t) (after : now ≤ later) : t ≤ later ↔ t ≤ now := by
  rw [← not_lt, ← not_lt, h.lt_iff after]

variable {o : Option τ}

theorem filter_future (before : ∀ t ∈ o.filter (now < ·), later < t)
    (after : now ≤ later) : o.filter (later < ·) = o.filter (now < ·) := by
  cases o with
  | none => rfl
  | some t =>
    rw [Option.filter_some, Option.filter_some]
    by_cases future : now < t
    · have still : later < t := before t (Option.mem_filter_iff.mpr ⟨rfl, decide_eq_true future⟩)
      rw [decide_eq_true future, decide_eq_true still]
    · have past : ¬ later < t := fun still => future (after.trans_lt still)
      rw [decide_eq_false future, decide_eq_false past]

variable {l : List τ}

theorem lt_of_min? (before : ∀ next ∈ l.min?, later < next) : ∀ t ∈ l, later < t := by
  intro t member
  cases least : l.min? with
  | none =>
    rw [List.min?_eq_none_iff] at least
    exact absurd member (least ▸ List.not_mem_nil)
  | some next => exact (before next least).trans_le ((List.min?_eq_some_iff.mp least).2 t member)

theorem future_of_min? {next : τ} (least : next ∈ (l.filter (now < ·)).min?) : now < next :=
  of_decide_eq_true (List.mem_filter.mp (List.min?_eq_some_iff.mp least).1).2

theorem unreached_of_min?
    (before : ∀ next ∈ (l.filter (now < ·)).min?, later < next) : ∀ t ∈ l, Unreached now later t := by
  intro t member future
  exact lt_of_min? before t (List.mem_filter.mpr ⟨member, decide_eq_true future⟩)

end Timers
