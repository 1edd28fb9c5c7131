/- Distance labels computed from a worklist.
A search pops a vertex, improves labels along its arcs and queues what improved; the queue may
hold a vertex more than once and the labels need not be final when they are first set. -/
import BorealWork.Library.Walks

namespace Worklist
open Walks

structure Frontier (V : Type*) where
  label : V → Option ℕ
  queue : List V

variable {V : Type*} {seed : V → Prop} {r : V → V → Prop} {base : ℕ} {f g h : Frontier V}

/-- Labels only improve, what improved is queued, and nothing leaves the queue. -/
structure Advance (f g : Frontier V) : Prop where
  kept : ∀ v d, f.label v = some d → ∃ d' ≤ d, g.label v = some d'
  queued : ∀ v d, g.label v = some d → f.label v = some d ∨ v ∈ g.queue
  queue : ∀ v ∈ f.queue, v ∈ g.queue

theorem Advance.refl (f : Frontier V) : Advance f f :=
  ⟨fun _ d h => ⟨d, le_rfl, h⟩, fun _ _ => .inl, fun _ => id⟩

theorem Advance.trans (first : Advance f g) (second : Advance g h) : Advance f h := by
  refine ⟨?_, ?_, fun v member => second.queue v (first.queue v member)⟩
  · intro v d labelled
    obtain ⟨d₁, low₁, labelled₁⟩ := first.kept v d labelled
    obtain ⟨d₂, low₂, labelled₂⟩ := second.kept v d₁ labelled₁
    exact ⟨d₂, low₂.trans low₁, labelled₂⟩
  · intro v d labelled
    rcases second.queued v d labelled with old | member
    · exact (first.queued v d old).imp_right (second.queue v)
    · exact .inr member

/-- Every label is the length of some walk, and everything queued has a label. -/
structure Sound (seed : V → Prop) (r : V → V → Prop) (base : ℕ) (f : Frontier V) : Prop where
  realised : ∀ v d, f.label v = some d → ∃ n, d = base + n ∧ Reach seed r n v
  labelled : ∀ v ∈ f.queue, ∃ d, f.label v = some d

structure Invariant (seed : V → Prop) (r : V → V → Prop) (base : ℕ) (f : Frontier V) : Prop
    extends Sound seed r base f where
  seeded : ∀ v, seed v → ∃ d ≤ base, f.label v = some d
  relaxed : ∀ a d, f.label a = some d → a ∉ f.queue → ∀ b, r a b → ∃ d' ≤ d + 1, f.label b = some d'

theorem Invariant.scan {label : V → Option ℕ} {current : V} {rest : List V} {d : ℕ}
    (inv : Invariant seed r base ⟨label, current :: rest⟩) (known : label current = some d)
    (advance : Advance ⟨label, rest⟩ g) (sound : Sound seed r base g)
    (scanned : ∀ b, r current b → ∃ d' ≤ d + 1, g.label b = some d') : Invariant seed r base g := by
  refine ⟨sound, ?_, ?_⟩
  · intro v start
    obtain ⟨d₀, low, labelled⟩ := inv.seeded v start
    obtain ⟨d₁, lower, labelled'⟩ := advance.kept v d₀ labelled
    exact ⟨d₁, lower.trans low, labelled'⟩
  · intro a da labelled outside b move
    have before : label a = some da := (advance.queued a da labelled).resolve_right outside
    by_cases popped : a = current
    · subst popped
      have same : d = da := Option.some.inj (known.symm.trans before)
      exact same ▸ scanned b move
    · have absent : a ∉ current :: rest := by
        intro member
        rcases List.mem_cons.mp member with equal | later
        · exact popped equal
        · exact outside (advance.queue a later)
      obtain ⟨d₀, low, labelled₀⟩ := inv.relaxed a da before absent b move
      obtain ⟨d₁, lower, labelled₁⟩ := advance.kept b d₀ labelled₀
      exact ⟨d₁, lower.trans low, labelled₁⟩

theorem Invariant.isLeast (inv : Invariant seed r base f) (done : f.queue = []) {v : V} {d : ℕ}
    (labelled : f.label v = some d) : IsLeast {m | ∃ n, m = base + n ∧ Reach seed r n v} d := by
  refine label_isLeast inv.realised inv.seeded ?_ labelled
  intro a b d labelled move
  exact inv.relaxed a d labelled (by simp [done]) b move

theorem Invariant.covers (inv : Invariant seed r base f) (done : f.queue = []) {v : V} {n : ℕ}
    (walk : Reach seed r n v) : ∃ d, f.label v = some d := by
  rw [← Option.isSome_iff_exists]
  refine label_covers ?_ ?_ walk
  · intro v start
    obtain ⟨d, _, labelled⟩ := inv.seeded v start
    exact Option.isSome_iff_exists.mpr ⟨d, labelled⟩
  · intro a b labelled move
    obtain ⟨d, labelled⟩ := Option.isSome_iff_exists.mp labelled
    obtain ⟨d', _, found⟩ := inv.relaxed a d labelled (by simp [done]) b move
    exact Option.isSome_iff_exists.mpr ⟨d', found⟩

def Frontier.requeue (f : Frontier V) (v : V) : Frontier V := ⟨f.label, f.queue ++ [v]⟩

theorem advance_requeue (f : Frontier V) (v : V) : Advance f (f.requeue v) :=
  ⟨fun _ d h => ⟨d, le_rfl, h⟩, fun _ _ => .inl, fun _ => List.mem_append_left _⟩

theorem Sound.requeue (sound : Sound seed r base f) {v : V} {d : ℕ} (known : f.label v = some d) :
    Sound seed r base (f.requeue v) := by
  refine ⟨sound.realised, ?_⟩
  intro w member
  rcases List.mem_append.mp member with old | new
  · exact sound.labelled w old
  · exact ⟨d, List.mem_singleton.mp new ▸ known⟩

/-- What is left to do: the queue, and how far each label of the scope can still fall. -/
def Frontier.work (f : Frontier V) (top : ℕ) (scope : Finset V) : ℕ :=
  f.queue.length + ∑ v ∈ scope, (f.label v).getD top

theorem work_le {top : ℕ} {scope : Finset V} (low : ∀ v d, f.label v = some d → d ≤ top) :
    f.work top scope ≤ f.queue.length + scope.card * top := by
  have bounded : ∑ v ∈ scope, (f.label v).getD top ≤ ∑ _v ∈ scope, top := by
    refine Finset.sum_le_sum ?_
    intro v _
    cases known : f.label v with
    | none => exact le_rfl
    | some d => exact low v d known
  rw [Finset.sum_const, smul_eq_mul] at bounded
  exact Nat.add_le_add_left bounded _

structure Levels (k : ℕ) (front back : List V) (f : Frontier V) : Prop where
  queue : f.queue = front ++ back
  front : ∀ v ∈ front, f.label v = some k
  back : ∀ v ∈ back, f.label v = some (k + 1)
  low : ∀ v d, f.label v = some d → d ≤ k + 1

theorem Levels.pop {k : ℕ} {front back rest : List V} {label : V → Option ℕ} {current : V}
    (levels : Levels k front back ⟨label, current :: rest⟩) :
    ∃ j front' back', label current = some j ∧ Levels j front' back' ⟨label, rest⟩ := by
  cases front with
  | nil =>
    have queue : current :: rest = back := levels.queue
    have next := levels.back
    rw [← queue] at next
    refine ⟨k + 1, rest, [], next current List.mem_cons_self, ?_⟩
    exact ⟨(List.append_nil rest).symm, fun v member => next v (List.mem_cons_of_mem _ member),
      fun v member => absurd member List.not_mem_nil,
      fun v d known => (levels.low v d known).trans (Nat.le_succ _)⟩
  | cons first front =>
    obtain ⟨same, tail⟩ := List.cons.inj levels.queue
    subst same
    refine ⟨k, front, back, levels.front _ List.mem_cons_self, ?_⟩
    exact ⟨tail, fun v member => levels.front v (List.mem_cons_of_mem _ member), levels.back, levels.low⟩

section Put

variable [DecidableEq V]

def Frontier.put (f : Frontier V) (v : V) (d : ℕ) : Frontier V :=
  ⟨fun w => if v = w then some d else f.label w, f.queue ++ [v]⟩

@[simp] theorem Frontier.put_label_self (f : Frontier V) (v : V) (d : ℕ) :
    (f.put v d).label v = some d := if_pos rfl

theorem Frontier.put_label_ne (f : Frontier V) {v w : V} (d : ℕ) (other : v ≠ w) :
    (f.put v d).label w = f.label w := if_neg other

theorem advance_put {v : V} {d : ℕ} (improves : ∀ old, f.label v = some old → d ≤ old) :
    Advance f (f.put v d) := by
  refine ⟨?_, ?_, fun _ => List.mem_append_left _⟩
  · intro w old known
    by_cases same : v = w
    · subst same
      exact ⟨d, improves old known, f.put_label_self v d⟩
    · exact ⟨old, le_rfl, (f.put_label_ne d same).trans known⟩
  · intro w new known
    by_cases same : v = w
    · exact .inr (List.mem_append_right _ (List.mem_singleton.mpr same.symm))
    · exact .inl ((f.put_label_ne d same).symm.trans known)

theorem Sound.put (sound : Sound seed r base f) {v : V} {n : ℕ} (walk : Reach seed r n v) :
    Sound seed r base (f.put v (base + n)) := by
  refine ⟨?_, ?_⟩
  · intro w d known
    by_cases same : v = w
    · subst same
      rw [Frontier.put_label_self] at known
      exact ⟨n, (Option.some.inj known).symm, walk⟩
    · exact sound.realised w d ((f.put_label_ne _ same).symm.trans known)
  · intro w member
    by_cases same : v = w
    · exact ⟨base + n, same ▸ f.put_label_self v _⟩
    · rcases List.mem_append.mp member with old | new
      · obtain ⟨d, known⟩ := sound.labelled w old
        exact ⟨d, (f.put_label_ne _ same).trans known⟩
      · exact absurd (List.mem_singleton.mp new).symm same

theorem work_put {top d : ℕ} {scope : Finset V} {v : V} (member : v ∈ scope)
    (lower : d < (f.label v).getD top) : (f.put v d).work top scope ≤ f.work top scope := by
  have fell : ∑ w ∈ scope, ((f.put v d).label w).getD top < ∑ w ∈ scope, (f.label w).getD top := by
    refine Finset.sum_lt_sum ?_ ⟨v, member, by simpa using lower⟩
    intro w _
    by_cases same : v = w
    · subst same
      simpa using lower.le
    · rw [f.put_label_ne d same]
  simp only [Frontier.work, Frontier.put, List.length_append, List.length_singleton] at fell ⊢
  omega

theorem Levels.put {k : ℕ} {front back : List V} (levels : Levels k front back f) {v : V}
    (fresh : f.label v = none) : Levels k front (back ++ [v]) (f.put v (k + 1)) := by
  have kept {w : V} {d : ℕ} (known : f.label w = some d) : (f.put v (k + 1)).label w = some d := by
    refine (f.put_label_ne _ ?_).trans known
    rintro rfl
    cases fresh.symm.trans known
  refine ⟨?_, fun w member => kept (levels.front w member), ?_, ?_⟩
  · simp only [Frontier.put, levels.queue, List.append_assoc]
  · intro w member
    rcases List.mem_append.mp member with old | new
    · exact kept (levels.back w old)
    · rw [List.mem_singleton.mp new, Frontier.put_label_self]
  · intro w d known
    by_cases same : v = w
    · subst same
      rw [Frontier.put_label_self] at known
      exact (Option.some.inj known).symm.le
    · exact levels.low w d ((f.put_label_ne _ same).symm.trans known)

end Put

end Worklist
