/- Loops: a partial step iterated until it stops, with a measure in place of fuel accounting, passes
over a list, and steps that may fail. -/
import Mathlib

namespace Drain

variable {σ : Type*}

/-- Run `step` until it stops, or until the fuel is gone. -/
def drain (step : σ → Option σ) : ℕ → σ → σ
  | 0, s => s
  | n + 1, s => match step s with
      | none => s
      | some s' => drain step n s'

theorem drain_invariant {step : σ → Option σ} {P : σ → Prop}
    (preserved : ∀ s s', P s → step s = some s' → P s') (n : ℕ) {s : σ} (start : P s) :
    P (drain step n s) := by
  induction n generalizing s with
  | zero => exact start
  | succ n ih =>
    cases h : step s with
    | none => simpa only [drain, h] using start
    | some s' => simpa only [drain, h] using ih (preserved s s' start h)

theorem drain_stopped {step : σ → Option σ} {P : σ → Prop} (μ : σ → ℕ)
    (preserved : ∀ s s', P s → step s = some s' → P s')
    (lowered : ∀ s s', P s → step s = some s' → μ s' < μ s)
    {n : ℕ} {s : σ} (start : P s) (fuel : μ s ≤ n) : step (drain step n s) = none := by
  induction n generalizing s with
  | zero =>
    cases h : step s with
    | none => simp only [drain, h]
    | some s' =>
      have := lowered s s' start h
      omega
  | succ n ih =>
    cases h : step s with
    | none => simp only [drain, h]
    | some s' =>
      have := lowered s s' start h
      simpa only [drain, h] using ih (preserved s s' start h) (by omega)

theorem foldl_pass {α : Type*} {f : σ → α → σ} {P : σ → Prop} {R : σ → σ → Prop}
    {Q : α → σ → Prop} (refl : ∀ s, R s s) (trans : ∀ s t u, R s t → R t u → R s u)
    (lasting : ∀ a s t, R s t → Q a s → Q a t) {l : List α}
    (each : ∀ a ∈ l, ∀ s, P s → P (f s a) ∧ R s (f s a) ∧ Q a (f s a)) {s : σ} (start : P s) :
    P (l.foldl f s) ∧ R s (l.foldl f s) ∧ ∀ a ∈ l, Q a (l.foldl f s) := by
  induction l generalizing s with
  | nil => exact ⟨start, refl s, fun a member => absurd member List.not_mem_nil⟩
  | cons a rest ih =>
    rw [List.forall_mem_cons] at each ⊢
    obtain ⟨kept, moved, own⟩ := each.1 s start
    obtain ⟨done, later, others⟩ := ih each.2 kept
    exact ⟨done, trans _ _ _ moved later, lasting a _ _ later own, others⟩

theorem bind_eq_ok {ε α β : Type} {x : Except ε α} {f : α → Except ε β} {b : β} :
    x >>= f = .ok b ↔ ∃ a, x = .ok a ∧ f a = .ok b := by
  cases x with
  | error error => simp [bind, Except.bind]
  | ok a => simp [bind, Except.bind]

theorem check_eq_ok {ε β : Type} {check : Except ε Unit} {x : Except ε β} {b : β} :
    (check >>= fun _ => x) = .ok b ↔ check = .ok () ∧ x = .ok b := by
  rw [bind_eq_ok]
  constructor
  · rintro ⟨_, passed, done⟩
    exact ⟨passed, done⟩
  · rintro ⟨passed, done⟩
    exact ⟨(), passed, done⟩

theorem ok_bind {ε α β : Type} (a : α) (f : α → Except ε β) : Except.ok a >>= f = f a := rfl

theorem bind_congr' {ε α β : Type} {x : Except ε α} {f g : α → Except ε β}
    (alike : ∀ a, x = .ok a → f a = g a) : x >>= f = x >>= g := by
  cases x with
  | error error => rfl
  | ok a => exact alike a rfl

theorem map_eq_ok {ε α β : Type} {x : Except ε α} {f : α → β} {b : β} :
    x.map f = .ok b ↔ ∃ a, x = .ok a ∧ f a = b := by
  cases x <;> simp [Except.map]

theorem mapError_eq_ok {ε ε' α : Type} {x : Except ε α} {f : ε → ε'} {a : α} :
    x.mapError f = .ok a ↔ x = .ok a := by
  cases x <;> simp [Except.mapError]

/-- A step that fails exactly on its condition. -/
def refuse {ε : Type} (c : Prop) [Decidable c] (error : ε) : Except ε Unit :=
  if c then .error error else .ok ()

theorem refuse_eq_ok {ε : Type} {c : Prop} [Decidable c] {error : ε} {u : Unit} :
    refuse c error = .ok u ↔ ¬ c := by
  rw [refuse]
  by_cases h : c
  · simp [h]
  · simp [h]

theorem refuse_of_not {ε : Type} {c : Prop} [Decidable c] {error : ε} (allowed : ¬ c) :
    refuse c error = .ok () := refuse_eq_ok.mpr allowed

/-- A check that is made under a condition only. -/
def onlyIf {ε : Type} (c : Prop) [Decidable c] (check : Except ε Unit) : Except ε Unit :=
  if c then check else .ok ()

theorem onlyIf_eq_ok {ε : Type} {c : Prop} [Decidable c] {check : Except ε Unit} {u : Unit} :
    onlyIf c check = .ok u ↔ (c → check = .ok ()) := by
  rw [onlyIf]
  by_cases h : c
  · simp [h]
  · simp [h]

theorem elim_eq_ok {ε α β : Type} {o : Option α} {error : ε} {f : α → Except ε β} {b : β} :
    o.elim (.error error) f = .ok b ↔ ∃ a, o = some a ∧ f a = .ok b := by
  cases o with
  | none => simp
  | some a => simp

theorem found_eq_ok {ε α : Type} {o : Option α} {error : ε} {a : α} :
    o.elim (Except.error error) Except.ok = (.ok a : Except ε α) ↔ o = some a := by
  rw [elim_eq_ok]
  simp only [Except.ok.injEq, exists_eq_right]

theorem discard_eq_ok {ε α : Type} {x : Except ε α} {u : Unit} :
    (discard x : Except ε Unit) = .ok u ↔ ∃ a, x = .ok a := by
  cases x with
  | error error => simp [discard, Functor.discard, Functor.mapConst, Except.map]
  | ok a => simp [discard, Functor.discard, Functor.mapConst, Except.map]

theorem option_forM_eq_ok {α ε : Type} {check : α → Except ε Unit} {o : Option α} {u : Unit} :
    o.forM check = .ok u ↔ ∀ a ∈ o, check a = .ok () := by
  cases o with
  | none => simp [Option.forM, pure, Except.pure]
  | some a => simp [Option.forM]

theorem forM_eq_ok {α ε : Type*} {check : α → Except ε Unit} {l : List α} :
    l.forM check = .ok () ↔ ∀ a ∈ l, check a = .ok () := by
  induction l with
  | nil => exact iff_of_true rfl fun a member => absurd member List.not_mem_nil
  | cons a rest ih =>
    rw [List.forall_mem_cons, ← ih]
    change (check a >>= fun _ => rest.forM check) = .ok () ↔ _
    cases check a with
    | error error => simp [bind, Except.bind]
    | ok done => simp [bind, Except.bind]

theorem mapM_eq_ok {α β ε : Type} {f : α → Except ε β} {l : List α} {r : List β} :
    l.mapM f = .ok r ↔ List.Forall₂ (fun a b => f a = .ok b) l r := by
  induction l generalizing r with
  | nil =>
    rw [List.mapM_nil, List.forall₂_nil_left_iff]
    exact ⟨fun same => (Except.ok.inj same).symm, fun same => congrArg Except.ok same.symm⟩
  | cons a rest ih =>
    rw [List.mapM_cons, List.forall₂_cons_left_iff, bind_eq_ok]
    constructor
    · rintro ⟨b, converted, passed⟩
      obtain ⟨tail, later, same⟩ := bind_eq_ok.mp passed
      exact ⟨b, tail, converted, ih.mp later, (Except.ok.inj same).symm⟩
    · rintro ⟨b, tail, converted, later, rfl⟩
      exact ⟨b, converted, bind_eq_ok.mpr ⟨tail, ih.mpr later, rfl⟩⟩

theorem mapM_eq_ok_map {α β ε : Type} {f : α → Except ε β} {g : α → β} {valid : α → Prop}
    (each : ∀ a b, f a = .ok b ↔ valid a ∧ b = g a) {l : List α} {r : List β} :
    l.mapM f = .ok r ↔ (∀ a ∈ l, valid a) ∧ r = l.map g := by
  rw [mapM_eq_ok]
  simp only [each]
  induction l generalizing r with
  | nil => simp
  | cons a l ih =>
    rw [List.forall₂_cons_left_iff, List.forall_mem_cons, List.map_cons]
    constructor
    · rintro ⟨b, rest, ⟨valid, rfl⟩, later, rfl⟩
      obtain ⟨all, rfl⟩ := ih.mp later
      exact ⟨⟨valid, all⟩, rfl⟩
    · rintro ⟨⟨valid, all⟩, rfl⟩
      exact ⟨g a, l.map g, ⟨valid, rfl⟩, ih.mpr ⟨all, rfl⟩, rfl⟩

theorem mapM_map_eq_ok {α β γ ε : Type} {f : β → Except ε γ} {g : α → β} {h : α → γ} {l : List α}
    (each : ∀ a ∈ l, f (g a) = .ok (h a)) : (l.map g).mapM f = .ok (l.map h) := by
  rw [mapM_eq_ok, List.forall₂_map_left_iff, List.forall₂_map_right_iff, List.forall₂_same]
  exact each

theorem exists_partner {α β : Type*} {R : α → β → Prop} {l : List α} {r : List β}
    (paired : List.Forall₂ R l r) : ∀ b ∈ r, ∃ a ∈ l, R a b := by
  induction paired with
  | nil => exact fun b member => absurd member List.not_mem_nil
  | @cons a b l r here _ ih =>
    rw [List.forall_mem_cons]
    refine ⟨⟨a, List.mem_cons_self, here⟩, fun b' member => ?_⟩
    obtain ⟨a', listed, related⟩ := ih b' member
    exact ⟨a', List.mem_cons_of_mem _ listed, related⟩

theorem foldlM_checked {ε α σ : Type} {check : α → Except ε Unit} {f : σ → α → σ} {l : List α} {s s' : σ} :
    l.foldlM (fun s a => do
      check a
      pure (f s a)) s = .ok s' ↔ (∀ a ∈ l, check a = .ok ()) ∧ s' = l.foldl f s := by
  induction l generalizing s with
  | nil => exact ⟨fun passed => ⟨List.forall_mem_nil _, (Except.ok.inj passed).symm⟩, fun same => same.2 ▸ rfl⟩
  | cons a rest ih =>
    rw [List.foldlM_cons, bind_eq_ok, List.forall_mem_cons, List.foldl_cons, and_assoc]
    constructor
    · rintro ⟨t, first, later⟩
      obtain ⟨passed, taken⟩ := check_eq_ok.mp first
      obtain rfl := Except.ok.inj taken
      exact ⟨passed, ih.mp later⟩
    · rintro ⟨passed, later⟩
      exact ⟨f s a, check_eq_ok.mpr ⟨passed, rfl⟩, ih.mpr later⟩

theorem foldlM_invariant {ε α σ : Type} {f : σ → α → Except ε σ} {P : σ → Prop} {l : List α}
    (preserved : ∀ s a s', P s → f s a = .ok s' → P s') {s s' : σ} (start : P s)
    (passed : l.foldlM f s = .ok s') : P s' := by
  induction l generalizing s with
  | nil =>
    cases passed
    exact start
  | cons a rest ih =>
    rw [List.foldlM_cons, bind_eq_ok] at passed
    obtain ⟨t, first, later⟩ := passed
    exact ih (preserved s a t start first) later

theorem foldlM_pass {ε α σ κ : Type} {f : σ → α → Except ε σ} {key : α → κ} {P : σ → Prop}
    {before after : α → σ → Prop} {l : List α}
    (turn : ∀ s a s', P s → before a s → f s a = .ok s' → P s' ∧ after a s')
    (apart : ∀ s a s' b, P s → before a s → f s a = .ok s' → key a ≠ key b →
      (before b s → before b s') ∧ (after b s → after b s'))
    (distinct : (l.map key).Nodup) {s s' : σ} (start : P s) (ready : ∀ a ∈ l, before a s)
    (passed : l.foldlM f s = .ok s') :
    P s' ∧ (∀ a ∈ l, after a s') ∧ ∀ b, key b ∉ l.map key → after b s → after b s' := by
  induction l generalizing s with
  | nil =>
    cases passed
    exact ⟨start, fun a member => absurd member List.not_mem_nil, fun _ _ => id⟩
  | cons a rest ih =>
    rw [List.foldlM_cons, bind_eq_ok] at passed
    obtain ⟨t, first, later⟩ := passed
    rw [List.map_cons, List.nodup_cons] at distinct
    rw [List.forall_mem_cons] at ready
    obtain ⟨kept, own⟩ := turn s a t start ready.1 first
    have still (b : α) (member : b ∈ rest) : before b t := by
      refine (apart s a t b start ready.1 first ?_).1 (ready.2 b member)
      intro same
      exact distinct.1 (List.mem_map.mpr ⟨b, member, same.symm⟩)
    obtain ⟨done, others, lasting⟩ := ih distinct.2 kept still later
    refine ⟨done, List.forall_mem_cons.mpr ⟨lasting a distinct.1 own, others⟩, ?_⟩
    intro b fresh held
    rw [List.map_cons, List.mem_cons, not_or] at fresh
    exact lasting b fresh.2 ((apart s a t b start ready.1 first (Ne.symm fresh.1)).2 held)

theorem foldlM_answers {ε α σ : Type} {f : σ → α → Except ε σ} {P : σ → Prop} {l : List α}
    (answers : ∀ s, P s → ∀ a ∈ l, ∃ s', f s a = .ok s' ∧ P s') {s : σ} (start : P s) :
    ∃ s', l.foldlM f s = .ok s' ∧ P s' := by
  induction l generalizing s with
  | nil => exact ⟨s, rfl, start⟩
  | cons a rest ih =>
    obtain ⟨t, first, kept⟩ := answers s start a List.mem_cons_self
    have others (s : σ) (held : P s) (a : α) (member : a ∈ rest) : ∃ s', f s a = .ok s' ∧ P s' :=
      answers s held a (List.mem_cons_of_mem _ member)
    obtain ⟨s', later, done⟩ := ih others kept
    refine ⟨s', ?_, done⟩
    rw [List.foldlM_cons, bind_eq_ok]
    exact ⟨t, first, later⟩

section Admitted

variable {ε α β σ : Type} {f : σ → β → σ} {s s' : σ} {bs : List β}

/-- Each element is admitted by the state that the ones before it have left. -/
def Admitted (admits : σ → β → Prop) (f : σ → β → σ) : σ → List β → Prop
  | _, [] => True
  | s, b :: rest => admits s b ∧ Admitted admits f (f s b) rest

theorem foldlM_admitted {step : σ → α → Except ε σ} {R : α → β → Prop} {admits : σ → β → Prop}
    (each : ∀ s a s', step s a = .ok s' ↔ ∃ b, R a b ∧ admits s b ∧ s' = f s b) {l : List α} :
    l.foldlM step s = .ok s' ↔
      ∃ bs, List.Forall₂ R l bs ∧ Admitted admits f s bs ∧ s' = bs.foldl f s := by
  induction l generalizing s with
  | nil =>
    constructor
    · intro done
      exact ⟨[], .nil, trivial, (Except.ok.inj done).symm⟩
    · rintro ⟨bs, read, -, rfl⟩
      cases read
      rfl
  | cons a rest ih =>
    rw [List.foldlM_cons, bind_eq_ok]
    constructor
    · rintro ⟨t, first, later⟩
      obtain ⟨b, read, admitted, rfl⟩ := (each s a t).mp first
      obtain ⟨bs, others, all, rfl⟩ := ih.mp later
      exact ⟨b :: bs, .cons read others, ⟨admitted, all⟩, rfl⟩
    · rintro ⟨bs, read, all, rfl⟩
      cases read with
      | cons read others => exact ⟨_, (each s a _).mpr ⟨_, read, all.1, rfl⟩, ih.mpr ⟨_, others, all.2, rfl⟩⟩

theorem admitted_and {p q : σ → β → Prop} :
    Admitted (fun s b => p s b ∧ q s b) f s bs ↔ Admitted p f s bs ∧ Admitted q f s bs := by
  induction bs generalizing s with
  | nil => exact iff_of_true trivial ⟨trivial, trivial⟩
  | cons b rest ih =>
    rw [Admitted, Admitted, Admitted, ih]
    exact and_and_and_comm

theorem admitted_fresh {κ : Type} {key : β → κ} {fresh : σ → κ → Prop}
    (kept : ∀ s b k, fresh (f s b) k ↔ key b ≠ k ∧ fresh s k) :
    Admitted (fun s b => fresh s (key b)) f s bs ↔ (bs.map key).Nodup ∧ ∀ b ∈ bs, fresh s (key b) := by
  induction bs generalizing s with
  | nil => exact iff_of_true trivial ⟨List.nodup_nil, List.forall_mem_nil _⟩
  | cons b rest ih =>
    simp only [Admitted, ih, kept, List.map_cons, List.nodup_cons, List.forall_mem_cons, List.mem_map, not_exists,
      not_and, ne_comm]
    constructor
    · rintro ⟨own, distinct, others⟩
      exact ⟨⟨fun a member same => (others a member).1 same, distinct⟩, own, fun a member => (others a member).2⟩
    · rintro ⟨⟨apart, distinct⟩, own, others⟩
      exact ⟨own, distinct, fun a member => ⟨fun same => apart a member same, others a member⟩⟩

theorem admitted_sum {total : σ → ℕ} {weight : β → ℕ} {bound : ℕ}
    (kept : ∀ s b, total (f s b) = total s + weight b) (start : total s ≤ bound) :
    Admitted (fun s b => total s + weight b ≤ bound) f s bs ↔ total s + (bs.map weight).sum ≤ bound := by
  induction bs generalizing s with
  | nil => exact iff_of_true trivial (by simpa using start)
  | cons b rest ih =>
    rw [Admitted, List.map_cons, List.sum_cons, ← Nat.add_assoc, ← kept]
    constructor
    · rintro ⟨own, others⟩
      exact (ih own).mp others
    · intro within
      have own : total (f s b) ≤ bound := by omega
      exact ⟨own, (ih own).mpr within⟩

end Admitted

end Drain
