/- Computations that trap besides failing: the machine's arithmetic and slices, and when a computation
over them comes to what one over unbounded numbers and whole texts comes to. -/
import BorealWork.Library.Drain

namespace Traps
open Drain

variable {ε α β τ : Type}

/-- Nothing comes of a computation that trapped. -/
abbrev Trapping (ε : Type) : Type → Type := ExceptT ε Option

def unsigned (bits value : ℕ) : Option ℕ := if value < 2 ^ bits then some value else none

def signed (bits : ℕ) (value : ℤ) : Option ℤ :=
  if -2 ^ bits ≤ 2 * value ∧ 2 * value < 2 ^ bits then some value else none

def minus (value taken : ℕ) : Option ℕ := if taken ≤ value then some (value - taken) else none

def slice (text : List τ) (start stop : ℕ) : Option (List τ) :=
  if start ≤ stop ∧ stop ≤ text.length then some ((text.drop start).take (stop - start)) else none

theorem unsigned_of_lt {bits value : ℕ} (small : value < 2 ^ bits) : unsigned bits value = some value :=
  if_pos small

theorem signed_of_fits {bits : ℕ} {value : ℤ} (low : -2 ^ bits ≤ 2 * value) (high : 2 * value < 2 ^ bits) :
    signed bits value = some value := if_pos ⟨low, high⟩

theorem minus_of_le {value taken : ℕ} (inside : taken ≤ value) : minus value taken = some (value - taken) :=
  if_pos inside

theorem slice_of_le {text : List τ} {start stop : ℕ} (ordered : start ≤ stop) (inside : stop ≤ text.length) :
    slice text start stop = some ((text.drop start).take (stop - start)) := if_pos ⟨ordered, inside⟩

section Settling

variable {x : Trapping ε α} {y : Except ε α} {f : β → Trapping ε α} {g : β → Except ε α}

/-- A computation that does not trap, and what it comes to. -/
def Settles (x : Trapping ε α) (y : Except ε α) : Prop := x = some y

theorem Settles.bind_map {γ : Type} {h : γ → β} {first : Trapping ε β} {first' : Except ε γ}
    {g : γ → Except ε α} (settled : Settles first (first'.map h))
    (each : ∀ a, first' = .ok a → Settles (f (h a)) (g a)) : Settles (first >>= f) (first' >>= g) := by
  unfold Settles at settled
  subst settled
  cases first' with
  | error error => rfl
  | ok a => exact each a rfl

theorem Settles.bind {first : Trapping ε β} {first' : Except ε β} (settled : Settles first first')
    (each : ∀ a, first' = .ok a → Settles (f a) (g a)) : Settles (first >>= f) (first' >>= g) := by
  have same : first'.map id = first' := by cases first' <;> rfl
  exact Settles.bind_map (h := id) (same.symm ▸ settled) each

theorem Settles.pure (a : α) : Settles (Pure.pure a : Trapping ε α) (.ok a) := rfl

theorem Settles.step {first : Except ε β} (each : ∀ a, first = .ok a → Settles (f a) (g a)) :
    Settles ((liftM first : Trapping ε β) >>= f) (first >>= g) :=
  Settles.bind rfl each

theorem Settles.passes {operation : Option β} {b : β} (passed : operation = some b)
    (later : Settles (f b) y) : Settles ((liftM operation : Trapping ε β) >>= f) y := by
  subst passed
  exact later

theorem Settles.operation {operation : Option α} {a : α} (passed : operation = some a) :
    Settles (liftM operation : Trapping ε α) (.ok a) := by
  subst passed
  rfl

theorem Settles.known {first : Trapping ε β} {b : β} (settled : Settles first (.ok b))
    (later : Settles (f b) y) : Settles (first >>= f) y := by
  unfold Settles at settled
  subst settled
  exact later

theorem Settles.ite {c : Prop} [Decidable c] {x' : Trapping ε α} {y' : Except ε α}
    (first : c → Settles x y) (second : ¬ c → Settles x' y') :
    Settles (if c then x else x') (if c then y else y') := by
  split
  · exact first ‹c›
  · exact second ‹¬ c›

end Settling

section Cursors

variable {text : List τ} {pre pre' : List τ → Prop} {post : α → List τ → Prop}
  {x : StateT ℕ (Trapping ε) α} {y : StateT (List τ) (Except ε) α}

/-- A parser with a cursor does, without a trap, what a parser with the rest of the text does. -/
def Follows (text : List τ) (pre : List τ → Prop) (x : StateT ℕ (Trapping ε) α)
    (y : StateT (List τ) (Except ε) α) (post : α → List τ → Prop) : Prop :=
  ∀ cursor ≤ text.length, pre (text.drop cursor) →
    (∃ error, y (text.drop cursor) = .error error ∧ x cursor = some (.error error)) ∨
    ∃ a, ∃ cursor' ≤ text.length, y (text.drop cursor) = .ok (a, text.drop cursor') ∧
      x cursor = some (.ok (a, cursor')) ∧ post a (text.drop cursor')

theorem Follows.bind {middle : β → List τ → Prop} {x : StateT ℕ (Trapping ε) β}
    {y : StateT (List τ) (Except ε) β} {f : β → StateT ℕ (Trapping ε) α}
    {g : β → StateT (List τ) (Except ε) α} (first : Follows text pre x y middle)
    (each : ∀ b, Follows text (middle b) (f b) (g b) post) : Follows text pre (x >>= f) (y >>= g) post := by
  intro cursor inside holds
  change (∃ error, (y _ >>= fun result => g result.1 result.2) = _ ∧
    (x cursor >>= fun result => f result.1 result.2 : Trapping ε (α × ℕ)) = _) ∨ ∃ a, ∃ cursor' ≤ _,
      (y _ >>= fun result => g result.1 result.2) = _ ∧
        (x cursor >>= fun result => f result.1 result.2 : Trapping ε (α × ℕ)) = _ ∧ _
  rcases first cursor inside holds with ⟨error, failed, failed'⟩ | ⟨b, cursor', inside', done, done', later⟩
  · rw [failed, failed']
    exact .inl ⟨error, rfl, rfl⟩
  · rw [done, done']
    exact each b cursor' inside' later

theorem Follows.weaken (given : ∀ rest, pre' rest → pre rest) (follows : Follows text pre x y post) :
    Follows text pre' x y post := fun cursor inside holds => follows cursor inside (given _ holds)

theorem Follows.knowing {fact : Prop} (given : ∀ rest, pre rest → fact)
    (follows : fact → Follows text pre x y post) : Follows text pre x y post :=
  fun cursor inside holds => follows (given _ holds) cursor inside holds

theorem Follows.imp {post' : α → List τ → Prop} (follows : Follows text pre x y post)
    (gives : ∀ a rest, post a rest → post' a rest) : Follows text pre x y post' := by
  intro cursor inside holds
  rcases follows cursor inside holds with failed | ⟨a, cursor', inside', done, done', later⟩
  · exact .inl failed
  · exact .inr ⟨a, cursor', inside', done, done', gives _ _ later⟩

theorem Follows.pure {a : α} (holds : ∀ rest, pre rest → post a rest) :
    Follows text pre (Pure.pure a : StateT ℕ (Trapping ε) α) (Pure.pure a) post :=
  fun cursor inside given => .inr ⟨a, cursor, inside, rfl, rfl, holds _ given⟩

theorem Follows.ite {c : Prop} [Decidable c] {x' : StateT ℕ (Trapping ε) α}
    {y' : StateT (List τ) (Except ε) α} (first : c → Follows text pre x y post)
    (second : ¬ c → Follows text pre x' y' post) :
    Follows text pre (if c then x else x') (if c then y else y') post := by
  split
  · exact first ‹c›
  · exact second ‹¬ c›

theorem run_bind {σ : Type} {x : StateT σ (Trapping ε) β} {f : β → StateT σ (Trapping ε) α} {b : β}
    {state state' : σ} (done : x state = some (.ok (b, state'))) : (x >>= f) state = f b state' := by
  change (x state >>= fun result => f result.1 result.2 : Trapping ε (α × σ)) = _
  rw [done]
  rfl

theorem run_bind_error {σ : Type} {x : StateT σ (Trapping ε) β} {f : β → StateT σ (Trapping ε) α}
    {error : ε} {state : σ} (failed : x state = some (.error error)) :
    (x >>= f) state = some (.error error) := by
  change (x state >>= fun result => f result.1 result.2 : Trapping ε (α × σ)) = _
  rw [failed]
  rfl

theorem run_operation {σ : Type} {operation : Option α} {a : α} {state : σ} (passed : operation = some a) :
    (liftM operation : StateT σ (Trapping ε) α) state = some (.ok (a, state)) := by
  rw [passed]
  rfl

theorem run_step {σ : Type} {step : Except ε α} {a : α} {state : σ} (done : step = .ok a) :
    (liftM step : StateT σ (Trapping ε) α) state = some (.ok (a, state)) := by
  rw [done]
  rfl

theorem Follows.passes {operation : Option β} {b : β} {f : β → StateT ℕ (Trapping ε) α}
    (passed : operation = some b) (later : Follows text pre (f b) y post) :
    Follows text pre ((liftM operation : StateT ℕ (Trapping ε) β) >>= f) y post := by
  subst passed
  exact later

theorem Follows.operation {operation : Option α} {a : α} (passed : operation = some a)
    (holds : ∀ rest, pre rest → post a rest) :
    Follows text pre (liftM operation : StateT ℕ (Trapping ε) α) (Pure.pure a) post := by
  subst passed
  exact .pure holds

end Cursors

end Traps
