/- Clocks that show the instant and an offset, which is set anew at listed instants: what they read,
what they read twice, and what they leap over. -/
import Mathlib

namespace LocalClock

structure Clock where
  base : ℤ
  changes : List (ℤ × ℤ)

/-- The offset of the change listed last among those that have come. -/
def offsetFrom (base : ℤ) (changes : List (ℤ × ℤ)) (t : ℤ) : ℤ :=
  changes.foldl (fun offset change => if change.1 ≤ t then change.2 else offset) base

def Clock.offsetAt (c : Clock) (t : ℤ) : ℤ := offsetFrom c.base c.changes t

def Clock.shown (c : Clock) (t : ℤ) : ℤ := t + c.offsetAt t

def Clock.Reads (c : Clock) (t reading : ℤ) : Prop := c.shown t = reading

/-- The change listed first that sets the clock forward over a reading. -/
def leapFrom (reading : ℤ) : ℤ → List (ℤ × ℤ) → Option (ℤ × ℤ)
  | _, [] => none
  | previous, (t, offset) :: rest =>
    if previous < offset ∧ t + previous ≤ reading ∧ reading < t + offset then some (t, offset)
    else leapFrom reading offset rest

def Clock.leap (c : Clock) (reading : ℤ) : Option (ℤ × ℤ) := leapFrom reading c.base c.changes

def Clock.Ordered (c : Clock) : Prop := c.changes.Pairwise (·.1 < ·.1)

/-- A reading begins at the earliest instant that shows it; if none does, at the change that leaps it. -/
inductive Clock.Begins (c : Clock) (reading : ℤ) : ℤ → ℤ → Prop
  | shown {t : ℤ} (reads : c.Reads t reading) (first : ∀ s, c.Reads s reading → t ≤ s) :
      c.Begins reading t (c.offsetAt t)
  | leapt {t offset : ℤ} (never : ∀ s, ¬ c.Reads s reading) (leap : c.leap reading = some (t, offset)) :
      c.Begins reading t offset

section Offsets

variable {c : Clock} {base t : ℤ} {changes : List (ℤ × ℤ)}

theorem offsetFrom_eq_find : ((changes.reverse.find? (·.1 ≤ t)).map Prod.snd).getD base =
    offsetFrom base changes t := by
  induction changes using List.reverseRecOn with
  | nil => rfl
  | append_singleton changes change ih =>
    rw [List.reverse_append, List.reverse_singleton, List.singleton_append, offsetFrom, List.foldl_append,
      List.foldl_cons, List.foldl_nil]
    by_cases come : change.1 ≤ t
    · rw [List.find?_cons_of_pos (by exact decide_eq_true come), if_pos come]
      rfl
    · rw [List.find?_cons_of_neg (by simpa using come), if_neg come, ih, offsetFrom]

theorem offsetFrom_before (before : ∀ change ∈ changes, t < change.1) : offsetFrom base changes t = base := by
  induction changes with
  | nil => rfl
  | cons change rest ih =>
    rw [List.forall_mem_cons] at before
    rw [offsetFrom, List.foldl_cons, if_neg before.1.not_ge]
    exact ih before.2

theorem offsetFrom_mem {offsets : List ℤ} (known : base ∈ offsets)
    (all : ∀ change ∈ changes, change.2 ∈ offsets) : offsetFrom base changes t ∈ offsets := by
  induction changes generalizing base with
  | nil => exact known
  | cons change rest ih =>
    rw [List.forall_mem_cons] at all
    rw [offsetFrom, List.foldl_cons]
    refine ih ?_ all.2
    split_ifs
    · exact all.1
    · exact known

theorem offsetFrom_cons {change : ℤ × ℤ} (later : ∀ other ∈ changes, change.1 < other.1) :
    offsetFrom base (change :: changes) t =
      if change.1 ≤ t then offsetFrom change.2 changes t else base := by
  rw [offsetFrom, List.foldl_cons]
  split_ifs with come
  · rfl
  · refine offsetFrom_before fun other member => ?_
    have := later other member
    omega

theorem exists_bound (c : Clock) : ∃ bound, ∀ t, -bound ≤ c.offsetAt t ∧ c.offsetAt t ≤ bound := by
  let offsets := c.base :: c.changes.map Prod.snd
  refine ⟨(offsets.map Int.natAbs).sum, fun t => ?_⟩
  have member : c.offsetAt t ∈ offsets :=
    offsetFrom_mem List.mem_cons_self fun change listed =>
      List.mem_cons_of_mem _ (List.mem_map_of_mem listed)
  have part := List.le_sum_of_mem (List.mem_map_of_mem (f := Int.natAbs) member)
  omega

end Offsets

section Leaps

variable {c : Clock} {base reading t offset : ℤ} {changes : List (ℤ × ℤ)}

theorem exists_step {p : ℤ → Prop} {a b : ℤ} (le : a ≤ b) (first : p a) (last : ¬ p b) :
    ∃ t, a ≤ t ∧ t < b ∧ p t ∧ ¬ p (t + 1) := by
  by_contra never
  push Not at never
  apply last
  induction b, le using Int.leInduction with
  | base => exact first
  | succ b le ih =>
    have kept : p b := by
      by_contra lost
      exact lost (ih lost fun t above below => never t above (by omega))
    exact never b le (by omega) kept

theorem exists_below (c : Clock) (reading : ℤ) : ∃ t, ∀ s ≤ t, c.shown s < reading := by
  obtain ⟨bound, within⟩ := exists_bound c
  refine ⟨reading - bound - 1, fun s le => ?_⟩
  have := within s
  rw [Clock.shown]
  omega

theorem exists_above (c : Clock) (reading : ℤ) : ∃ t, ∀ s, t ≤ s → reading < c.shown s := by
  obtain ⟨bound, within⟩ := exists_bound c
  refine ⟨reading + bound + 1, fun s le => ?_⟩
  have := within s
  rw [Clock.shown]
  omega

theorem exists_passing (unread : ∀ s ≤ t, ¬ c.Reads s reading) (passed : reading < c.shown t) :
    ∃ s, s < t ∧ c.shown s < reading ∧ reading < c.shown (s + 1) := by
  obtain ⟨low, below⟩ := exists_below c reading
  have start : low ≤ t := by
    by_contra early
    have := below t (by omega)
    omega
  obtain ⟨s, -, before, under, above⟩ :=
    exists_step (p := fun s => c.shown s < reading) start (below low le_rfl) (by omega)
  exact ⟨s, before, under, lt_of_le_of_ne (not_lt.mp above) fun same => unread (s + 1) (by omega) same.symm⟩

theorem exists_leapFrom (ordered : changes.Pairwise (·.1 < ·.1))
    (under : t + offsetFrom base changes t < reading)
    (above : reading < t + 1 + offsetFrom base changes (t + 1)) :
    ∃ s offset, leapFrom reading base changes = some (s, offset) ∧ s ≤ t + 1 := by
  induction changes generalizing base with
  | nil =>
    simp only [offsetFrom, List.foldl_nil] at under above
    omega
  | cons change rest ih =>
    obtain ⟨s, offset⟩ := change
    rw [List.pairwise_cons] at ordered
    rw [offsetFrom_cons ordered.1] at under above
    dsimp only at under above
    rw [leapFrom]
    split_ifs with leaps
    · refine ⟨s, offset, rfl, ?_⟩
      split_ifs at under above <;> omega
    · rcases lt_trichotomy s (t + 1) with before | here | after
      · rw [if_pos (by omega)] at under above
        exact ih ordered.2 under above
      · rw [if_neg (by omega)] at under
        rw [if_pos (by omega), offsetFrom_before fun other member => here ▸ ordered.1 other member] at above
        omega
      · rw [if_neg (by omega)] at under above
        omega

theorem leapFrom_spec (ordered : changes.Pairwise (·.1 < ·.1))
    (leaps : leapFrom reading base changes = some (t, offset)) :
    (t, offset) ∈ changes ∧ offsetFrom base changes t = offset ∧
      t - 1 + offsetFrom base changes (t - 1) < reading ∧ reading < t + offset := by
  induction changes generalizing base with
  | nil => cases leaps
  | cons change rest ih =>
    obtain ⟨s, own⟩ := change
    rw [List.pairwise_cons] at ordered
    rw [offsetFrom_cons ordered.1, offsetFrom_cons ordered.1]
    rw [leapFrom] at leaps
    split_ifs at leaps with here
    · obtain ⟨rfl, rfl⟩ := Prod.mk.inj (Option.some.inj leaps)
      dsimp only
      rw [if_pos le_rfl, if_neg (by omega), offsetFrom_before ordered.1]
      exact ⟨List.mem_cons_self, rfl, by omega, here.2.2⟩
    · obtain ⟨member, set, under, above⟩ := ih ordered.2 leaps
      have after : s < t := ordered.1 (t, offset) member
      dsimp only
      rw [if_pos after.le, if_pos (by omega)]
      exact ⟨List.mem_cons_of_mem _ member, set, under, above⟩

theorem Clock.Ordered.exists_leap (ordered : c.Ordered) (never : ∀ s, ¬ c.Reads s reading) :
    ∃ t offset, c.leap reading = some (t, offset) := by
  obtain ⟨high, beyond⟩ := exists_above c reading
  obtain ⟨s, -, under, above⟩ := exists_passing (fun s _ => never s) (beyond high le_rfl)
  obtain ⟨t, offset, leaps, -⟩ := exists_leapFrom ordered under above
  exact ⟨t, offset, leaps⟩

end Leaps

section Beginnings

variable {c : Clock} {reading t t' offset offset' : ℤ}

theorem Clock.Begins.unique (begins : c.Begins reading t offset) (begins' : c.Begins reading t' offset') :
    t = t' ∧ offset = offset' := by
  cases begins with
  | shown reads first =>
    cases begins' with
    | shown reads' first' =>
      obtain rfl := le_antisymm (first t' reads') (first' t reads)
      exact ⟨rfl, rfl⟩
    | leapt never' _ => exact absurd reads (never' t)
  | leapt never leap =>
    cases begins' with
    | shown reads' _ => exact absurd reads' (never t')
    | leapt _ leap' => exact Prod.mk.inj (Option.some.inj (leap.symm.trans leap'))

theorem exists_first (shown : ∃ s, c.Reads s reading) :
    ∃ t, c.Reads t reading ∧ ∀ s, c.Reads s reading → t ≤ s := by
  obtain ⟨low, below⟩ := exists_below c reading
  refine Int.exists_least_of_bdd ⟨low, fun s reads => ?_⟩ shown
  by_contra early
  exact absurd reads (below s (by omega)).ne

theorem exists_last (shown : ∃ s, c.Reads s reading) :
    ∃ t, c.Reads t reading ∧ ∀ s, c.Reads s reading → s ≤ t := by
  obtain ⟨high, beyond⟩ := exists_above c reading
  refine Int.exists_greatest_of_bdd ⟨high, fun s reads => ?_⟩ shown
  by_contra late
  exact absurd reads (beyond s (by omega)).ne'

theorem Clock.Ordered.exists_begins (ordered : c.Ordered) (reading : ℤ) :
    ∃ t offset, c.Begins reading t offset := by
  by_cases shown : ∃ s, c.Reads s reading
  · obtain ⟨t, reads, first⟩ := exists_first shown
    exact ⟨t, c.offsetAt t, .shown reads first⟩
  · rw [not_exists] at shown
    obtain ⟨t, offset, leap⟩ := ordered.exists_leap shown
    exact ⟨t, offset, .leapt shown leap⟩

theorem Clock.Begins.offset_eq (ordered : c.Ordered) (begins : c.Begins reading t offset) :
    offset = c.offsetAt t := by
  cases begins with
  | shown _ _ => rfl
  | leapt _ leap => exact (leapFrom_spec ordered leap).2.1.symm

theorem Clock.Ordered.leap_le (ordered : c.Ordered) (never : ∀ s, ¬ c.Reads s reading)
    (leap : c.leap reading = some (t, offset)) {s : ℤ} (passed : reading < c.shown s) : t ≤ s := by
  obtain ⟨r, before, under, above⟩ := exists_passing (fun r _ => never r) passed
  obtain ⟨t', offset', leap', le⟩ := exists_leapFrom ordered under above
  obtain ⟨rfl, rfl⟩ := Prod.mk.inj (Option.some.inj (leap.symm.trans leap'))
  omega

theorem Clock.Begins.le_iff (ordered : c.Ordered) (begins : c.Begins reading t offset) {s : ℤ}
    (reached : reading ≤ c.shown s) : t ≤ s ↔ ((∃ r, c.Reads r reading) → ∃ r ≤ s, c.Reads r reading) := by
  cases begins with
  | shown reads first =>
    constructor
    · exact fun le _ => ⟨t, le, reads⟩
    · intro early
      obtain ⟨r, le, reads'⟩ := early ⟨t, reads⟩
      exact (first r reads').trans le
  | leapt never leap =>
    refine iff_of_true (ordered.leap_le never leap ?_) fun shown => absurd shown (not_exists.mpr never)
    exact lt_of_le_of_ne reached fun same => never s same.symm

theorem Clock.Begins.lt_iff (ordered : c.Ordered) (begins : c.Begins reading t offset) {s : ℤ} :
    s < t ↔ (∀ r ≤ s, ¬ c.Reads r reading) ∧
      ((∀ r, ¬ c.Reads r reading) → ∀ r ≤ s, c.shown r < reading) := by
  cases begins with
  | shown reads first =>
    constructor
    · intro ahead
      refine ⟨fun r le reads' => ?_, fun never => absurd reads (never t)⟩
      have := first r reads'
      omega
    · rintro ⟨unread, -⟩
      by_contra begun
      exact unread t (by omega) reads
  | leapt never leap =>
    have above := (leapFrom_spec ordered leap).2.2.2
    rw [← (leapFrom_spec ordered leap).2.1] at above
    constructor
    · intro ahead
      refine ⟨fun r _ => never r, fun _ r le => lt_of_le_of_ne (not_lt.mp fun passed => ?_) (never r)⟩
      have := ordered.leap_le never leap passed
      omega
    · rintro ⟨-, under⟩
      by_contra begun
      exact absurd (under never t (by omega)) (not_lt.mpr (le_of_lt above))

def Clock.SetBack (c : Clock) (t : ℤ) : Prop := c.offsetAt t < c.offsetAt (t - 1)

theorem shown_le {s : ℤ} (le : s ≤ t) (forward : ∀ r, s < r → r ≤ t → ¬ c.SetBack r) :
    c.shown s ≤ c.shown t := by
  induction t, le using Int.leInduction with
  | base => exact le_rfl
  | succ t le ih =>
    have step := forward (t + 1) (by omega) le_rfl
    rw [Clock.SetBack, add_sub_cancel_right] at step
    refine (ih fun r after before => forward r after (by omega)).trans ?_
    rw [Clock.shown, Clock.shown]
    omega

end Beginnings

end LocalClock
