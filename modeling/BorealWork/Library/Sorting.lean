/- Stable sorting by a key: what a sorted list says about the list it came from. -/
import Mathlib

namespace Sorting

variable {α κ : Type*} [LinearOrder κ]

def sortOn (key : α → κ) (l : List α) : List α := l.insertionSort fun a b => key a ≤ key b

variable {key : α → κ} {l l' : List α}

theorem sortOn_perm (key : α → κ) (l : List α) : (sortOn key l).Perm l :=
  List.perm_insertionSort _ l

@[simp] theorem mem_sortOn {a : α} : a ∈ sortOn key l ↔ a ∈ l := (sortOn_perm key l).mem_iff

@[simp] theorem sortOn_eq_nil : sortOn key l = [] ↔ l = [] := by
  constructor
  · intro h
    exact List.nil_perm.mp (h ▸ sortOn_perm key l)
  · rintro rfl
    rfl

theorem sortOn_pairwise (key : α → κ) (l : List α) :
    (sortOn key l).Pairwise fun a b => key a ≤ key b := by
  have : IsTrans α fun a b => key a ≤ key b := ⟨fun _ _ _ => le_trans⟩
  have : Std.Total fun a b : α => key a ≤ key b := ⟨fun a b => le_total (key a) (key b)⟩
  exact List.pairwise_insertionSort _ l

theorem sortOn_congr (perm : l.Perm l') (separates : ∀ a ∈ l, ∀ b ∈ l, key a = key b → a = b) :
    sortOn key l = sortOn key l' := by
  have mixed : (sortOn key l).Perm (sortOn key l') :=
    (sortOn_perm key l).trans (perm.trans (sortOn_perm key l').symm)
  refine mixed.eq_of_pairwise ?_ (sortOn_pairwise key l) (sortOn_pairwise key l')
  intro a b ha hb below above
  exact separates a (mem_sortOn.mp ha) b (perm.mem_iff.mpr (mem_sortOn.mp hb))
    (le_antisymm below above)

theorem sortOn_of_sorted (sorted : l.Pairwise fun a b => key a ≤ key b) : sortOn key l = l :=
  sorted.insertionSort_eq

theorem sortOn_map {β : Type*} {key : β → κ} (f : α → β) (l : List α) :
    sortOn key (l.map f) = (sortOn (fun a => key (f a)) l).map f :=
  (List.map_insertionSort _ _ f l fun _ _ _ _ => Iff.rfl).symm

/-- The last of the elements with the greatest key. -/
def maxBy (key : α → κ) : List α → Option α
  | [] => none
  | a :: rest => match maxBy key rest with
      | none => some a
      | some b => if key b < key a then some a else some b

/-- `a` stands in `l` with no greater key before it and no key as great after it. -/
def LastGreatest (key : α → κ) (l : List α) (a : α) : Prop :=
  ∃ front back, l = front ++ a :: back ∧ (∀ b ∈ front, key b ≤ key a) ∧ ∀ b ∈ back, key b < key a

theorem maxBy_eq_none : maxBy key l = none ↔ l = [] := by
  cases l with
  | nil => exact iff_of_true rfl rfl
  | cons a rest =>
    refine iff_of_false ?_ (List.cons_ne_nil a rest)
    rw [maxBy]
    intro h
    split at h
    · cases h
    · split_ifs at h

theorem maxBy_spec {a : α} (h : maxBy key l = some a) : LastGreatest key l a := by
  induction l generalizing a with
  | nil => cases h
  | cons first rest ih =>
    rw [maxBy] at h
    cases later : maxBy key rest with
    | none =>
      rw [later, Option.some.injEq] at h
      rw [maxBy_eq_none.mp later, ← h]
      exact ⟨[], [], rfl, fun b member => absurd member List.not_mem_nil,
        fun b member => absurd member List.not_mem_nil⟩
    | some b =>
      obtain ⟨front, back, split, before, after⟩ := ih later
      have below (c : α) (member : c ∈ rest) : key c ≤ key b := by
        rw [split, List.mem_append, List.mem_cons] at member
        rcases member with early | rfl | late
        · exact before c early
        · exact le_rfl
        · exact (after c late).le
      simp only [later] at h
      split_ifs at h with above
      · cases h
        exact ⟨[], rest, rfl, fun c member => absurd member List.not_mem_nil,
          fun c member => lt_of_le_of_lt (below c member) above⟩
      · cases h
        refine ⟨first :: front, back, by rw [split, List.cons_append], ?_, after⟩
        exact List.forall_mem_cons.mpr ⟨not_lt.mp above, before⟩

theorem maxBy_map {β : Type*} {key : β → κ} (f : α → β) (l : List α) :
    maxBy key (l.map f) = (maxBy (fun a => key (f a)) l).map f := by
  induction l with
  | nil => rfl
  | cons a rest ih =>
    rw [List.map_cons, maxBy, maxBy, ih]
    cases maxBy (fun a => key (f a)) rest with
    | none => rfl
    | some b =>
      simp only [Option.map_some]
      split <;> rfl

theorem LastGreatest.mem {a : α} (h : LastGreatest key l a) : a ∈ l := by
  obtain ⟨front, back, rfl, _⟩ := h
  exact List.mem_append_right _ List.mem_cons_self

theorem LastGreatest.le {a : α} (h : LastGreatest key l a) : ∀ b ∈ l, key b ≤ key a := by
  obtain ⟨front, back, rfl, before, after⟩ := h
  intro b member
  rcases List.mem_append.mp member with early | late
  · exact before b early
  · rcases List.mem_cons.mp late with rfl | last
    · exact le_rfl
    · exact (after b last).le

theorem LastGreatest.unique {a b : α} (ha : LastGreatest key l a) (hb : LastGreatest key l b) : a = b := by
  have top : key a = key b := le_antisymm (hb.le a ha.mem) (ha.le b hb.mem)
  obtain ⟨front, back, split, before, after⟩ := ha
  obtain ⟨front', back', split', before', after'⟩ := hb
  rw [split] at split'
  rcases List.append_eq_append_iff.mp split' with ⟨middle, h₁, h₂⟩ | ⟨middle, h₁, h₂⟩
  · cases middle with
    | nil => exact (List.cons.inj h₂).1
    | cons c middle =>
      obtain ⟨_, tail⟩ := List.cons.inj h₂
      have later : b ∈ back := by
        rw [tail]
        exact List.mem_append_right _ List.mem_cons_self
      exact absurd (after b later) (top ▸ lt_irrefl _)
  · cases middle with
    | nil => exact (List.cons.inj h₂).1.symm
    | cons c middle =>
      obtain ⟨_, tail⟩ := List.cons.inj h₂
      have later : a ∈ back' := by
        rw [tail]
        exact List.mem_append_right _ List.mem_cons_self
      exact absurd (after' a later) (top ▸ lt_irrefl _)

theorem LastGreatest.ne_nil {a : α} (h : LastGreatest key l a) : l ≠ [] := List.ne_nil_of_mem h.mem

theorem LastGreatest.exists_iff {a : α} (ha : LastGreatest key l a) {p : α → Prop} :
    (∃ b, LastGreatest key l b ∧ p b) ↔ p a := by
  constructor
  · intro found
    obtain ⟨b, hb, holds⟩ := found
    rwa [ha.unique hb]
  · intro holds
    exact ⟨a, ha, holds⟩

theorem not_exists_lastGreatest {p : α → Prop} (empty : l = []) : ¬ ∃ b, LastGreatest key l b ∧ p b := by
  intro found
  obtain ⟨b, hb, _⟩ := found
  exact hb.ne_nil empty

theorem maxBy_eq_some {a : α} : maxBy key l = some a ↔ LastGreatest key l a := by
  constructor
  · exact maxBy_spec
  · intro h
    cases found : maxBy key l with
    | none =>
      rw [maxBy_eq_none.mp found] at h
      exact absurd h.mem List.not_mem_nil
    | some b => rw [(maxBy_spec found).unique h]

theorem exists_lastGreatest (key : α → κ) {l : List α} (h : l ≠ []) : ∃ a, LastGreatest key l a := by
  cases found : maxBy key l with
  | none => exact absurd (maxBy_eq_none.mp found) h
  | some a => exact ⟨a, maxBy_spec found⟩

theorem maxBy_of_growing (growing : l.Pairwise fun a b => key a < key b) :
    maxBy key l = l.getLast? := by
  induction l using List.reverseRecOn with
  | nil => rfl
  | append_singleton front a _ =>
    rw [List.getLast?_concat, maxBy_eq_some]
    refine ⟨front, [], rfl, fun b member => ?_, fun b member => absurd member List.not_mem_nil⟩
    exact ((List.pairwise_append.mp growing).2.2 b member a (List.mem_singleton_self a)).le

theorem maxBy_perm (perm : l.Perm l') (separates : ∀ a ∈ l, ∀ b ∈ l, key a = key b → a = b) :
    maxBy key l = maxBy key l' := by
  cases found : maxBy key l with
  | none =>
    rw [maxBy_eq_none.mp found] at perm
    rw [List.nil_perm.mp perm]
    rfl
  | some a =>
    cases found' : maxBy key l' with
    | none =>
      rw [maxBy_eq_none.mp found'] at perm
      rw [List.perm_nil.mp perm] at found
      cases found
    | some b =>
      have ha := maxBy_spec found
      have hb := maxBy_spec found'
      have member := perm.mem_iff.mpr hb.mem
      have top := le_antisymm (hb.le a (perm.mem_iff.mp ha.mem)) (ha.le b member)
      rw [separates a ha.mem b member top]

theorem getLast?_orderedInsert (a : α) {s : List α} (sorted : s.Pairwise fun b c => key b ≤ key c) :
    (s.orderedInsert (fun b c => key b ≤ key c) a).getLast? = match s.getLast? with
      | none => some a
      | some b => if key b < key a then some a else some b := by
  induction s with
  | nil => rfl
  | cons first rest ih =>
    rw [List.pairwise_cons] at sorted
    rw [List.orderedInsert_cons]
    by_cases early : key a ≤ key first
    · rw [if_pos early, List.getLast?_cons_cons]
      cases last : (first :: rest).getLast? with
      | none => simp at last
      | some b =>
        have above : key first ≤ key b := by
          rcases List.mem_cons.mp (List.mem_of_getLast? last) with rfl | later
          · exact le_rfl
          · exact sorted.1 b later
        simp only
        rw [if_neg (not_lt.mpr (early.trans above))]
    · rw [if_neg early]
      cases rest with
      | nil =>
        simp only [List.orderedInsert_nil, List.getLast?_cons_cons, List.getLast?_singleton]
        rw [if_pos (not_le.mp early)]
      | cons second rest =>
        rw [List.getLast?_cons_cons, ← ih sorted.2]
        cases inserted : (second :: rest).orderedInsert (fun b c => key b ≤ key c) a with
        | nil => simp [List.orderedInsert] at inserted; split_ifs at inserted
        | cons c cs => rw [List.getLast?_cons_cons]

theorem getLast?_sortOn (key : α → κ) (l : List α) : (sortOn key l).getLast? = maxBy key l := by
  induction l with
  | nil => rfl
  | cons a rest ih =>
    have inserted : sortOn key (a :: rest) =
        (sortOn key rest).orderedInsert (fun b c => key b ≤ key c) a := rfl
    rw [inserted, getLast?_orderedInsert a (sortOn_pairwise key rest), ih, maxBy]

/-- Sorting, then dropping each element that repeats its predecessor. -/
def sortDedup [DecidableEq α] (key : α → κ) (l : List α) : List α :=
  (sortOn key l).destutter (· ≠ ·)

@[simp] theorem sortDedup_eq_nil [DecidableEq α] : sortDedup key l = [] ↔ l = [] := by
  rw [sortDedup, List.destutter_eq_nil, sortOn_eq_nil]

theorem mem_destutter'_iff [DecidableEq α] {a b : α} {l : List α} :
    b ∈ l.destutter' (· ≠ ·) a ↔ b ∈ a :: l := by
  induction l generalizing a with
  | nil => rw [List.destutter'_nil]
  | cons c rest ih =>
    rw [List.destutter'_cons]
    by_cases same : a = c
    · rw [if_neg (not_not.mpr same), ih, same]
      simp
    · rw [if_pos same, List.mem_cons, ih, ← List.mem_cons]

@[simp] theorem mem_sortDedup [DecidableEq α] {a : α} : a ∈ sortDedup key l ↔ a ∈ l := by
  have kept : a ∈ sortDedup key l ↔ a ∈ sortOn key l := by
    rw [sortDedup]
    cases sortOn key l with
    | nil => rfl
    | cons b rest => rw [List.destutter_cons', mem_destutter'_iff]
  rw [kept, mem_sortOn]

theorem sortDedup_pairwise [DecidableEq α] (key : α → κ) (l : List α) :
    (sortDedup key l).Pairwise fun a b => key a ≤ key b :=
  (sortOn_pairwise key l).sublist (List.destutter_sublist _ _)

theorem sortDedup_increasing [DecidableEq α]
    (separates : ∀ a ∈ l, ∀ b ∈ l, key a = key b → a = b) :
    (sortDedup key l).Pairwise fun a b => key a < key b := by
  have apart : (sortDedup key l).IsChain (· ≠ ·) := List.isChain_destutter _ _
  have sorted := sortDedup_pairwise key l
  have inside : ∀ a ∈ sortDedup key l, a ∈ l := fun a member => mem_sortDedup.mp member
  generalize sortDedup key l = s at apart sorted inside
  induction s with
  | nil => exact List.Pairwise.nil
  | cons a rest ih =>
    rw [List.pairwise_cons] at sorted ⊢
    rw [List.forall_mem_cons] at inside
    refine ⟨fun b member => ?_, ih apart.tail sorted.2 inside.2⟩
    cases rest with
    | nil => cases member
    | cons first rest =>
      have less : key a < key first :=
        lt_of_le_of_ne (sorted.1 first List.mem_cons_self) fun same =>
          (List.isChain_cons_cons.mp apart).1
            (separates a inside.1 first (inside.2 first List.mem_cons_self) same)
      rcases List.mem_cons.mp member with rfl | later
      · exact less
      · exact less.trans_le ((List.pairwise_cons.mp sorted.2).1 b later)

theorem sortDedup_idem [DecidableEq α] (key : α → κ) (l : List α) :
    sortDedup key (sortDedup key l) = sortDedup key l := by
  have sorted : sortOn key (sortDedup key l) = sortDedup key l :=
    sortOn_of_sorted (sortDedup_pairwise key l)
  rw [sortDedup, sorted, sortDedup, List.destutter_idem]

theorem sortDedup_congr [DecidableEq α] (separating : Function.Injective key) (perm : l.Perm l') :
    sortDedup key l = sortDedup key l' := by
  rw [sortDedup, sortDedup, sortOn_congr perm fun a _ b _ same => separating same]

theorem find?_sortOn {p : α → Bool} {a : α} (found : (sortOn key l).find? p = some a) :
    a ∈ l ∧ p a = true ∧ ∀ b ∈ l, p b = true → key a ≤ key b := by
  obtain ⟨passes, before, after, split, failed⟩ := List.find?_eq_some_iff_append.mp found
  have sorted := sortOn_pairwise key l
  rw [split, List.pairwise_append] at sorted
  refine ⟨?_, passes, ?_⟩
  · rw [← (sortOn_perm key l).mem_iff, split]
    exact List.mem_append_right _ List.mem_cons_self
  · intro b member other
    rw [← (sortOn_perm key l).mem_iff, split, List.mem_append, List.mem_cons] at member
    rcases member with early | rfl | late
    · have rejected := failed b early
      rw [other] at rejected
      cases rejected
    · exact le_rfl
    · exact (List.pairwise_cons.mp sorted.2.1).1 b late

end Sorting
