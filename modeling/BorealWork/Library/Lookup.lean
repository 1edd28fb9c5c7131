/- Ordered maps and sets over linearly ordered keys, as equations about lookup. -/
import Mathlib

namespace Lookup

variable {κ ν α : Type*} [LinearOrder κ]

/-- Keys that compare equal are equal, so the ordered containers separate them. -/
instance lawfulEqOrd : Std.LawfulEqOrd κ := ⟨fun h => compare_eq_iff_eq.mp h⟩

theorem getElem?_insert (m : Std.TreeMap κ ν) (k a : κ) (v : ν) :
    (m.insert k v)[a]? = if k = a then some v else m[a]? := by
  rw [Std.TreeMap.getElem?_insert]
  exact if_congr compare_eq_iff_eq rfl rfl

theorem getElem?_insert_self (m : Std.TreeMap κ ν) (k : κ) (v : ν) : (m.insert k v)[k]? = some v := by
  rw [getElem?_insert, if_pos rfl]

theorem getElem?_insert_ne (m : Std.TreeMap κ ν) {k a : κ} (v : ν) (h : k ≠ a) :
    (m.insert k v)[a]? = m[a]? := by
  rw [getElem?_insert, if_neg h]

variable {m : Std.TreeMap κ ν} {k : κ}

theorem contains_iff : m.contains k = true ↔ ∃ v, m[k]? = some v := by
  rw [Std.TreeMap.contains_eq_isSome_getElem?, Option.isSome_iff_exists]

theorem contains_eq_false : m.contains k = false ↔ m[k]? = none := by
  rw [Std.TreeMap.contains_eq_isSome_getElem?, Option.isSome_eq_false_iff, Option.isNone_iff_eq_none]

theorem mem_keys_iff : k ∈ m.keys ↔ ∃ v, m[k]? = some v := by
  rw [Std.TreeMap.mem_keys, Std.TreeMap.mem_iff_isSome_getElem?, Option.isSome_iff_exists]

theorem mem_insert {s : Std.TreeSet κ} {k a : κ} : a ∈ s.insert k ↔ k = a ∨ a ∈ s := by
  rw [Std.TreeSet.mem_insert, compare_eq_iff_eq]

def indexBy (key : ν → κ) (m : Std.TreeMap κ ν) (a : ν) : Std.TreeMap κ ν := m.insert (key a) a

theorem getElem?_foldl_indexBy {key : ν → κ} {l : List ν}
    (distinct : (l.map key).Nodup) (apart : ∀ a ∈ l, m[key a]? = none) {v : ν} :
    (l.foldl (indexBy key) m)[k]? = some v ↔ m[k]? = some v ∨ (v ∈ l ∧ key v = k) := by
  induction l generalizing m with
  | nil => simp
  | cons first rest ih =>
    rw [List.map_cons, List.nodup_cons] at distinct
    rw [List.forall_mem_cons] at apart
    have other {a : ν} (member : a ∈ rest) : key first ≠ key a := by
      intro same
      exact distinct.1 (same ▸ List.mem_map_of_mem member)
    rw [List.foldl_cons, ih distinct.2, indexBy, getElem?_insert, List.mem_cons]
    · by_cases same : key first = k
      · subst same
        rw [if_pos rfl, apart.1]
        constructor
        · rintro (found | ⟨member, source⟩)
          · exact .inr ⟨.inl (Option.some.inj found).symm, by rw [Option.some.inj found]⟩
          · exact absurd source.symm (other member)
        · rintro (found | ⟨rfl | member, source⟩)
          · cases found
          · exact .inl rfl
          · exact absurd source.symm (other member)
      · rw [if_neg same]
        constructor
        · rintro (found | ⟨member, source⟩)
          · exact .inl found
          · exact .inr ⟨.inr member, source⟩
        · rintro (found | ⟨rfl | member, source⟩)
          · exact .inl found
          · exact absurd source same
          · exact .inr ⟨member, source⟩
    · intro a member
      rw [indexBy, getElem?_insert_ne _ _ (other member)]
      exact apart.2 a member

theorem getElem?_foldl_indexBy_last {key : ν → κ} {l : List ν} :
    (l.foldl (indexBy key) m)[k]? = (l.reverse.find? (key · = k)).or m[k]? := by
  induction l generalizing m with
  | nil => rfl
  | cons first rest ih =>
    rw [List.foldl_cons, ih, List.reverse_cons, List.find?_append, Option.or_assoc, indexBy,
      getElem?_insert]
    congr 1
    by_cases here : key first = k
    · rw [if_pos here, List.find?_cons_of_pos (by exact decide_eq_true here), Option.some_or]
    · rw [if_neg here, List.find?_cons_of_neg (by simpa using here), List.find?_nil, Option.none_or]

theorem set_findIdx {α : Type*} {p : α → Bool} {l : List α} {old : α} (new : α)
    (found : l.find? p = some old) : ∃ before after, l = before ++ old :: after ∧
      l.set (l.findIdx p) new = before ++ new :: after := by
  obtain ⟨passes, before, after, rfl, others⟩ := List.find?_eq_some_iff_append.mp found
  have place : (before ++ old :: after).findIdx p = before.length := by
    have none : before.findIdx p = before.length :=
      List.findIdx_eq_length_of_false fun a member => by simpa using others a member
    rw [List.findIdx_append, none, if_neg (lt_irrefl _), List.findIdx_cons, passes, cond_true, Nat.zero_add]
  exact ⟨before, after, rfl, by rw [place, List.set_append_right _ _ le_rfl, Nat.sub_self, List.set_cons_zero]⟩

theorem getElem?_index_set {key : ν → κ} {l : List ν} {old new : ν}
    (found : l.find? (key · = key new) = some old) (k : κ) :
    ((l.set (l.findIdx (key · = key new)) new).foldl (indexBy key) ∅)[k]? = (l.foldl (indexBy key) ∅)[k]? ∨
      (k = key new ∧ (l.foldl (indexBy key) ∅)[k]? = some old ∧
        ((l.set (l.findIdx (key · = key new)) new).foldl (indexBy key) ∅)[k]? = some new) := by
  have same : key old = key new := by
    have here := List.find?_some found
    exact of_decide_eq_true here
  obtain ⟨before, after, split, replaced⟩ := set_findIdx new found
  rw [replaced, split]
  simp only [getElem?_foldl_indexBy_last, List.reverse_append, List.reverse_cons, List.append_assoc,
    List.find?_append, List.singleton_append]
  cases later : after.reverse.find? (key · = k) with
  | some a => exact .inl rfl
  | none =>
    by_cases here : key new = k
    · rw [List.find?_cons_of_pos (by simpa using here), List.find?_cons_of_pos (by simpa [same] using here)]
      exact .inr ⟨here.symm, rfl, rfl⟩
    · rw [List.find?_cons_of_neg (by simpa using here), List.find?_cons_of_neg (by simpa [same] using here)]
      exact .inl rfl

def indexAll {ε : Type*} (key : ν → κ) (before : ν → Option ε) (duplicate : ν → ε)
    (after : ν → Option ε) : List ν → Std.TreeMap κ ν → Except ε (Std.TreeMap κ ν)
  | [], m => .ok m
  | a :: rest, m => match before a with
      | some refused => .error refused
      | none =>
        if m.contains (key a) then .error (duplicate a)
        else match after a with
          | some refused => .error refused
          | none => indexAll key before duplicate after rest (indexBy key m a)

section IndexAll

variable {ε : Type*} {key : ν → κ} {before after : ν → Option ε} {duplicate : ν → ε} {l : List ν}
  {m m' : Std.TreeMap κ ν}

theorem indexAll_ok : indexAll key before duplicate after l m = .ok m' ↔
    (∀ a ∈ l, before a = none ∧ after a = none) ∧ (l.map key).Nodup ∧
      (∀ a ∈ l, m[key a]? = none) ∧ l.foldl (indexBy key) m = m' := by
  induction l generalizing m with
  | nil => simp [indexAll]
  | cons first rest ih =>
    rw [indexAll, List.foldl_cons, List.map_cons, List.nodup_cons, List.forall_mem_cons,
      List.forall_mem_cons]
    cases early : before first with
    | some refused => simp
    | none =>
      cases seen : m.contains (key first) with
      | true =>
        obtain ⟨old, found⟩ := contains_iff.mp seen
        simp [found]
      | false =>
        have fresh := contains_eq_false.mp seen
        cases late : after first with
        | some refused => simp
        | none =>
          simp only [Bool.false_eq_true, if_false, ih, fresh, true_and]
          have unseen (a : ν) : (indexBy key m first)[key a]? = none ↔
              key first ≠ key a ∧ m[key a]? = none := by
            rw [indexBy, getElem?_insert]
            by_cases same : key first = key a
            · rw [if_pos same]
              simp [same]
            · rw [if_neg same]
              exact (and_iff_right same).symm
          constructor
          · rintro ⟨passed, distinct, apart, folded⟩
            refine ⟨passed, ⟨?_, distinct⟩, fun a member => ((unseen a).mp (apart a member)).2,
              folded⟩
            intro member
            obtain ⟨a, inside, same⟩ := List.mem_map.mp member
            exact ((unseen a).mp (apart a inside)).1 same.symm
          · rintro ⟨passed, ⟨absent, distinct⟩, apart, folded⟩
            refine ⟨passed, distinct, fun a member => (unseen a).mpr ⟨?_, apart a member⟩, folded⟩
            exact fun same => absent (List.mem_map.mpr ⟨a, member, same.symm⟩)

theorem indexAll_error {refused : ε} (failed : indexAll key before duplicate after l m = .error refused) :
    ∃ a ∈ l, before a = some refused ∨ duplicate a = refused ∨ after a = some refused := by
  induction l generalizing m with
  | nil => cases failed
  | cons first rest ih =>
    rw [indexAll] at failed
    cases early : before first with
    | some error =>
      rw [early] at failed
      cases failed
      exact ⟨first, List.mem_cons_self, .inl early⟩
    | none =>
      simp only [early] at failed
      split_ifs at failed with seen
      · cases failed
        exact ⟨first, List.mem_cons_self, .inr (.inl rfl)⟩
      · cases late : after first with
        | some error =>
          rw [late] at failed
          cases failed
          exact ⟨first, List.mem_cons_self, .inr (.inr late)⟩
        | none =>
          rw [late] at failed
          obtain ⟨a, member, reason⟩ := ih failed
          exact ⟨a, List.mem_cons_of_mem _ member, reason⟩

theorem indexAll_error_distinct (distinct : (l.map key).Nodup) (apart : ∀ a ∈ l, m[key a]? = none)
    {refused : ε} (failed : indexAll key before duplicate after l m = .error refused) :
    ∃ a ∈ l, before a = some refused ∨ after a = some refused := by
  induction l generalizing m with
  | nil => cases failed
  | cons first rest ih =>
    rw [List.map_cons, List.nodup_cons] at distinct
    rw [List.forall_mem_cons] at apart
    rw [indexAll] at failed
    cases early : before first with
    | some error =>
      rw [early] at failed
      cases failed
      exact ⟨first, List.mem_cons_self, .inl early⟩
    | none =>
      simp only [early, contains_eq_false.mpr apart.1, Bool.false_eq_true, if_false] at failed
      cases late : after first with
      | some error =>
        rw [late] at failed
        cases failed
        exact ⟨first, List.mem_cons_self, .inr late⟩
      | none =>
        rw [late] at failed
        have still (a : ν) (member : a ∈ rest) : (indexBy key m first)[key a]? = none := by
          rw [indexBy, getElem?_insert_ne]
          · exact apart.2 a member
          · exact fun same => distinct.1 (List.mem_map.mpr ⟨a, member, same.symm⟩)
        obtain ⟨a, member, reason⟩ := ih distinct.2 still failed
        exact ⟨a, List.mem_cons_of_mem _ member, reason⟩

end IndexAll

theorem mem_toList_iff {v : ν} : (k, v) ∈ m.toList ↔ m[k]? = some v :=
  Std.TreeMap.mem_toList_iff_getElem?_eq_some

section Admit

variable {β : Type*}

/-- Each element is admitted in view of the keys of the elements before it. -/
def admitAll (key : α → κ) (enter : Std.TreeSet κ → α → β) : Std.TreeSet κ → List α → List β
  | _, [] => []
  | seen, a :: rest => enter seen a :: admitAll key enter (seen.insert (key a)) rest

variable {key : α → κ} {enter : Std.TreeSet κ → α → β} {l : List α} {seen : Std.TreeSet κ}

theorem map_admitAll {γ : Type*} {f : β → γ} {g : α → γ} (keeps : ∀ seen a, f (enter seen a) = g a) :
    (admitAll key enter seen l).map f = l.map g := by
  induction l generalizing seen with
  | nil => rfl
  | cons a rest ih => rw [admitAll, List.map_cons, List.map_cons, keeps, ih]

theorem mem_admitAll {b : β} (member : b ∈ admitAll key enter seen l) :
    ∃ a ∈ l, ∃ before, enter before a = b := by
  induction l generalizing seen with
  | nil => exact absurd member List.not_mem_nil
  | cons first rest ih =>
    rw [admitAll] at member
    rcases List.mem_cons.mp member with rfl | later
    · exact ⟨first, List.mem_cons_self, seen, rfl⟩
    · obtain ⟨a, inside, before, admitted⟩ := ih later
      exact ⟨a, List.mem_cons_of_mem first inside, before, admitted⟩

variable (key enter seen) in
theorem exists_admitAll {a : α} (member : a ∈ l) :
    ∃ before, enter before a ∈ admitAll key enter seen l := by
  induction l generalizing seen with
  | nil => exact absurd member List.not_mem_nil
  | cons first rest ih =>
    rw [admitAll]
    rcases List.mem_cons.mp member with rfl | later
    · exact ⟨seen, List.mem_cons_self⟩
    · obtain ⟨before, admitted⟩ := ih (seen.insert (key first)) later
      exact ⟨before, List.mem_cons_of_mem _ admitted⟩

theorem admitAll_distinct (fresh : ∀ seen a, key a ∉ seen → enter seen a = enter ∅ a)
    (distinct : (l.map key).Nodup) (unseen : ∀ a ∈ l, key a ∉ seen) :
    admitAll key enter seen l = l.map (enter ∅) := by
  induction l generalizing seen with
  | nil => rfl
  | cons a rest ih =>
    rw [List.map_cons, List.nodup_cons] at distinct
    rw [List.forall_mem_cons] at unseen
    rw [admitAll, fresh seen a unseen.1, List.map_cons, ih distinct.2]
    intro b member old
    rcases mem_insert.mp old with same | old
    · exact distinct.1 (List.mem_map.mpr ⟨b, member, same.symm⟩)
    · exact unseen.2 b member old

variable (enter) in
/-- A key that repeats, or was there before, is met by one of its elements. -/
theorem admitAll_repeated (again : ¬ ((l.map key).Nodup ∧ ∀ a ∈ l, key a ∉ seen)) :
    ∃ a ∈ l, ∃ before, key a ∈ before ∧ enter before a ∈ admitAll key enter seen l := by
  induction l generalizing seen with
  | nil => exact absurd ⟨List.nodup_nil, List.forall_mem_nil _⟩ again
  | cons a rest ih =>
    rw [admitAll]
    by_cases old : key a ∈ seen
    · exact ⟨a, List.mem_cons_self, seen, old, List.mem_cons_self⟩
    · have later : ¬ ((rest.map key).Nodup ∧ ∀ b ∈ rest, key b ∉ seen.insert (key a)) := by
        intro clear
        apply again
        rw [List.map_cons, List.nodup_cons, List.forall_mem_cons]
        refine ⟨⟨?_, clear.1⟩, old, fun b member there => ?_⟩
        · intro repeated
          obtain ⟨b, member, same⟩ := List.mem_map.mp repeated
          exact clear.2 b member (mem_insert.mpr (.inl same.symm))
        · exact clear.2 b member (mem_insert.mpr (.inr there))
      obtain ⟨b, member, before, there, admitted⟩ := ih later
      exact ⟨b, List.mem_cons_of_mem a member, before, there, List.mem_cons_of_mem _ admitted⟩

end Admit

section Find

variable {α ι : Type*} [DecidableEq ι] {key : α → ι} {l l' : List α}

theorem find?_eq_some_iff (distinct : (l.map key).Nodup) {i : ι} {a : α} :
    l.find? (key · = i) = some a ↔ a ∈ l ∧ key a = i := by
  constructor
  · intro found
    have here := List.find?_some found
    exact ⟨List.mem_of_find?_eq_some found, of_decide_eq_true here⟩
  · rintro ⟨member, here⟩
    cases found : l.find? (key · = i) with
    | none => exact absurd (decide_eq_true here) (List.find?_eq_none.mp found a member)
    | some b =>
      have there := List.find?_some found
      rw [List.inj_on_of_nodup_map distinct (List.mem_of_find?_eq_some found) member
        ((of_decide_eq_true there).trans here.symm)]

theorem find?_of_alone {p : α → Bool} {a : α} (member : a ∈ l) (passes : p a = true)
    (alone : ∀ b ∈ l, p b = true → b = a) : l.find? p = some a := by
  cases found : l.find? p with
  | none => exact absurd passes (List.find?_eq_none.mp found a member)
  | some b => rw [alone b (List.mem_of_find?_eq_some found) (List.find?_some found)]

theorem find?_perm (perm : l.Perm l') (distinct : (l.map key).Nodup) (i : ι) :
    l.find? (key · = i) = l'.find? (key · = i) := by
  apply Option.ext
  intro a
  rw [find?_eq_some_iff distinct, find?_eq_some_iff ((perm.map key).nodup distinct), perm.mem_iff]

end Find

end Lookup
