/- Tables: ordered maps in a canonical form, so that equal lookups make equal tables, the rows that
a table is written out as, and the pass that loads it from rows again. -/
import BorealWork.Library.Drain
import BorealWork.Library.Lookup

namespace Tables

variable {κ ν ρ ε : Type} [LinearOrder κ] {m m' : Std.ExtTreeMap κ ν}

theorem getElem?_insert (m : Std.ExtTreeMap κ ν) (k a : κ) (v : ν) :
    (m.insert k v)[a]? = if k = a then some v else m[a]? := by
  rw [Std.ExtTreeMap.getElem?_insert]
  exact if_congr compare_eq_iff_eq rfl rfl

theorem getElem?_insert_self (m : Std.ExtTreeMap κ ν) (k : κ) (v : ν) : (m.insert k v)[k]? = some v := by
  rw [getElem?_insert, if_pos rfl]

theorem getElem?_insert_ne (m : Std.ExtTreeMap κ ν) {k a : κ} (v : ν) (h : k ≠ a) :
    (m.insert k v)[a]? = m[a]? := by
  rw [getElem?_insert, if_neg h]

theorem getElem?_erase (m : Std.ExtTreeMap κ ν) (k a : κ) :
    (m.erase k)[a]? = if k = a then none else m[a]? := by
  rw [Std.ExtTreeMap.getElem?_erase]
  exact if_congr compare_eq_iff_eq rfl rfl

theorem insert_of_present {k : κ} {v : ν} (present : m[k]? = some v) : m.insert k v = m := by
  refine Std.ExtTreeMap.ext_getElem? fun a => ?_
  rw [getElem?_insert]
  split_ifs with same
  · exact same ▸ present.symm
  · rfl

theorem getElem?_foldl_erase (ks : List κ) (m : Std.ExtTreeMap κ ν) (a : κ) :
    (ks.foldl (·.erase ·) m)[a]? = if a ∈ ks then none else m[a]? := by
  induction ks generalizing m with
  | nil => simp
  | cons k rest ih =>
    rw [List.foldl_cons, ih, getElem?_erase]
    by_cases own : a = k
    · simp [own]
    · simp [own, Ne.symm own]

theorem getElem?_filter {f : κ → ν → Bool} {k : κ} {v : ν} :
    (m.filter f)[k]? = some v ↔ m[k]? = some v ∧ f k v = true := by
  rw [Std.ExtTreeMap.getElem?_filter', Option.filter_eq_some_iff]

theorem isEmpty_filter {f : κ → ν → Bool}
    (none : ∀ (k : κ) (v : ν), m[k]? = some v → f k v = false) : (m.filter f).isEmpty = true := by
  refine Std.ExtTreeMap.isEmpty_iff.mpr (Std.ExtTreeMap.ext_getElem? fun k => Option.ext fun v => ?_)
  rw [getElem?_filter, Std.ExtTreeMap.getElem?_empty]
  refine iff_of_false ?_ nofun
  intro ⟨present, kept⟩
  rw [none k v present] at kept
  cases kept

theorem mem_iff {k : κ} : k ∈ m ↔ ∃ v, m[k]? = some v := by
  rw [Std.ExtTreeMap.mem_iff_isSome_getElem?, Option.isSome_iff_exists]

theorem not_mem_iff {k : κ} : k ∉ m ↔ m[k]? = none := by
  rw [Std.ExtTreeMap.mem_iff_isSome_getElem?, Bool.not_eq_true, Option.isSome_eq_false_iff,
    Option.isNone_iff_eq_none]

theorem contains_eq_false {k : κ} : m.contains k = false ↔ m[k]? = none := by
  rw [Std.ExtTreeMap.contains_eq_isSome_getElem?, Option.isSome_eq_false_iff, Option.isNone_iff_eq_none]

theorem getElem?_union_of_apart (apart : ∀ k ∈ m', k ∉ m) {k : κ} {v : ν} :
    (m ∪ m')[k]? = some v ↔ m[k]? = some v ∨ m'[k]? = some v := by
  rw [Std.ExtTreeMap.getElem?_union]
  cases new : m'[k]? with
  | none => simp
  | some w =>
    have old := not_mem_iff.mp (apart k (mem_iff.mpr ⟨w, new⟩))
    simp [old]

theorem size_union_of_apart (apart : ∀ k ∈ m', k ∉ m) : (m ∪ m').size = m.size + m'.size :=
  Std.ExtTreeMap.size_union_of_not_mem fun k old new => apart k new old

theorem size_insert_fresh {k : κ} {v : ν} (fresh : m[k]? = none) : (m.insert k v).size = m.size + 1 := by
  rw [Std.ExtTreeMap.size_insert, contains_eq_false.mpr fresh]
  rfl

/-- The values, in the order of their keys. -/
def rows (m : Std.ExtTreeMap κ ν) : List ν := m.toList.map Prod.snd

theorem mem_rows {v : ν} : v ∈ rows m ↔ ∃ k : κ, m[k]? = some v := by
  simp [rows]

@[simp] theorem length_rows : (rows m).length = m.size := by simp [rows]

theorem rows_single (k : κ) (v : ν) : rows ((∅ : Std.ExtTreeMap κ ν).insert k v) = [v] := by
  have single : (rows ((∅ : Std.ExtTreeMap κ ν).insert k v)).length = 1 := by
    rw [length_rows, size_insert_fresh Std.ExtTreeMap.getElem?_empty, Std.ExtTreeMap.size_empty]
  obtain ⟨row, only⟩ := List.length_eq_one_iff.mp single
  have member : v ∈ rows ((∅ : Std.ExtTreeMap κ ν).insert k v) :=
    mem_rows.mpr ⟨k, getElem?_insert_self _ _ _⟩
  rw [only, List.mem_singleton] at member
  rw [only, member]

theorem rows_map_own {key : ν → κ} (own : ∀ k v, m[k]? = some v → k = key v) :
    (rows m).map (fun v => (key v, v)) = m.toList := by
  rw [rows, List.map_map]
  refine Eq.trans (List.map_congr_left ?_) (List.map_id m.toList)
  intro entry member
  have named : entry.1 = key entry.2 :=
    own entry.1 entry.2 (Std.ExtTreeMap.mem_toList_iff_getElem?_eq_some.mp member)
  exact Prod.ext named.symm rfl

section Load

variable (key : ρ → κ) (value : ρ → ν) (check : ρ → Except ε Unit) (duplicate : ε)

/-- Load rows one at a time: each is checked, and refused when its key is taken. -/
def load : List ρ → Std.ExtTreeMap κ ν → Except ε (Std.ExtTreeMap κ ν)
  | [], m => .ok m
  | row :: rest, m => do
    check row
    if m.contains (key row) then .error duplicate
    else load rest (m.insert (key row) (value row))

variable {key value check duplicate} {l : List ρ}

theorem load_cons_ok {row : ρ} : load key value check duplicate (row :: l) m = .ok m' ↔
    check row = .ok () ∧ m[key row]? = none ∧
      load key value check duplicate l (m.insert (key row) (value row)) = .ok m' := by
  rw [load, Drain.bind_eq_ok]
  constructor
  · intro ⟨_, checked, loaded⟩
    split_ifs at loaded with seen
    exact ⟨checked, contains_eq_false.mp (Bool.eq_false_iff.mpr seen), loaded⟩
  · intro ⟨checked, fresh, loaded⟩
    refine ⟨(), checked, ?_⟩
    rw [contains_eq_false.mpr fresh]
    exact loaded

theorem load_spec (loaded : load key value check duplicate l m = .ok m') :
    (∀ row ∈ l, check row = .ok ()) ∧ m'.size = m.size + l.length ∧
      ∀ k v, m'[k]? = some v ↔ m[k]? = some v ∨ ∃ row ∈ l, key row = k ∧ value row = v := by
  induction l generalizing m with
  | nil =>
    cases loaded
    simp
  | cons row rest ih =>
    obtain ⟨checked, fresh, later⟩ := load_cons_ok.mp loaded
    obtain ⟨others, size, lookup⟩ := ih later
    refine ⟨List.forall_mem_cons.mpr ⟨checked, others⟩, ?_, ?_⟩
    · rw [size, size_insert_fresh fresh, List.length_cons]
      omega
    · intro k v
      rw [lookup, getElem?_insert, List.exists_mem_cons_iff]
      by_cases own : key row = k
      · subst own
        simp [fresh]
      · simp [own]

variable (value duplicate) in
theorem load_ok (checked : ∀ row ∈ l, check row = .ok ()) (distinct : (l.map key).Nodup)
    (fresh : ∀ row ∈ l, m[key row]? = none) :
    ∃ m', load key value check duplicate l m = .ok m' := by
  induction l generalizing m with
  | nil => exact ⟨m, rfl⟩
  | cons row rest ih =>
    rw [List.forall_mem_cons] at checked fresh
    rw [List.map_cons, List.nodup_cons] at distinct
    have later (other : ρ) (member : other ∈ rest) :
        (m.insert (key row) (value row))[key other]? = none := by
      rw [getElem?_insert_ne]
      · exact fresh.2 other member
      · intro same
        exact distinct.1 (List.mem_map.mpr ⟨other, member, same.symm⟩)
    obtain ⟨m', loaded⟩ := ih checked.2 distinct.2 later
    exact ⟨m', load_cons_ok.mpr ⟨checked.1, fresh.1, loaded⟩⟩

theorem load_rows (checked : ∀ row ∈ l, check row = .ok ())
    (rows : (l.map fun row => (key row, value row)).Perm m.toList) :
    load key value check duplicate l ∅ = .ok m := by
  have distinct : (l.map key).Nodup := by
    have keys := (rows.map Prod.fst).nodup_iff.mpr
      (by rw [Std.ExtTreeMap.map_fst_toList_eq_keys]; exact Std.ExtTreeMap.nodup_keys)
    rwa [List.map_map] at keys
  have fresh (row : ρ) (_ : row ∈ l) : (∅ : Std.ExtTreeMap κ ν)[key row]? = none :=
    Std.ExtTreeMap.getElem?_empty
  obtain ⟨m', loaded⟩ := load_ok value duplicate checked distinct fresh
  obtain ⟨_, _, lookup⟩ := load_spec loaded
  have same : m' = m := by
    refine Std.ExtTreeMap.ext_getElem? fun k => Option.ext fun v => ?_
    have entry : m[k]? = some v ↔ ∃ row ∈ l, key row = k ∧ value row = v := by
      rw [← Std.ExtTreeMap.mem_toList_iff_getElem?_eq_some, ← rows.mem_iff, List.mem_map]
      simp
    rw [lookup, entry, Std.ExtTreeMap.getElem?_empty]
    exact or_iff_right nofun
  rw [loaded, same]

end Load

end Tables
