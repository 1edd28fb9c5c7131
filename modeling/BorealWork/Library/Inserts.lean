/- Tables as lists of rows into which a row goes unless one of its unique keys is taken. -/
import Mathlib

namespace Inserts

variable {α : Type*} {clashes : α → α → Bool} {rows : List α}

/-- `INSERT OR IGNORE`: a row that clashes with one that is there is left out. -/
def insertOrIgnore (clashes : α → α → Bool) (rows : List α) (row : α) : List α :=
  if rows.any (clashes row) then rows else rows ++ [row]

/-- How many rows an insertion adds. -/
def added (clashes : α → α → Bool) (rows : List α) (row : α) : ℕ :=
  if rows.any (clashes row) then 0 else 1

theorem subset_insertOrIgnore (row : α) : rows ⊆ insertOrIgnore clashes rows row := by
  unfold insertOrIgnore
  split
  · exact List.Subset.refl rows
  · exact List.subset_append_left _ _

structure Occupied (kind wanted : α → Prop) (rows : List α) : Prop where
  present : ∃ row ∈ rows, kind row
  all : ∀ row ∈ rows, kind row → wanted row

variable {kind wanted : α → Prop}

theorem Occupied.insert (occupied : Occupied kind wanted rows) {row : α}
    (clash : ∀ present, kind present → kind row → clashes row present = true) :
    Occupied kind wanted (insertOrIgnore clashes rows row) := by
  obtain ⟨present, member, here⟩ := occupied.present
  refine ⟨⟨present, subset_insertOrIgnore row member, here⟩, ?_⟩
  intro other listed same
  unfold insertOrIgnore at listed
  split at listed
  · exact occupied.all other listed same
  · rename_i free
    rcases List.mem_append.mp listed with old | new
    · exact occupied.all other old same
    · rw [List.mem_singleton.mp new] at same
      exact absurd (List.any_eq_true.mpr ⟨present, member, clash present here same⟩) free

theorem Occupied.map (occupied : Occupied kind wanted rows) {f : α → α}
    (kept : ∀ row, kind (f row) ↔ kind row) (good : ∀ row, wanted row → wanted (f row)) :
    Occupied kind wanted (rows.map f) := by
  obtain ⟨present, member, here⟩ := occupied.present
  refine ⟨⟨f present, List.mem_map_of_mem member, (kept present).mpr here⟩, ?_⟩
  intro row listed same
  obtain ⟨before, old, rfl⟩ := List.mem_map.mp listed
  exact good before (occupied.all before old ((kept before).mp same))

end Inserts
