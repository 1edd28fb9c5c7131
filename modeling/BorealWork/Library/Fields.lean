/- Fields that stand one behind the other in a text: where each of them stands, and tables of entries
of one width. -/
import Mathlib

namespace Fields

variable {α β : Type} {text field field' : List α} {start : ℕ}

def Stands (text : List α) (start : ℕ) (field : List α) : Prop :=
  ∃ before rest, text = before ++ (field ++ rest) ∧ before.length = start

theorem Stands.length_le (stands : Stands text start field) : start + field.length ≤ text.length := by
  obtain ⟨before, rest, rfl, rfl⟩ := stands
  simp only [List.length_append]
  omega

theorem stands_nil : Stands text start [] ↔ start ≤ text.length := by
  constructor
  · exact fun stands => stands.length_le
  · intro inside
    exact ⟨text.take start, text.drop start, (List.take_append_drop start text).symm,
      List.length_take_of_le inside⟩

theorem stands_append : Stands text start (field ++ field') ↔
    Stands text start field ∧ Stands text (start + field.length) field' := by
  constructor
  · rintro ⟨before, rest, rfl, rfl⟩
    refine ⟨⟨before, field' ++ rest, by rw [List.append_assoc], rfl⟩, before ++ field, rest, ?_, ?_⟩
    · simp only [List.append_assoc]
    · exact List.length_append
  · rintro ⟨⟨before, rest, rfl, rfl⟩, before', rest', same, place⟩
    rw [← List.append_assoc] at same
    obtain ⟨front, behind⟩ := List.append_inj same (by rw [List.length_append, place])
    exact ⟨before, rest', by rw [behind, List.append_assoc], rfl⟩

theorem exists_stands {length : ℕ} (room : start + length ≤ text.length) :
    ∃ field, field.length = length ∧ Stands text start field := by
  refine ⟨(text.drop start).take length, ?_, text.take start, (text.drop start).drop length, ?_, ?_⟩
  · rw [List.length_take, List.length_drop]
    omega
  · rw [List.take_append_drop, List.take_append_drop]
  · exact List.length_take_of_le (by omega)

theorem stands_iff_slice : Stands text start field ↔
    start + field.length ≤ text.length ∧ (text.drop start).take field.length = field := by
  constructor
  · intro stands
    refine ⟨stands.length_le, ?_⟩
    obtain ⟨before, rest, rfl, rfl⟩ := stands
    rw [List.drop_left, List.take_left]
  · rintro ⟨room, slice⟩
    obtain ⟨field', length, stands⟩ := exists_stands room
    obtain ⟨before, rest, rfl, rfl⟩ := stands
    rw [List.drop_left, ← length, List.take_left] at slice
    exact slice ▸ ⟨before, rest, rfl, rfl⟩

theorem stands_all : Stands text 0 field ↔ ∃ rest, text = field ++ rest := by
  constructor
  · rintro ⟨before, rest, rfl, none_⟩
    obtain rfl := List.length_eq_zero_iff.mp none_
    exact ⟨rest, rfl⟩
  · rintro ⟨rest, rfl⟩
    exact ⟨[], rest, rfl, rfl⟩

/-- Fields that stand one behind the other from a place on. -/
def Laid (text : List α) : ℕ → List (List α) → Prop
  | start, [] => start ≤ text.length
  | start, field :: rest => Stands text start field ∧ Laid text (start + field.length) rest

theorem stands_flatten {fields : List (List α)} :
    Stands text start fields.flatten ↔ Laid text start fields := by
  induction fields generalizing start with
  | nil => exact stands_nil
  | cons field rest ih => rw [List.flatten_cons, stands_append, ih, Laid]

section Tables

variable {width : ℕ} {encode : β → List α}

theorem length_table (each : ∀ b, (encode b).length = width) (entries : List β) :
    (entries.flatMap encode).length = entries.length * width := by
  rw [List.length_flatMap, List.map_congr_left fun b _ => each b, List.map_const', List.sum_replicate,
    smul_eq_mul]

end Tables

end Fields
