/- JSON texts: a library writes values and reads them back, up to the order of the members. -/
import BorealWork.Library.Drain
import BorealWork.Library.JsonValue

namespace JsonValue
open Drain

/-- Equal but for the order of members, and for members that a later one of their key hides. -/
inductive Same : Value → Value → Prop
  | refl (value : Value) : Same value value
  | array {items items' : List Value} (each : List.Forall₂ Same items items') :
      Same (.array items) (.array items')
  | object {members members' : List (String × Value)}
      (each : ∀ key, Option.Rel Same ((Value.object members).get? key) ((Value.object members').get? key)) :
      Same (.object members) (.object members')

section Same

variable {value value' : Value}

theorem Same.get? (same : Same value value') {key : String} {field : Value}
    (found : value.get? key = some field) : ∃ field', value'.get? key = some field' ∧ Same field field' := by
  cases same with
  | refl => exact ⟨field, found, .refl field⟩
  | array => cases found
  | object each =>
    have related := each key
    rw [found] at related
    generalize (Value.object _).get? key = other at related
    cases related with
    | some alike => exact ⟨_, rfl, alike⟩

theorem Same.null (same : Same .null value') : value' = .null := by
  cases same
  rfl

theorem Same.number {n : Number} (same : Same (.number n) value') : value' = .number n := by
  cases same
  rfl

theorem Same.string {s : String} (same : Same (.string s) value') : value' = .string s := by
  cases same
  rfl

theorem Same.strings {texts : List String} (same : Same (.array (texts.map .string)) value') :
    value' = .array (texts.map .string) := by
  cases same with
  | refl => rfl
  | @array _ items' each =>
    congr 1
    rw [List.forall₂_map_left_iff] at each
    induction each with
    | nil => rfl
    | cons alike _ ih => rw [alike.string, ih, List.map_cons]

theorem Same.members {members : List (String × Value)} (same : Same (.object members) value') :
    ∃ members', value' = .object members' := by
  cases same with
  | refl => exact ⟨members, rfl⟩
  | object => exact ⟨_, rfl⟩

end Same

/-- How a JSON library writes values and reads texts. -/
structure JsonText where
  toString : Value → String
  fromStr : String → Except String Value

def JsonText.ReadsBack (json : JsonText) (value : Value) : Prop :=
  ∃ value', json.fromStr (json.toString value) = .ok value' ∧ Same value value'

end JsonValue
