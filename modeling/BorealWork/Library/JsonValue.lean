/- JSON values as decoders hand them out: objects as lists of members, the values under a key, and
the length of the compact encoding. -/
import BorealWork.Library.Rendering

namespace JsonValue
open Rendering

/-- Integers are kept apart from what is read as a floating-point number. -/
inductive Number
  | natural (n : ℕ) | negative (n : ℕ) | decimal (text : String)
  deriving DecidableEq

inductive Value
  | null
  | bool (b : Bool)
  | number (n : Number)
  | string (s : String)
  | array (items : List Value)
  | object (members : List (String × Value))

namespace Value

def asString? : Value → Option String
  | string s => some s
  | _ => none

def members? : Value → Option (List (String × Value))
  | object members => some members
  | _ => none

def get? (value : Value) (key : String) : Option Value := do
  let member ← (← value.members?).reverse.find? (fun member => member.1 = key)
  return member.2

def getString? (value : Value) (key : String) : Option String :=
  (value.get? key).bind asString?

end Value

section Encoding

/-- Quotes, backslashes and the named control characters take two bytes, the other control
characters six, and every other character its UTF-8 size. -/
def escapedLength (c : Char) : ℕ :=
  if c ∈ ['"', '\\', '\x08', '\x0c', '\n', '\r', '\t'] then 2
  else if c.toNat < 0x20 then 6
  else c.utf8Size

def quotedLength (s : String) : ℕ := 2 + (s.toList.map escapedLength).sum

def Number.encodedLength : Number → ℕ
  | .natural n => (Nat.toDigits 10 n).length
  | .negative n => 1 + (Nat.toDigits 10 (n + 1)).length
  | .decimal text => text.utf8ByteSize

mutual

/-- The length in bytes of the compact encoding. -/
def Value.encodedLength : Value → ℕ
  | .null => 4
  | .bool b => if b then 4 else 5
  | .number n => n.encodedLength
  | .string s => quotedLength s
  | .array items => 2 + itemsLength items
  | .object members => 2 + membersLength members

def itemsLength : List Value → ℕ
  | [] => 0
  | [item] => item.encodedLength
  | item :: rest => item.encodedLength + 1 + itemsLength rest

def membersLength : List (String × Value) → ℕ
  | [] => 0
  | [(key, value)] => quotedLength key + 1 + value.encodedLength
  | (key, value) :: rest => quotedLength key + 1 + value.encodedLength + 1 + membersLength rest

end

end Encoding

section Code

def quoted : String → List Char := debugString fun _ => false

theorem quoted_prefixFree : PrefixFree quoted := debugString_prefixFree _

def Number.code : Number → List Char
  | .natural n => 'd' :: (Nat.toDigits 10 n ++ ['.'])
  | .negative n => 'm' :: (Nat.toDigits 10 n ++ ['.'])
  | .decimal text => 'x' :: quoted text

mutual

/-- A text that starts with a letter for the kind of value and is uniquely readable. -/
def Value.code : Value → List Char
  | .null => ['n']
  | .bool b => ['b', if b then 't' else 'f']
  | .number n => 'i' :: n.code
  | .string s => 's' :: quoted s
  | .array items => 'a' :: itemsCode items
  | .object members => 'o' :: membersCode members

def itemsCode : List Value → List Char
  | [] => ['.']
  | item :: rest => ',' :: (item.code ++ itemsCode rest)

def membersCode : List (String × Value) → List Char
  | [] => ['.']
  | (key, value) :: rest => ',' :: (quoted key ++ (value.code ++ membersCode rest))

end

theorem Number.code_prefixFree : PrefixFree Number.code := by
  intro a b s t same
  cases a <;> cases b <;> simp only [Number.code, List.cons_append, List.append_assoc, List.nil_append,
    List.cons.injEq, true_and] at same
  case natural.natural =>
    obtain ⟨rfl, rest⟩ := toDigits_delimited (by decide) (by decide) (by decide) same
    exact ⟨rfl, rest⟩
  case negative.negative =>
    obtain ⟨rfl, rest⟩ := toDigits_delimited (by decide) (by decide) (by decide) same
    exact ⟨rfl, rest⟩
  case decimal.decimal =>
    obtain ⟨rfl, rest⟩ := quoted_prefixFree same
    exact ⟨rfl, rest⟩
  all_goals exact absurd same.1 (by decide)

mutual

theorem Value.code_prefixFree (value : Value) : ∀ (value' : Value) (s t : List Char),
    value.code ++ s = value'.code ++ t → value = value' ∧ s = t := by
  intro value' s t same
  match value, value' with
  | .null, .null => exact ⟨rfl, by simpa [Value.code] using same⟩
  | .bool b, .bool b' =>
    cases b <;> cases b' <;> simp [Value.code] at same ⊢ <;> exact same
  | .number n, .number n' =>
    simp only [Value.code, List.cons_append, List.cons.injEq, true_and] at same
    obtain ⟨rfl, rest⟩ := Number.code_prefixFree same
    exact ⟨rfl, rest⟩
  | .string text, .string text' =>
    simp only [Value.code, List.cons_append, List.cons.injEq, true_and] at same
    obtain ⟨rfl, rest⟩ := quoted_prefixFree same
    exact ⟨rfl, rest⟩
  | .array items, .array items' =>
    simp only [Value.code, List.cons_append, List.cons.injEq, true_and] at same
    obtain ⟨rfl, rest⟩ := itemsCode_prefixFree items items' s t same
    exact ⟨rfl, rest⟩
  | .object members, .object members' =>
    simp only [Value.code, List.cons_append, List.cons.injEq, true_and] at same
    obtain ⟨rfl, rest⟩ := membersCode_prefixFree members members' s t same
    exact ⟨rfl, rest⟩
  | .null, .bool _ | .null, .number _ | .null, .string _ | .null, .array _ | .null, .object _
  | .bool _, .null | .bool _, .number _ | .bool _, .string _ | .bool _, .array _ | .bool _, .object _
  | .number _, .null | .number _, .bool _ | .number _, .string _ | .number _, .array _
  | .number _, .object _ | .string _, .null | .string _, .bool _ | .string _, .number _
  | .string _, .array _ | .string _, .object _ | .array _, .null | .array _, .bool _
  | .array _, .number _ | .array _, .string _ | .array _, .object _ | .object _, .null
  | .object _, .bool _ | .object _, .number _ | .object _, .string _ | .object _, .array _ =>
    simp [Value.code] at same

theorem itemsCode_prefixFree (items : List Value) : ∀ (items' : List Value) (s t : List Char),
    itemsCode items ++ s = itemsCode items' ++ t → items = items' ∧ s = t := by
  intro items' s t same
  match items, items' with
  | [], [] => exact ⟨rfl, by simpa [itemsCode] using same⟩
  | [], _ :: _ | _ :: _, [] => simp [itemsCode] at same
  | item :: rest, item' :: rest' =>
    simp only [itemsCode, List.cons_append, List.append_assoc, List.cons.injEq, true_and] at same
    obtain ⟨rfl, later⟩ := Value.code_prefixFree item item' _ _ same
    obtain ⟨rfl, last⟩ := itemsCode_prefixFree rest rest' s t later
    exact ⟨rfl, last⟩

theorem membersCode_prefixFree (members : List (String × Value)) :
    ∀ (members' : List (String × Value)) (s t : List Char),
    membersCode members ++ s = membersCode members' ++ t → members = members' ∧ s = t := by
  intro members' s t same
  match members, members' with
  | [], [] => exact ⟨rfl, by simpa [membersCode] using same⟩
  | [], (_, _) :: _ | (_, _) :: _, [] => simp [membersCode] at same
  | (key, value) :: rest, (key', value') :: rest' =>
    simp only [membersCode, List.cons_append, List.append_assoc, List.cons.injEq, true_and] at same
    obtain ⟨rfl, tail⟩ := quoted_prefixFree same
    obtain ⟨rfl, later⟩ := Value.code_prefixFree value value' _ _ tail
    obtain ⟨rfl, last⟩ := membersCode_prefixFree rest rest' s t later
    exact ⟨rfl, last⟩

end

theorem Value.code_injective : Function.Injective fun value : Value => String.ofList value.code := by
  intro value value' same
  have texts := congrArg String.toList same
  rw [String.toList_ofList, String.toList_ofList] at texts
  exact (Value.code_prefixFree value value' [] [] (by rw [texts])).1

end Code

end JsonValue
