/- The manifest text and the parser written for it: compact texts are read back whole, and the canonical
text of a manifest is the compact text of its canonical content. -/
import BorealWork.ManifestJson

namespace Boreal.Memory
open Drain Sorting
open WorkModel (isControl)

theorem takeHexDigits_append {count value code : ℕ} {digits : List Char}
    (read : takeHexDigits count value digits = .ok (code, [])) (rest : List Char) :
    takeHexDigits count value (digits ++ rest) = .ok (code, rest) := by
  induction count generalizing value digits with
  | zero =>
    obtain ⟨rfl, rfl⟩ := Prod.mk.inj (Except.ok.inj read)
    rfl
  | succ count ih =>
    cases digits with
    | nil => cases read
    | cons c digits =>
      rw [List.cons_append, takeHexDigits]
      rw [takeHexDigits] at read
      cases digit : hexDigit c with
      | none =>
        rw [digit] at read
        cases read
      | some d =>
        rw [digit] at read
        exact ih read

theorem takeHexCodePoint_hexEscape {c : Char} (control : isControl c = true) (rest : List Char) :
    takeHexCodePoint (hexEscape c ++ rest) = .ok (c.toNat, rest) := by
  have all : ∀ n < 0xA0, takeHexDigits 4 0 (List.leftpad 4 '0' (Nat.toDigits 16 n)) = .ok (n, []) := by
    decide +kernel
  have low : c.toNat < 0xA0 := by
    simp only [isControl, Bool.or_eq_true, Bool.and_eq_true, decide_eq_true_eq] at control
    omega
  exact takeHexDigits_append (all c.toNat low) rest

theorem charFromU32_toNat (c : Char) : charFromU32 c.toNat = some c := by
  have valid : c.toNat.isValidChar := c.valid
  rw [charFromU32, if_pos valid, Char.ofNat_toNat]

theorem takeCharacter_escapeCharacter (c : Char) (rest : List Char) :
    takeCharacter (escapeCharacter c ++ rest) = .ok (some c, rest) := by
  unfold escapeCharacter
  split
  · rfl
  · rfl
  · rfl
  · rfl
  · rfl
  case _ quote backslash newline carriage tab =>
    by_cases control : isControl c = true
    · rw [if_pos control]
      change takeEscape ('u' :: (hexEscape c ++ rest)) >>= _ = _
      rw [takeEscape, takeHexCodePoint_hexEscape control]
      simp only [ok_bind, charFromU32_toNat]
      rfl
    · rw [if_neg control, List.cons_append, List.nil_append, takeCharacter, if_neg]
      · intro control'
        apply control
        simp only [isAsciiControl, Bool.or_eq_true, decide_eq_true_eq] at control'
        simp only [isControl, Bool.or_eq_true, Bool.and_eq_true, decide_eq_true_eq]
        omega
      · exact quote
      · exact backslash

theorem escapeCharacter_ne_nil (c : Char) : escapeCharacter c ≠ [] := by
  intro empty
  have read := takeCharacter_escapeCharacter c []
  rw [empty] at read
  cases read

theorem takeCharacters_flatMap {fuel : ℕ} {text : List Char} (enough : text.length < fuel)
    (rest : List Char) :
    takeCharacters fuel (text.flatMap escapeCharacter ++ '"' :: rest) = .ok (text, rest) := by
  induction text generalizing fuel with
  | nil =>
    cases fuel with
    | zero => cases enough
    | succ fuel => rfl
  | cons c text ih =>
    cases fuel with
    | zero => cases enough
    | succ fuel =>
      rw [List.flatMap_cons, List.append_assoc, takeCharacters, takeCharacter_escapeCharacter]
      simp only [ok_bind]
      rw [ih (Nat.lt_of_succ_lt_succ enough)]
      rfl

theorem length_le_flatMap (text : List Char) : text.length ≤ (text.flatMap escapeCharacter).length := by
  induction text with
  | nil => exact le_rfl
  | cons c text ih =>
    rw [List.flatMap_cons, List.length_append, List.length_cons]
    have := List.length_pos_iff.mpr (escapeCharacter_ne_nil c)
    omega

theorem parseString_jsonString (value : String) (rest : List Char) :
    parseString (jsonString value ++ rest) = .ok (value, rest) := by
  have split : jsonString value ++ rest =
      '"' :: (value.toList.flatMap escapeCharacter ++ '"' :: rest) := by
    rw [jsonString, List.cons_append, List.append_assoc]
    rfl
  have enough : value.toList.length <
      (value.toList.flatMap escapeCharacter ++ '"' :: rest).length + 1 := by
    rw [List.length_append]
    have := length_le_flatMap value.toList
    omega
  rw [split, parseString, takeCharacters_flatMap enough]
  simp only [ok_bind, String.ofList_toList]
  rfl

section Compact

mutual

/-- The text of a value without any space. -/
def JsonValue.compact : JsonValue → List Char
  | .object members => '\x7b' :: (compactMembers members ++ ['\x7d'])
  | .array items => '[' :: (compactItems items ++ [']'])
  | .string value => jsonString value
  | .bool value => jsonBool value

def compactMembers : List (String × JsonValue) → List Char
  | [] => []
  | [(key, value)] => jsonString key ++ ':' :: value.compact
  | (key, value) :: rest => jsonString key ++ ':' :: (value.compact ++ ',' :: compactMembers rest)

def compactItems : List JsonValue → List Char
  | [] => []
  | [item] => item.compact
  | item :: rest => item.compact ++ ',' :: compactItems rest

end

theorem compactMembers_cons_cons (key : String) (value : JsonValue) (second : String × JsonValue)
    (more : List (String × JsonValue)) :
    compactMembers ((key, value) :: second :: more) =
      jsonString key ++ ':' :: (value.compact ++ ',' :: compactMembers (second :: more)) := by
  rw [compactMembers]
  exact List.cons_ne_nil _ _

theorem compactItems_cons_cons (item second : JsonValue) (more : List JsonValue) :
    compactItems (item :: second :: more) = item.compact ++ ',' :: compactItems (second :: more) := by
  rw [compactItems]
  exact List.cons_ne_nil _ _

theorem compactItems_eq_intercalate (items : List JsonValue) :
    compactItems items = [','].intercalate (items.map JsonValue.compact) := by
  induction items with
  | nil => rfl
  | cons item rest ih =>
    cases rest with
    | nil => simp [compactItems]
    | cons second more =>
      rw [compactItems_cons_cons, ih]
      simp

/-- A text that starts with none of the characters that the parser skips or ends a list at. -/
def Starts (text : List Char) : Prop :=
  ∃ c rest, text = c :: rest ∧ isAsciiWhitespace c = false ∧ c ≠ ']' ∧ c ≠ '\x7d'

theorem jsonString_starts (value : String) (behind : List Char) : Starts (jsonString value ++ behind) :=
  ⟨'"', _, rfl, by decide, by decide, by decide⟩

theorem compact_starts (value : JsonValue) (behind : List Char) : Starts (value.compact ++ behind) := by
  cases value with
  | object members => exact ⟨'\x7b', _, rfl, by decide, by decide, by decide⟩
  | array items => exact ⟨'[', _, rfl, by decide, by decide, by decide⟩
  | string value => exact jsonString_starts value behind
  | bool value =>
    cases value with
    | true => exact ⟨'t', _, rfl, by decide, by decide, by decide⟩
    | false => exact ⟨'f', _, rfl, by decide, by decide, by decide⟩

theorem Starts.skipSpace {text : List Char} (starts : Starts text) : skipSpace text = text := by
  obtain ⟨c, rest, rfl, solid, _, _⟩ := starts
  exact List.dropWhile_cons_of_neg (by rw [solid]; exact Bool.false_ne_true)

theorem Starts.length_pos {text : List Char} (starts : Starts text) : 0 < text.length := by
  obtain ⟨c, rest, rfl, _⟩ := starts
  exact Nat.succ_pos _

theorem parseMembers_start {fuel : ℕ} {key : String} {behind : List Char} :
    parseMembers (fuel + 1) (jsonString key ++ ':' :: behind) = (do
      let (value, rest) ← parseValue fuel behind
      match skipSpace rest with
      | '\x7d' :: rest => return ([(key, value)], rest)
      | ',' :: rest => do
        let (members, rest) ← parseMembers fuel rest
        return ((key, value) :: members, rest)
      | _ => .error (.invalidManifest "missing object comma")) := by
  rw [parseMembers, (jsonString_starts key _).skipSpace]
  split
  next opening =>
    cases opening
  · rw [parseString_jsonString]
    rfl

theorem parseItems_start {fuel : ℕ} {text : List Char} (starts : Starts text) :
    parseItems (fuel + 1) text = (do
      let (item, rest) ← parseValue fuel text
      match skipSpace rest with
      | ']' :: rest => return ([item], rest)
      | ',' :: rest => do
        let (items, rest) ← parseItems fuel rest
        return (item :: items, rest)
      | _ => .error (.invalidManifest "missing array comma")) := by
  rw [parseItems, starts.skipSpace]
  obtain ⟨c, rest, rfl, _, open_, _⟩ := starts
  split
  next opening =>
    cases opening
    exact absurd rfl open_
  · rfl

theorem parseValue_bool (fuel : ℕ) (value : Bool) (rest : List Char) :
    parseValue (fuel + 1) (jsonBool value ++ rest) = .ok (.bool value, rest) := by
  cases value <;> rfl

mutual

theorem parseValue_compact {fuel : ℕ} (value : JsonValue) (rest : List Char)
    (enough : value.compact.length < fuel) :
    parseValue fuel (value.compact ++ rest) = .ok (value, rest) := by
  cases fuel with
  | zero => cases enough
  | succ fuel =>
    cases value with
    | bool value => exact parseValue_bool fuel value rest
    | string value =>
      rw [JsonValue.compact, parseValue, (jsonString_starts value rest).skipSpace, jsonString,
        List.cons_append]
      change parseString (jsonString value ++ rest) >>= _ = _
      rw [parseString_jsonString]
      rfl
    | array items =>
      rw [JsonValue.compact, List.length_cons, List.length_append] at enough
      rw [parseValue, (compact_starts (.array items) rest).skipSpace, JsonValue.compact,
        List.cons_append, List.append_assoc]
      change parseItems fuel (compactItems items ++ ']' :: rest) >>= _ = _
      rw [parseItems_compact items rest (Nat.lt_of_succ_lt_succ enough)]
      rfl
    | object members =>
      rw [JsonValue.compact, List.length_cons, List.length_append] at enough
      rw [parseValue, (compact_starts (.object members) rest).skipSpace, JsonValue.compact,
        List.cons_append, List.append_assoc]
      change parseMembers fuel (compactMembers members ++ '\x7d' :: rest) >>= _ = _
      rw [parseMembers_compact members rest (Nat.lt_of_succ_lt_succ enough)]
      rfl

theorem parseItems_compact {fuel : ℕ} (items : List JsonValue) (rest : List Char)
    (enough : (compactItems items).length + 1 < fuel) :
    parseItems fuel (compactItems items ++ ']' :: rest) = .ok (items, rest) := by
  cases fuel with
  | zero => cases enough
  | succ fuel =>
    match items with
    | [] => rfl
    | [item] =>
      rw [compactItems] at enough ⊢
      rw [parseItems_start (compact_starts item _),
        parseValue_compact item _ (Nat.lt_of_succ_lt_succ enough)]
      rfl
    | item :: second :: more =>
      rw [compactItems_cons_cons, List.length_append, List.length_cons] at enough
      rw [compactItems_cons_cons, List.append_assoc, List.cons_append,
        parseItems_start (compact_starts item _), parseValue_compact item _ (by omega)]
      change (parseItems fuel (compactItems (second :: more) ++ ']' :: rest) >>= _) = _
      have := (compact_starts item []).length_pos
      rw [List.append_nil] at this
      rw [parseItems_compact (second :: more) rest (by omega)]
      rfl

theorem parseMembers_compact {fuel : ℕ} (members : List (String × JsonValue)) (rest : List Char)
    (enough : (compactMembers members).length + 1 < fuel) :
    parseMembers fuel (compactMembers members ++ '\x7d' :: rest) = .ok (members, rest) := by
  cases fuel with
  | zero => cases enough
  | succ fuel =>
    match members with
    | [] => rfl
    | [(key, value)] =>
      rw [compactMembers, List.length_append, List.length_cons] at enough
      rw [compactMembers, List.append_assoc, List.cons_append, parseMembers_start,
        parseValue_compact value _ (by omega)]
      rfl
    | (key, value) :: second :: more =>
      rw [compactMembers_cons_cons, List.length_append, List.length_cons, List.length_append,
        List.length_cons] at enough
      rw [compactMembers_cons_cons, List.append_assoc, List.cons_append, List.append_assoc,
        List.cons_append, parseMembers_start, parseValue_compact value _ (by omega)]
      change (parseMembers fuel (compactMembers (second :: more) ++ '\x7d' :: rest) >>= _) = _
      rw [parseMembers_compact (second :: more) rest (by omega)]
      rfl

end

theorem parseJson_compact (value : JsonValue) : parseJson value.compact = .ok value := by
  have read := parseValue_compact value [] (by omega : _ < 2 * value.compact.length + 2)
  rw [List.append_nil] at read
  rw [parseJson, read]
  rfl

theorem compact_injective : Function.Injective JsonValue.compact := by
  intro value value' same
  have read := parseJson_compact value
  rw [same, parseJson_compact] at read
  exact (Except.ok.inj read).symm

end Compact

end Boreal.Memory
