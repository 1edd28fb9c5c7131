/- The compact encoding of JSON values: its size, and that it is a text of the grammar. -/
import BorealWork.Library.JsonGrammar
import BorealWork.Library.JsonValue

namespace JsonValue
open JsonGrammar

def textSize (text : List Char) : ℕ := (text.map Char.utf8Size).sum

@[simp] theorem textSize_nil : textSize [] = 0 := rfl

@[simp] theorem textSize_cons (c : Char) (text : List Char) :
    textSize (c :: text) = c.utf8Size + textSize text := rfl

@[simp] theorem textSize_append (text more : List Char) :
    textSize (text ++ more) = textSize text + textSize more := by
  rw [textSize, List.map_append, List.sum_append, textSize, textSize]

theorem utf8ByteSize_ofList (text : List Char) : (String.ofList text).utf8ByteSize = textSize text := by
  induction text with
  | nil => rfl
  | cons c rest ih =>
    rw [String.ofList_cons, String.utf8ByteSize_append, String.utf8ByteSize_singleton, ih, textSize_cons]

theorem utf8ByteSize_eq (text : String) : text.utf8ByteSize = textSize text.toList := by
  rw [← utf8ByteSize_ofList, String.ofList_toList]

@[elab_as_elim]
theorem Value.nested {P : Value → Prop} (null : P .null) (bool : ∀ b, P (.bool b))
    (number : ∀ n, P (.number n)) (string : ∀ s, P (.string s))
    (array : ∀ items, (∀ item ∈ items, P item) → P (.array items))
    (object : ∀ members, (∀ member ∈ members, P member.2) → P (.object members)) (value : Value) :
    P value :=
  @Value.rec P (fun items => ∀ item ∈ items, P item) (fun members => ∀ member ∈ members, P member.2)
    (fun member => P member.2) null bool number string array object (List.forall_mem_nil _)
    (fun _ _ first rest => List.forall_mem_cons.mpr ⟨first, rest⟩) (List.forall_mem_nil _)
    (fun _ _ first rest => List.forall_mem_cons.mpr ⟨first, rest⟩) (fun _ _ value => value) value

section Texts

/-- The characters that are escaped by a letter behind a backslash. -/
def letterEscapes : List (Char × Char) :=
  [('"', '"'), ('\\', '\\'), ('\x08', 'b'), ('\x0c', 'f'), ('\n', 'n'), ('\r', 'r'), ('\t', 't')]

def escapeLetter (c : Char) : Option Char := letterEscapes.lookup c

def escapedChar (c : Char) : List Char :=
  match escapeLetter c with
  | some letter => ['\\', letter]
  | none =>
    if c.toNat < 0x20 then
      ['\\', 'u', '0', '0', (c.toNat / 16).digitChar, (c.toNat % 16).digitChar]
    else [c]

def encodedString (s : String) : List Char := '"' :: (s.toList.flatMap escapedChar ++ ['"'])

def Number.encode : Number → List Char
  | .natural n => Nat.toDigits 10 n
  | .negative n => '-' :: Nat.toDigits 10 (n + 1)
  | .decimal text => text.toList

mutual

def Value.encode : Value → List Char
  | .null => ['n', 'u', 'l', 'l']
  | .bool b => if b then ['t', 'r', 'u', 'e'] else ['f', 'a', 'l', 's', 'e']
  | .number n => n.encode
  | .string s => encodedString s
  | .array items => '[' :: (encodedItems items ++ [']'])
  | .object members => '\x7b' :: (encodedMembers members ++ ['\x7d'])

def encodedItems : List Value → List Char
  | [] => []
  | [item] => item.encode
  | item :: rest => item.encode ++ ',' :: encodedItems rest

def encodedMembers : List (String × Value) → List Char
  | [] => []
  | [(key, value)] => encodedString key ++ ':' :: value.encode
  | (key, value) :: rest => encodedString key ++ ':' :: (value.encode ++ ',' :: encodedMembers rest)

end

theorem encodedItems_cons_cons (item next : Value) (rest : List Value) :
    encodedItems (item :: next :: rest) = item.encode ++ ',' :: encodedItems (next :: rest) := rfl

theorem encodedMembers_cons_cons (key : String) (value : Value) (next : String × Value)
    (rest : List (String × Value)) : encodedMembers ((key, value) :: next :: rest) =
      encodedString key ++ ':' :: (value.encode ++ ',' :: encodedMembers (next :: rest)) := rfl

end Texts

section Sizes

/-- The length of texts with a character between each two of them. -/
def joinedLength (lengths : List ℕ) : ℕ := lengths.sum + (lengths.length - 1)

theorem joinedLength_cons_cons (first second : ℕ) (rest : List ℕ) :
    joinedLength (first :: second :: rest) = first + 1 + joinedLength (second :: rest) := by
  simp only [joinedLength, List.sum_cons, List.length_cons]
  omega

theorem itemsLength_eq (items : List Value) :
    itemsLength items = joinedLength (items.map Value.encodedLength) := by
  induction items with
  | nil => rfl
  | cons item rest ih =>
    cases rest with
    | nil => rfl
    | cons next rest =>
      rw [List.map_cons, List.map_cons, joinedLength_cons_cons, ← List.map_cons, ← ih]
      rfl

theorem membersLength_eq (members : List (String × Value)) : membersLength members =
    joinedLength (members.map fun member => quotedLength member.1 + 1 + member.2.encodedLength) := by
  induction members with
  | nil => rfl
  | cons member rest ih =>
    cases rest with
    | nil => rfl
    | cons next rest =>
      rw [List.map_cons] at ih
      rw [List.map_cons, List.map_cons, joinedLength_cons_cons, ← ih]
      rfl

theorem digitChar_utf8Size {d : ℕ} (digit : d < 16) : d.digitChar.utf8Size = 1 := by
  interval_cases d <;> rfl

theorem escapeLetter_some {c letter : Char} (found : escapeLetter c = some letter) :
    (c, letter) ∈ letterEscapes := by
  obtain ⟨before, after, split, _⟩ := List.lookup_eq_some_iff.mp found
  rw [split]
  exact List.mem_append_right _ List.mem_cons_self

theorem escapeLetter_none {c : Char} (missing : escapeLetter c = none) :
    c ∉ letterEscapes.map Prod.fst := by
  intro member
  obtain ⟨pair, listed, rfl⟩ := List.mem_map.mp member
  simpa using List.lookup_eq_none_iff.mp missing pair listed

theorem textSize_escapedChar (c : Char) : textSize (escapedChar c) = escapedLength c := by
  unfold escapedChar escapedLength
  cases found : escapeLetter c with
  | some letter =>
    have small : ∀ pair ∈ letterEscapes, pair.2.utf8Size = 1 := by decide
    have member : c ∈ letterEscapes.map Prod.fst := List.mem_map_of_mem (escapeLetter_some found)
    have listed : c ∈ ['"', '\\', '\x08', '\x0c', '\n', '\r', '\t'] := member
    rw [if_pos listed]
    simp only [textSize_cons, textSize_nil, small _ (escapeLetter_some found)]
    rfl
  | none =>
    have plain : c ∉ ['"', '\\', '\x08', '\x0c', '\n', '\r', '\t'] := escapeLetter_none found
    rw [if_neg plain]
    by_cases low : c.toNat < 0x20
    · have high : (c.toNat / 16).digitChar.utf8Size = 1 := digitChar_utf8Size (by omega)
      have last : (c.toNat % 16).digitChar.utf8Size = 1 := digitChar_utf8Size (by omega)
      simp only [if_pos low, textSize_cons, high, last, textSize_nil]
      rfl
    · simp only [if_neg low, textSize_cons, textSize_nil, Nat.add_zero]

theorem textSize_flatMap (text : List Char) (f : Char → List Char) :
    textSize (text.flatMap f) = (text.map fun c => textSize (f c)).sum := by
  induction text with
  | nil => rfl
  | cons c rest ih => rw [List.flatMap_cons, textSize_append, ih, List.map_cons, List.sum_cons]

theorem textSize_encodedString (s : String) : textSize (encodedString s) = quotedLength s := by
  have quote : '"'.utf8Size = 1 := rfl
  rw [encodedString, textSize_cons, textSize_append, textSize_flatMap, quote, quotedLength,
    List.map_congr_left fun c _ => textSize_escapedChar c]
  simp only [textSize_cons, quote, textSize_nil]
  omega

theorem utf8Size_isDigit {c : Char} (digit : c.isDigit = true) : c.utf8Size = 1 := by
  rw [Char.utf8Size_eq_one_iff, UInt32.le_iff_toNat_le]
  simp only [Char.isDigit, Bool.and_eq_true, decide_eq_true_eq] at digit
  have most : c.val.toNat ≤ 57 := digit.2
  change c.val.toNat ≤ 127
  omega

theorem textSize_digits {text : List Char} (digits : ∀ c ∈ text, c.isDigit = true) :
    textSize text = text.length := by
  induction text with
  | nil => rfl
  | cons c rest ih =>
    rw [List.forall_mem_cons] at digits
    rw [textSize_cons, utf8Size_isDigit digits.1, ih digits.2, List.length_cons, Nat.add_comm]

theorem toDigits_isDigit (n : ℕ) : ∀ c ∈ Nat.toDigits 10 n, c.isDigit = true :=
  fun _ member => Nat.isDigit_of_mem_toDigits (by decide) (by decide) member

theorem Number.textSize_encode (n : Number) : textSize n.encode = n.encodedLength := by
  cases n with
  | natural n => exact textSize_digits (toDigits_isDigit n)
  | negative n =>
    have minus : '-'.utf8Size = 1 := rfl
    rw [Number.encode, textSize_cons, textSize_digits (toDigits_isDigit _), minus, Number.encodedLength]
  | decimal text => exact (utf8ByteSize_eq text).symm

mutual

theorem Value.textSize_encode (value : Value) : textSize value.encode = value.encodedLength := by
  match value with
  | .null => rfl
  | .bool b => cases b <;> rfl
  | .number n => exact n.textSize_encode
  | .string s => exact textSize_encodedString s
  | .array items =>
    have bracket : '['.utf8Size = 1 ∧ ']'.utf8Size = 1 := ⟨rfl, rfl⟩
    rw [Value.encode, textSize_cons, textSize_append, textSize_encodedItems items, bracket.1,
      textSize_cons, bracket.2, textSize_nil, Value.encodedLength]
    omega
  | .object members =>
    have brace : '\x7b'.utf8Size = 1 ∧ '\x7d'.utf8Size = 1 := ⟨rfl, rfl⟩
    rw [Value.encode, textSize_cons, textSize_append, textSize_encodedMembers members, brace.1,
      textSize_cons, brace.2, textSize_nil, Value.encodedLength]
    omega

theorem textSize_encodedItems (items : List Value) : textSize (encodedItems items) = itemsLength items := by
  match items with
  | [] => rfl
  | [item] => exact item.textSize_encode
  | item :: next :: rest =>
    have comma : ','.utf8Size = 1 := rfl
    have length : itemsLength (item :: next :: rest) =
        item.encodedLength + 1 + itemsLength (next :: rest) := rfl
    rw [encodedItems_cons_cons, textSize_append, item.textSize_encode, textSize_cons, comma,
      textSize_encodedItems (next :: rest), length]
    omega

theorem textSize_encodedMembers (members : List (String × Value)) :
    textSize (encodedMembers members) = membersLength members := by
  have colon : ':'.utf8Size = 1 := rfl
  match members with
  | [] => rfl
  | [(key, value)] =>
    rw [encodedMembers, textSize_append, textSize_encodedString, textSize_cons, colon,
      value.textSize_encode, membersLength]
    omega
  | (key, value) :: next :: rest =>
    have comma : ','.utf8Size = 1 := rfl
    have length : membersLength ((key, value) :: next :: rest) =
        quotedLength key + 1 + value.encodedLength + 1 + membersLength (next :: rest) := rfl
    rw [encodedMembers_cons_cons, textSize_append, textSize_encodedString, textSize_cons, colon,
      textSize_append, value.textSize_encode, textSize_cons, comma,
      textSize_encodedMembers (next :: rest), length]
    omega

end

end Sizes

section Grammar

variable {allowed : ℕ → Prop}

/-- Floating-point numbers keep their text, which is a number's. -/
def Number.Spelled : Number → Prop
  | .decimal text => JsonGrammar.Number text.toList []
  | _ => True

mutual

def Value.Spelled : Value → Prop
  | .number n => n.Spelled
  | .array items => ItemsSpelled items
  | .object members => MembersSpelled members
  | _ => True

def ItemsSpelled : List Value → Prop
  | [] => True
  | item :: rest => item.Spelled ∧ ItemsSpelled rest

def MembersSpelled : List (String × Value) → Prop
  | [] => True
  | (_, value) :: rest => value.Spelled ∧ MembersSpelled rest

end

theorem escaped_characters (control : ∀ code < 0x20, allowed code) (text rest : List Char) :
    Characters allowed (text.flatMap escapedChar ++ '"' :: rest) rest := by
  induction text with
  | nil => exact .close
  | cons c text ih =>
    rw [List.flatMap_cons, List.append_assoc]
    unfold escapedChar
    cases found : escapeLetter c with
    | some letter =>
      have escapable : ∀ pair ∈ letterEscapes, isEscapable pair.2 = true := by decide
      exact .escape (escapable _ (escapeLetter_some found)) ih
    | none =>
      have plain : c ∉ ['"', '\\', '\x08', '\x0c', '\n', '\r', '\t'] := escapeLetter_none found
      by_cases low : c.toNat < 0x20
      · have quads : ∀ n < 0x20, hexQuad '0' '0' (n / 16).digitChar (n % 16).digitChar = some n := by
          decide
        simp only [if_pos low]
        exact .unicode (quads c.toNat low) (control _ low) ih
      · simp only [if_neg low]
        refine .plain (Nat.le_of_not_lt low) ?_ ?_ ih
        · rintro rfl
          exact plain (by decide)
        · rintro rfl
          exact plain (by decide)

theorem leadingDigit (n : ℕ) : ∃ c digits, Nat.toDigits 10 n = c :: digits ∧ (c = '0' → n = 0) := by
  induction n using Nat.strong_induction_on with
  | _ n ih =>
    rcases lt_or_ge n 10 with small | large
    · refine ⟨n.digitChar, [], Nat.toDigits_of_lt_base small, fun zero => ?_⟩
      exact Nat.digitChar_eq_zero.mp zero
    · obtain ⟨c, digits, front, leading⟩ := ih (n / 10) (by omega)
      refine ⟨c, digits ++ [(n % 10).digitChar], ?_, fun zero => ?_⟩
      · rw [Nat.toDigits_of_base_le (by decide) large, front, List.cons_append]
      · have := leading zero
        omega

theorem digits_of_all {c : Char} {digits : List Char} (all : ∀ d ∈ c :: digits, d.isDigit = true)
    (rest : List Char) : Digits (c :: digits ++ rest) rest := by
  induction digits generalizing c with
  | nil => exact .last (all c List.mem_cons_self)
  | cons d digits ih =>
    exact .more (all c List.mem_cons_self) (ih fun e member => all e (List.mem_cons_of_mem _ member))

theorem toDigits_integer (n : ℕ) (rest : List Char) : Integer (Nat.toDigits 10 n ++ rest) rest := by
  obtain ⟨c, digits, front, leading⟩ := leadingDigit n
  have all := toDigits_isDigit n
  rw [front] at all ⊢
  by_cases zero : c = '0'
  · have none : n = 0 := leading zero
    subst none
    obtain ⟨rfl, rfl⟩ := List.cons.inj (front.symm.trans (show Nat.toDigits 10 0 = '0' :: [] by decide))
    exact .zero
  · cases digits with
    | nil => exact .digit (all c List.mem_cons_self) zero
    | cons d digits =>
      exact .digits (all c List.mem_cons_self) zero
        (digits_of_all (fun e member => all e (List.mem_cons_of_mem _ member)) rest)

theorem Number.encode_number {n : Number} (spelled : n.Spelled) (rest : List Char) :
    JsonGrammar.Number (n.encode ++ rest) rest := by
  cases n with
  | natural n => exact .mk .absent (toDigits_integer n rest) .absent .absent
  | negative n => exact .mk .present (toDigits_integer (n + 1) rest) .absent .absent
  | decimal text =>
    obtain ⟨taken, whole, _, shift⟩ := number_takes _ _ spelled
    rw [List.append_nil] at whole
    rw [Number.encode, whole]
    exact shift rest

theorem encodedString_append (s : String) (rest : List Char) :
    encodedString s ++ rest = '"' :: (s.toList.flatMap escapedChar ++ '"' :: rest) := by
  rw [encodedString, List.cons_append, List.append_assoc, List.singleton_append]

mutual

theorem Value.encode_derives (control : ∀ code < 0x20, allowed code) (value : Value)
    (spelled : value.Spelled) (rest : List Char) : Derives allowed .value (value.encode ++ rest) rest := by
  match value with
  | .null => exact .null
  | .bool b =>
    cases b with
    | false => exact .false
    | true => exact .true
  | .number n => exact .number (Number.encode_number spelled rest)
  | .string s =>
    rw [Value.encode, encodedString_append]
    exact .string (escaped_characters control _ rest)
  | .array [] => exact .emptyArray .none
  | .array (item :: items) =>
    rw [Value.encode, List.cons_append, List.append_assoc]
    exact .array (encodedItems_derives control (item :: items) (List.cons_ne_nil _ _) spelled rest)
  | .object [] => exact .emptyObject .none
  | .object (member :: members) =>
    rw [Value.encode, List.cons_append, List.append_assoc]
    exact .object (encodedMembers_derives control (member :: members) (List.cons_ne_nil _ _) spelled rest)

theorem encodedItems_derives (control : ∀ code < 0x20, allowed code) (items : List Value)
    (some : items ≠ []) (spelled : ItemsSpelled items) (rest : List Char) :
    Derives allowed .elements (encodedItems items ++ (']' :: rest)) rest := by
  match items with
  | [] => exact absurd rfl some
  | [item] => exact .lastElement .none (item.encode_derives control spelled.1 _) .none
  | item :: next :: items =>
    rw [encodedItems_cons_cons, List.append_assoc]
    exact .element .none (item.encode_derives control spelled.1 _) .none
      (encodedItems_derives control (next :: items) (List.cons_ne_nil _ _) spelled.2 rest)

theorem encodedMembers_derives (control : ∀ code < 0x20, allowed code)
    (members : List (String × Value)) (some : members ≠ []) (spelled : MembersSpelled members)
    (rest : List Char) : Derives allowed .members (encodedMembers members ++ ('\x7d' :: rest)) rest := by
  match members with
  | [] => exact absurd rfl some
  | [(key, value)] =>
    rw [encodedMembers, List.append_assoc, encodedString_append]
    exact .lastMember .none (escaped_characters control _ _) .none .none
      (value.encode_derives control spelled.1 _) .none
  | (key, value) :: next :: members =>
    rw [encodedMembers_cons_cons, List.append_assoc, encodedString_append, List.cons_append,
      List.append_assoc]
    exact .member .none (escaped_characters control _ _) .none .none
      (value.encode_derives control spelled.1 _) .none
      (encodedMembers_derives control (next :: members) (List.cons_ne_nil _ _) spelled.2 rest)

end

end Grammar

end JsonValue
