/- What the transport writes is what it reads: envelopes on both sides of a socket, and the frames
that carry them. -/
import BorealWork.JsonAcceptance
import BorealWork.Transport

namespace Boreal.Service
open Boreal.Source (fromBeBytes_beBytes fromUtf8 fromUtf8_utf8 length_beBytes utf8)
open WorkModel (isControl)
open Drain JsonGrammar Utf8

theorem fromU32_toNat (c : Char) : fromU32 c.toNat = some c := by
  have valid : c.toNat < 0xD800 ∨ 0xDFFF < c.toNat ∧ c.toNat < 0x110000 := c.valid
  rw [fromU32, if_pos valid, Char.ofNat_toNat]

/-- The three ways of the writer: a short escape, an escaped code, or the character itself. -/
inductive Quoted (c : Char) : List Char → Prop
  | short {letter : Char} : isEscapable letter = true → IsAscii letter →
      simpleEscape letter.toUInt8 = some c → Quoted c ['\\', letter]
  | code {w x y z : Char} : hexQuad w x y z = some c.toNat → NotSurrogate c.toNat →
      Quoted c ['\\', 'u', w, x, y, z]
  | plain : 0x20 ≤ c.toNat → c ≠ '\x22' → c ≠ '\\' → Quoted c [c]

theorem hexPadded_small : ∀ code < 0xA0, ∃ w x y z, hexPadded code = [w, x, y, z] ∧
    hexQuad w x y z = some code := by
  intro code small
  have quads : ∀ code < 0xA0, hexPadded code =
      [(hexPadded code)[0]!, (hexPadded code)[1]!, (hexPadded code)[2]!, (hexPadded code)[3]!] ∧
      hexQuad (hexPadded code)[0]! (hexPadded code)[1]! (hexPadded code)[2]! (hexPadded code)[3]! =
        some code := by decide +kernel
  exact ⟨_, _, _, _, quads code small⟩

theorem quoted (c : Char) : Quoted c (quoteCharacter c) := by
  unfold quoteCharacter
  split_ifs with quote escape newline carriage tab backspace feed control
  · subst c
    exact .short rfl (by decide) rfl
  · subst c
    exact .short rfl (by decide) rfl
  · subst c
    exact .short rfl (by decide) rfl
  · subst c
    exact .short rfl (by decide) rfl
  · subst c
    exact .short rfl (by decide) rfl
  · subst c
    exact .short rfl (by decide) rfl
  · subst c
    exact .short rfl (by decide) rfl
  · have small : c.toNat < 0xA0 := by
      simp only [isControl, Bool.or_eq_true, Bool.and_eq_true, decide_eq_true_eq] at control
      omega
    obtain ⟨w, x, y, z, padded, quad⟩ := hexPadded_small _ small
    rw [padded]
    refine .code quad ?_
    rw [NotSurrogate, isSurrogate, Bool.and_eq_false_iff, decide_eq_false_iff_not]
    omega
  · refine .plain ?_ quote escape
    simp only [isControl, Bool.or_eq_true, Bool.and_eq_true, decide_eq_true_eq] at control
    omega

theorem parseStringBody_quoted (text : List Char) (rest : List Char) (decoded : String)
    (shown : List Char) :
    parseStringBody decoded (encoded shown) (encoded (text.flatMap quoteCharacter ++ '\x22' :: rest)) =
      .ok (decoded ++ String.ofList (shown ++ text), encoded rest) := by
  induction text generalizing decoded shown with
  | nil =>
    rw [List.flatMap_nil, List.nil_append, parseStringBody_close, appendUtf8Segment_encoded,
      List.append_nil]
    rfl
  | cons c text ih =>
    have pushed : (decoded ++ String.ofList shown).push c ++ String.ofList ([] ++ text) =
        decoded ++ String.ofList (shown ++ c :: text) := by
      apply String.toList_injective
      simp
    rw [List.flatMap_cons, List.append_assoc]
    generalize written : quoteCharacter c = characters
    cases written ▸ quoted c with
    | short escapable ascii simple =>
      rw [List.cons_append, List.cons_append, List.nil_append, parseStringBody_escape ascii simple,
        appendUtf8Segment_encoded]
      refine bind_eq_ok.mpr ⟨_, rfl, ?_⟩
      rw [← pushed]
      exact ih _ []
    | @code w x y z quad fine =>
      obtain ⟨bytes, parsed⟩ := parseHexQuad_complete quad
        (text.flatMap quoteCharacter ++ '\x22' :: rest)
      simp only [List.cons_append, List.nil_append]
      rw [encoded_ascii (by decide), encoded_ascii (by decide), parseStringBody_unicode,
        appendUtf8Segment_encoded, parsed, bytes]
      refine bind_eq_ok.mpr ⟨_, rfl, bind_eq_ok.mpr ⟨_, rfl, ?_⟩⟩
      simp only [fromU32_toNat]
      rw [← pushed]
      exact ih _ []
    | plain visible notQuote notEscape =>
      have more : encoded shown ++ String.utf8EncodeChar c = encoded (shown ++ [c]) := by
        rw [encoded_append, encoded_cons, encoded_nil, List.append_nil]
      rw [List.cons_append, List.nil_append, parseStringBody_plain visible notQuote notEscape, more, ih]
      rw [List.append_assoc, List.singleton_append]

def quotedChars (value : String) : List Char := (quoteJsonString value).toList

theorem quotedChars_append (value : String) (rest : List Char) :
    quotedChars value ++ rest =
      '\x22' :: (value.toList.flatMap quoteCharacter ++ '\x22' :: rest) := by
  rw [quotedChars, quoteJsonString, String.toList_ofList, List.append_assoc, List.cons_append,
    List.singleton_append]

theorem parseString_quoted (value : String) (rest : List Char) :
    parseString (encoded (quotedChars value ++ rest)) = .ok (value, encoded rest) := by
  rw [quotedChars_append, encoded_ascii (by decide), parseString, if_pos rfl]
  have read := parseStringBody_quoted value.toList rest "" []
  rw [List.nil_append, String.ofList_toList, String.empty_append] at read
  exact read

theorem quoted_characters (value : String) : ∃ behind rest,
    quotedChars value = '\x22' :: behind ∧ rest = [] ∧ Characters NotSurrogate behind rest := by
  have read := parseString_quoted value []
  rw [List.append_nil] at read
  obtain ⟨behind, rest, same, none, characters⟩ := parseString_sound read
  exact ⟨behind, rest, same, encoded_eq_nil.mp none.symm, characters⟩

theorem isValue_quoted (value : String) : IsValue NotSurrogate (quotedChars value) := by
  obtain ⟨behind, rest, same, rfl, characters⟩ := quoted_characters value
  rw [IsValue, same]
  exact .string characters

theorem characters_quoted (value : String) (more : List Char) : ∃ behind,
    quotedChars value ++ more = '\x22' :: behind ∧ Characters NotSurrogate behind more := by
  obtain ⟨behind, rest, same, rfl, characters⟩ := quoted_characters value
  obtain ⟨taken, rfl, -, shift⟩ := characters_takes _ _ characters
  rw [same, List.append_nil]
  exact ⟨taken ++ more, rfl, shift more⟩

theorem digits_all {c : Char} {behind : List Char} (digits : ∀ d ∈ c :: behind, d.isDigit = true) :
    Digits (c :: behind) [] := by
  induction behind generalizing c with
  | nil => exact .last (digits c List.mem_cons_self)
  | cons d behind ih =>
    obtain ⟨first, others⟩ := List.forall_mem_cons.mp digits
    exact .more first (ih others)

theorem head_toDigits {n : ℕ} (positive : 0 < n) : (Nat.toDigits 10 n).head? ≠ some '0' := by
  induction n using Nat.strong_induction_on with
  | _ n ih =>
    by_cases small : n < 10
    · rw [Nat.toDigits_of_lt_base small]
      interval_cases n <;> decide
    · have some : 0 < n / 10 := by omega
      rw [Nat.toDigits_of_base_le (by decide) (by omega), List.head?_append_of_ne_nil]
      · exact ih _ (by omega) some
      · exact Nat.toDigits_ne_nil

theorem isValue_toDigits (n : ℕ) : IsValue NotSurrogate (Nat.toDigits 10 n) := by
  have digits : ∀ d ∈ Nat.toDigits 10 n, d.isDigit = true := fun d member =>
    Nat.isDigit_of_mem_toDigits (by decide) (by decide) member
  have integer : Integer (Nat.toDigits 10 n) [] := by
    rcases Nat.eq_zero_or_pos n with rfl | positive
    · exact .zero
    · have nonzero := head_toDigits positive
      cases written : Nat.toDigits 10 n with
      | nil => exact (Nat.toDigits_ne_nil written).elim
      | cons c behind =>
        rw [written] at digits nonzero
        have other : c ≠ '0' := fun same => nonzero (congrArg some same)
        cases digits_all digits with
        | last first => exact .digit first other
        | more first more => exact .digits first other more
  exact .number ⟨.absent, integer, .absent, .absent⟩

theorem parseU64_toString {n : ℕ} (small : n < 2 ^ 64) : parseU64 (toString n) = some n := by
  have written : (toString n).toList = Nat.toDigits 10 n := by
    rw [Nat.toString_eq_repr, Nat.toList_repr]
  have digits : ∀ d ∈ Nat.toDigits 10 n, d.isDigit = true := fun d member =>
    Nat.isDigit_of_mem_toDigits (by decide) (by decide) member
  have unsigned : ¬(Nat.toDigits 10 n).head? = some '+' := by
    intro plus
    have digit := digits '+' (List.mem_of_head? plus)
    cases digit
  unfold parseU64
  rw [written]
  simp only [if_neg unsigned, Nat.ofDigitChars_ten_toDigits]
  exact if_pos ⟨Nat.toDigits_ne_nil, List.all_eq_true.mpr digits, small⟩

section Objects

/-- The characters of the fields of an object, up to its closing brace. -/
def fieldsChars : String × List Char → List (String × List Char) → List Char
  | field, [] => quotedChars field.1 ++ ':' :: (field.2 ++ ['}'])
  | field, next :: others =>
    quotedChars field.1 ++ ':' :: (field.2 ++ ',' :: fieldsChars next others)

def objectChars (field : String × List Char) (others : List (String × List Char)) : List Char :=
  '{' :: fieldsChars field others

theorem members_fields {field : String × List Char} {others : List (String × List Char)}
    (texts : ∀ given ∈ field :: others, Text NotSurrogate given.2) :
    Derives NotSurrogate .members (fieldsChars field others) [] := by
  induction others generalizing field with
  | nil =>
    obtain ⟨behind, opening, characters⟩ := characters_quoted field.1 (':' :: (field.2 ++ ['}']))
    obtain ⟨ended, gap, value, space⟩ := text_before (texts field List.mem_cons_self) ['}']
    rw [fieldsChars, opening]
    exact .lastMember .none characters .none gap value space
  | cons next others ih =>
    obtain ⟨behind, opening, characters⟩ := characters_quoted field.1
      (':' :: (field.2 ++ ',' :: fieldsChars next others))
    obtain ⟨ended, gap, value, space⟩ :=
      text_before (texts field List.mem_cons_self) (',' :: fieldsChars next others)
    rw [fieldsChars, opening]
    exact .member .none characters .none gap value space
      (ih fun given member => texts given (List.mem_cons_of_mem _ member))

theorem isValue_object {field : String × List Char} {others : List (String × List Char)}
    (texts : ∀ given ∈ field :: others, Text NotSurrogate given.2) :
    IsValue NotSurrogate (objectChars field others) :=
  .object (members_fields texts)

variable {unprintable : Char → Bool}

/-- The field as the reader keeps it. -/
def fieldOf (field : String × List Char) : Field := ⟨field.1, String.ofList (trim field.2)⟩

theorem envelopeFields_step {fuel : ℕ} {before : List Field} {field : String × List Char}
    (text : Text NotSurrogate field.2) (fresh : ∀ given ∈ before, given.name ≠ field.1) {c : Char}
    (mark : c = ',' ∨ c = '}') (rest : List Char) :
    envelopeFields unprintable (fuel + 1) before
        (encoded (quotedChars field.1 ++ ':' :: (field.2 ++ c :: rest))) =
      if c = ',' then envelopeFields unprintable fuel (before ++ [fieldOf field]) (encoded rest)
      else .ok (before ++ [fieldOf field], encoded rest) := by
  obtain ⟨behind, gap, value, space⟩ := text_before text (c :: rest)
  have solid : isSpace c = false := by rcases mark with rfl | rfl <;> rfl
  have stops : Stops behind := by
    apply stops_of_space space
    rcases mark with rfl | rfl <;> rfl
  have spaceless : skipWhitespace (encoded (quotedChars field.1 ++
      ':' :: (field.2 ++ c :: rest))) = encoded (quotedChars field.1 ++
      ':' :: (field.2 ++ c :: rest)) := by
    rw [skipWhitespace_encoded, (isValue_quoted field.1).dropWhile_append]
  have colon : skipWhitespace (encoded (':' :: (field.2 ++ c :: rest))) =
      encoded (':' :: (field.2 ++ c :: rest)) := by
    rw [skipWhitespace_encoded]
    rfl
  have skipped : skipWhitespace (encoded (field.2 ++ c :: rest)) =
      encoded (trim field.2 ++ behind) := by
    obtain ⟨d, started, head, solid', -⟩ := value_head value
    rw [skipWhitespace_encoded, dropWhile_of_space gap, head, List.dropWhile_cons_of_neg (by simp [solid'])]
  have read : parseValue (fuelFor (encoded (trim field.2 ++ behind)))
      (encoded (trim field.2 ++ behind)) = .ok (encoded behind) :=
    reader_complete value stops (le_refl _)
  have slice : (encoded (trim field.2 ++ behind)).take
      ((encoded (trim field.2 ++ behind)).length - (encoded behind).length) =
        utf8 (String.ofList (trim field.2)) := by
    rw [encoded_append, List.length_append, Nat.add_sub_cancel, List.take_left, utf8,
      String.toList_ofList, encoded]
  have unique : ¬(before.any fun given => given.name = field.1) = true := by
    rw [List.any_eq_true]
    rintro ⟨given, member, same⟩
    exact fresh given member (of_decide_eq_true same)
  have ended : skipWhitespace (encoded behind) = encoded (c :: rest) :=
    skipWhitespace_solid space solid
  rw [envelopeFields, spaceless, parseString_quoted, ok_bind]
  dsimp only
  rw [colon, expectByte_complete (by decide), ok_bind, skipped, read, ok_bind, slice, fromUtf8_utf8,
    Option.elim_some, ok_bind, refuse, if_neg unique, ok_bind, ended]
  rcases mark with rfl | rfl
  · rw [if_pos ((head?_encoded (by decide) _).mpr rfl), if_pos rfl, drop_encoded (by decide) rfl]
    rfl
  · have other : ¬(encoded ('}' :: rest)).head? = some ','.toUInt8 := fun head =>
      absurd ((head?_encoded (by decide) _).mp head) (by simp)
    rw [if_neg other, if_pos ((head?_encoded (by decide) _).mpr rfl), if_neg (by decide),
      drop_encoded (by decide) rfl]
    rfl

theorem length_fieldsChars (field : String × List Char) (others : List (String × List Char)) :
    others.length ≤ (encoded (fieldsChars field others)).length := by
  induction others generalizing field with
  | nil => exact Nat.zero_le _
  | cons next others ih =>
    have shorter := length_encoded_cons ',' (fieldsChars next others)
    have := ih next
    rw [fieldsChars, encoded_append, encoded_cons, encoded_append, List.length_cons]
    simp only [List.length_append]
    omega

theorem envelopeFields_chars {fuel : ℕ} {before : List Field} {field : String × List Char}
    {others : List (String × List Char)} (more : List Char) (enough : others.length < fuel)
    (texts : ∀ given ∈ field :: others, Text NotSurrogate given.2)
    (distinct : (before.map Field.name ++ (field :: others).map Prod.fst).Nodup) :
    envelopeFields unprintable fuel before (encoded (fieldsChars field others ++ more)) =
      .ok (before ++ (field :: others).map fieldOf, encoded more) := by
  obtain ⟨fuel, rfl⟩ := Nat.exists_eq_add_of_lt (lt_of_le_of_lt (Nat.zero_le _) enough)
  rw [Nat.zero_add] at enough ⊢
  have text := texts field List.mem_cons_self
  have fresh : ∀ given ∈ before, given.name ≠ field.1 := by
    intro given member same
    exact (List.nodup_append.mp distinct).2.2 _ (List.mem_map_of_mem member) _
      List.mem_cons_self same
  induction others generalizing fuel before field with
  | nil =>
    have step := @envelopeFields_step unprintable fuel before field text fresh '}' (.inr rfl) more
    rw [if_neg (by decide)] at step
    rw [fieldsChars, List.append_assoc, List.cons_append, List.append_assoc, List.singleton_append]
    exact step
  | cons next others ih =>
    have step := @envelopeFields_step unprintable fuel before field text fresh ',' (.inl rfl)
      (fieldsChars next others ++ more)
    rw [if_pos rfl] at step
    rw [fieldsChars, List.append_assoc, List.cons_append, List.append_assoc, List.cons_append, step]
    have distinct' : ((before ++ [fieldOf field]).map Field.name ++
        (next :: others).map Prod.fst).Nodup := by
      rw [List.map_append, List.append_assoc]
      exact distinct
    obtain ⟨fuel, rfl⟩ : ∃ n, fuel = n + 1 := ⟨fuel - 1, by
      rw [List.length_cons] at enough
      omega⟩
    have texts' : ∀ given ∈ next :: others, Text NotSurrogate given.2 := fun given member =>
      texts given (List.mem_cons_of_mem _ member)
    rw [ih texts' distinct' fuel (by simpa using enough) (texts' next List.mem_cons_self)]
    · rw [List.append_assoc]
      rfl
    · intro given member same
      exact (List.nodup_append.mp distinct').2.2 _ (List.mem_map_of_mem member) _
        List.mem_cons_self same

theorem parseEnvelope_object {field : String × List Char} {others : List (String × List Char)}
    (texts : ∀ given ∈ field :: others, Text NotSurrogate given.2)
    (distinct : ((field :: others).map Prod.fst).Nodup) :
    parseEnvelope unprintable (encoded (objectChars field others)) =
      .ok ((field :: others).map fieldOf) := by
  have opening : skipWhitespace (encoded (objectChars field others)) =
      encoded (objectChars field others) := by
    rw [skipWhitespace_encoded]
    rfl
  obtain ⟨behind, first⟩ : ∃ behind, fieldsChars field others = '\x22' :: behind := by
    cases others with
    | nil => exact ⟨_, (characters_quoted field.1 _).choose_spec.1⟩
    | cons next others => exact ⟨_, (characters_quoted field.1 _).choose_spec.1⟩
  have skipped : skipWhitespace (encoded (fieldsChars field others)) =
      encoded (fieldsChars field others) := by
    rw [first, skipWhitespace_encoded]
    rfl
  have unclosed : ¬(encoded (fieldsChars field others)).head? = some '}'.toUInt8 := by
    rw [first]
    exact fun head => absurd ((head?_encoded (by decide) _).mp head) (by simp)
  have enough : others.length < (encoded (fieldsChars field others)).length + 1 :=
    Nat.lt_succ_of_le (length_fieldsChars field others)
  have read := @envelopeFields_chars unprintable _ [] field others [] enough texts distinct
  rw [List.append_nil] at read
  have brace : (encoded (objectChars field others)).head? = some '{'.toUInt8 :=
    (head?_encoded (by decide) _).mpr rfl
  have body : (encoded (objectChars field others)).drop 1 = encoded (fieldsChars field others) :=
    drop_encoded (by decide) rfl
  unfold parseEnvelope
  dsimp only
  rw [opening, brace, body, skipped, refuse, if_neg (not_not.mpr rfl), ok_bind, if_neg unclosed, read,
    ok_bind]
  rfl

end Objects

section Fields

variable {unprintable : Char → Bool} {fields : List Field} {name : String}

theorem fieldOf_value {value : String} (isValue : IsValue NotSurrogate value.toList) :
    fieldOf (name, value.toList) = ⟨name, value⟩ := by
  rw [fieldOf, isValue.trim_eq, String.ofList_toList]

theorem isValue_number (n : ℕ) : IsValue NotSurrogate (toString n).toList := by
  rw [Nat.toString_eq_repr, Nat.toList_repr]
  exact isValue_toDigits n

theorem requiredString_quoted {value : String}
    (found : fields.find? (fun field => field.name = name) = some ⟨name, quoteJsonString value⟩) :
    requiredString unprintable fields name = .ok value := by
  have read := parseString_quoted value []
  rw [List.append_nil] at read
  unfold requiredString requiredField
  rw [found, Option.elim_some, ok_bind]
  change (parseString (encoded (quotedChars value)) >>= _) = _
  rw [read]
  rfl

theorem requiredRawValue_found {value : String}
    (found : fields.find? (fun field => field.name = name) = some ⟨name, value⟩) :
    requiredRawValue unprintable fields name = .ok value := by
  unfold requiredRawValue requiredField
  rw [found]
  rfl

theorem requiredU64_number {n : ℕ} (small : n < 2 ^ 64)
    (found : fields.find? (fun field => field.name = name) = some ⟨name, toString n⟩) :
    requiredU64 unprintable fields name = .ok n := by
  unfold requiredU64
  rw [requiredRawValue_found found, ok_bind, parseU64_toString small]
  rfl

theorem requiredUsize_number {n : ℕ} (small : n < 2 ^ 64)
    (found : fields.find? (fun field => field.name = name) = some ⟨name, toString n⟩) :
    requiredUsize unprintable fields name = .ok n := by
  unfold requiredUsize
  rw [requiredU64_number small found, ok_bind, refuse, if_neg (Nat.not_le.mpr small)]
  rfl

end Fields

section Busy

variable {unprintable : Char → Bool}

def fullFields (capacity depth retryAfterMs : ℕ) : List (String × List Char) :=
  [("capacity", (toString capacity).toList), ("depth", (toString depth).toList),
    ("retry_after_ms", (toString retryAfterMs).toList)]

theorem encodeFull_chars {kind : String} (plain : quotedChars kind = '\x22' :: (kind.toList ++ ['\x22']))
    (capacity depth retryAfterMs : ℕ) : (encodeFull kind capacity depth retryAfterMs).toList =
      objectChars ("kind", quotedChars kind) (fullFields capacity depth retryAfterMs) := by
  have first : "\x7b\"kind\":\"".toList = '{' :: (quotedChars "kind" ++ [':', '\x22']) := rfl
  have second : "\",\"capacity\":".toList = '\x22' :: ',' :: (quotedChars "capacity" ++ [':']) := rfl
  have third : ",\"depth\":".toList = ',' :: (quotedChars "depth" ++ [':']) := rfl
  have fourth : ",\"retry_after_ms\":".toList = ',' :: (quotedChars "retry_after_ms" ++ [':']) := rfl
  have closing : "\x7d".toList = ['}'] := rfl
  unfold encodeFull
  simp only [String.toList_append, first, second, third, fourth, closing, plain, objectChars, fullFields,
    fieldsChars, List.append_assoc, List.cons_append, List.nil_append]

theorem isValue_encodeFull {kind : String}
    (plain : quotedChars kind = '\x22' :: (kind.toList ++ ['\x22'])) (capacity depth retryAfterMs : ℕ) :
    IsValue NotSurrogate (encodeFull kind capacity depth retryAfterMs).toList := by
  rw [encodeFull_chars plain]
  apply isValue_object
  simp only [fullFields, List.forall_mem_cons]
  exact ⟨(isValue_quoted _).text, (isValue_number _).text, (isValue_number _).text,
    (isValue_number _).text, List.forall_mem_nil _⟩

theorem parseEnvelope_full {kind : String}
    (plain : quotedChars kind = '\x22' :: (kind.toList ++ ['\x22'])) (capacity depth retryAfterMs : ℕ) :
    parseEnvelope unprintable (utf8 (encodeFull kind capacity depth retryAfterMs)) =
      .ok [⟨"kind", quoteJsonString kind⟩, ⟨"capacity", toString capacity⟩,
        ⟨"depth", toString depth⟩, ⟨"retry_after_ms", toString retryAfterMs⟩] := by
  change parseEnvelope unprintable (encoded (encodeFull kind capacity depth retryAfterMs).toList) = _
  rw [encodeFull_chars plain, parseEnvelope_object]
  · simp only [fullFields, List.map_cons, List.map_nil, fieldOf_value (isValue_number _), quotedChars,
      fieldOf_value (isValue_quoted _)]
  · simp only [fullFields, List.forall_mem_cons]
    exact ⟨(isValue_quoted _).text, (isValue_number _).text, (isValue_number _).text,
      (isValue_number _).text, List.forall_mem_nil _⟩
  · simp [fullFields]

theorem decodeFull_numbers {capacity depth retryAfterMs : ℕ} {kind : Field}
    (small : capacity < 2 ^ 64 ∧ depth < 2 ^ 64 ∧ retryAfterMs < 2 ^ 64)
    (other : kind.name = "kind") (outcome : ℕ → ℕ → ℕ → BusyOutcome) :
    decodeFull unprintable [kind, ⟨"capacity", toString capacity⟩, ⟨"depth", toString depth⟩,
      ⟨"retry_after_ms", toString retryAfterMs⟩] outcome =
        .ok (outcome capacity depth retryAfterMs) := by
  obtain ⟨smallCapacity, smallDepth, smallRetry⟩ := small
  unfold decodeFull
  rw [requiredUsize_number smallCapacity (by simp [other]), ok_bind,
    requiredUsize_number smallDepth (by simp [other]), ok_bind,
    requiredU64_number smallRetry (by simp [other])]
  rfl

/-- The owner of a project, quoted or absent. -/
def ownerText (ownerId : Option String) : String := (ownerId.map quoteJsonString).getD "null"

theorem isValue_owner (ownerId : Option String) : IsValue NotSurrogate (ownerText ownerId).toList := by
  cases ownerId with
  | none => exact .null
  | some ownerId => exact isValue_quoted ownerId

theorem ownedOpening_chars : "\x7b\"kind\":\"project_already_owned\",\"project_id\":".toList =
    '{' :: (quotedChars "kind" ++ ':' :: (quotedChars "project_already_owned" ++
      ',' :: (quotedChars "project_id" ++ [':']))) := rfl

theorem ownedSecond_chars : ",\"owner_id\":".toList = ',' :: (quotedChars "owner_id" ++ [':']) := rfl

theorem encodeOwned_chars (projectId : String) (ownerId : Option String) :
    (encodeBusyOutcome (.projectAlreadyOwned projectId ownerId)).toList =
      objectChars ("kind", quotedChars "project_already_owned")
        [("project_id", quotedChars projectId), ("owner_id", (ownerText ownerId).toList)] := by
  have closing : "\x7d".toList = ['}'] := rfl
  have project : (quoteJsonString projectId).toList = quotedChars projectId := rfl
  unfold encodeBusyOutcome
  simp only [String.toList_append, ownedOpening_chars, ownedSecond_chars, closing, project, objectChars,
    fieldsChars, ownerText, List.append_assoc, List.cons_append, List.nil_append]

theorem ownedTexts (projectId : String) (ownerId : Option String) :
    ∀ given ∈ [("kind", quotedChars "project_already_owned"), ("project_id", quotedChars projectId),
      ("owner_id", (ownerText ownerId).toList)], Text NotSurrogate given.2 := by
  simp only [List.forall_mem_cons]
  exact ⟨(isValue_quoted _).text, (isValue_quoted _).text, (isValue_owner _).text, List.forall_mem_nil _⟩

theorem decodeOwner_text (ownerId : Option String) :
    decodeOwner ⟨"owner_id", ownerText ownerId⟩ = .ok ownerId := by
  cases ownerId with
  | none => rfl
  | some ownerId =>
    have quote : ¬ownerText (some ownerId) = "null" := by
      intro same
      have chars := congrArg String.toList same
      obtain ⟨behind, rest, first, -⟩ := quoted_characters ownerId
      have head := first.symm.trans chars
      cases (List.cons.inj head).1
    have read := parseString_quoted ownerId []
    rw [List.append_nil] at read
    rw [decodeOwner, if_neg quote, parseJsonStringValue]
    change some <$> (parseString (encoded (quotedChars ownerId)) >>= _) = _
    rw [read]
    rfl

theorem writerQueueFull_plain :
    quotedChars "writer_queue_full" = '\x22' :: ("writer_queue_full".toList ++ ['\x22']) := rfl

theorem readPoolFull_plain :
    quotedChars "read_pool_full" = '\x22' :: ("read_pool_full".toList ++ ['\x22']) := rfl

theorem dispatchQueueFull_plain :
    quotedChars "dispatch_queue_full" = '\x22' :: ("dispatch_queue_full".toList ++ ['\x22']) := rfl

theorem isValue_busy (outcome : BusyOutcome) : IsValue NotSurrogate (encodeBusyOutcome outcome).toList := by
  cases outcome with
  | writerQueueFull => exact isValue_encodeFull writerQueueFull_plain _ _ _
  | readPoolFull => exact isValue_encodeFull readPoolFull_plain _ _ _
  | dispatchQueueFull => exact isValue_encodeFull dispatchQueueFull_plain _ _ _
  | projectAlreadyOwned projectId ownerId =>
    rw [encodeOwned_chars]
    exact isValue_object (ownedTexts projectId ownerId)

theorem decodeBusyOutcome_full {kind : String} {capacity depth retryAfterMs : ℕ}
    (plain : quotedChars kind = '\x22' :: (kind.toList ++ ['\x22']))
    (small : capacity < 2 ^ 64 ∧ depth < 2 ^ 64 ∧ retryAfterMs < 2 ^ 64) {outcome : ℕ → ℕ → ℕ → BusyOutcome}
    (named : ∀ fields, decodeKind unprintable fields kind = decodeFull unprintable fields outcome) :
    decodeBusyOutcome unprintable (encodeFull kind capacity depth retryAfterMs) =
      .ok (outcome capacity depth retryAfterMs) := by
  unfold decodeBusyOutcome
  rw [parseEnvelope_full plain, ok_bind, requiredString_quoted rfl, ok_bind, named]
  exact decodeFull_numbers small rfl _

theorem decodeBusyOutcome_owned (projectId : String) (ownerId : Option String) :
    decodeBusyOutcome unprintable (encodeBusyOutcome (.projectAlreadyOwned projectId ownerId)) =
      .ok (.projectAlreadyOwned projectId ownerId) := by
  have parsed : parseEnvelope unprintable
      (utf8 (encodeBusyOutcome (.projectAlreadyOwned projectId ownerId))) =
        .ok [⟨"kind", quoteJsonString "project_already_owned"⟩,
          ⟨"project_id", quoteJsonString projectId⟩, ⟨"owner_id", ownerText ownerId⟩] := by
    change parseEnvelope unprintable (encoded (encodeBusyOutcome _).toList) = _
    rw [encodeOwned_chars, parseEnvelope_object (ownedTexts projectId ownerId) (by simp)]
    simp only [List.map_cons, List.map_nil, quotedChars, fieldOf_value (isValue_quoted _),
      fieldOf_value (isValue_owner _)]
  have owner : List.find? (fun field => field.name = "owner_id")
      [⟨"kind", quoteJsonString "project_already_owned"⟩, ⟨"project_id", quoteJsonString projectId⟩,
        ⟨"owner_id", ownerText ownerId⟩] = some (⟨"owner_id", ownerText ownerId⟩ : Field) := rfl
  unfold decodeBusyOutcome
  rw [parsed, ok_bind, requiredString_quoted rfl, ok_bind, decodeKind, owner, Option.elim_some, ok_bind]
  rw [decodeOwner_text, ok_bind, requiredString_quoted rfl]
  rfl

theorem decodeBusyOutcome_encode {outcome : BusyOutcome} (small : outcome.Representable) :
    decodeBusyOutcome unprintable (encodeBusyOutcome outcome) = .ok outcome := by
  cases outcome with
  | writerQueueFull => exact decodeBusyOutcome_full writerQueueFull_plain small fun _ => rfl
  | readPoolFull => exact decodeBusyOutcome_full readPoolFull_plain small fun _ => rfl
  | dispatchQueueFull => exact decodeBusyOutcome_full dispatchQueueFull_plain small fun _ => rfl
  | projectAlreadyOwned projectId ownerId => exact decodeBusyOutcome_owned projectId ownerId

end Busy

section Errors

variable {unprintable : Char → Bool}

def errorFields (error : ProtocolError) : List (String × List Char) :=
  ("message", quotedChars error.message) ::
    error.busy.toList.map fun busy => ("busy", (encodeBusyOutcome busy).toList)

theorem errorOpening_chars : "\x7b\"code\":".toList = '{' :: (quotedChars "code" ++ [':']) := rfl

theorem errorMessage_chars : ",\"message\":".toList = ',' :: (quotedChars "message" ++ [':']) := rfl

theorem errorBusy_chars : ",\"busy\":".toList = ',' :: (quotedChars "busy" ++ [':']) := rfl

theorem encodeError_chars (error : ProtocolError) : (encodeError error).toList =
    objectChars ("code", quotedChars error.code.asStr) (errorFields error) := by
  have closing : "\x7d".toList = ['}'] := rfl
  have folded (value : String) : (quoteJsonString value).toList = quotedChars value := rfl
  unfold encodeError errorFields
  cases error.busy with
  | none =>
    simp only [String.toList_append, errorOpening_chars, errorMessage_chars, closing, folded,
      objectChars, fieldsChars, Option.elim_none, String.toList_empty, Option.toList_none,
      List.map_nil, List.append_assoc, List.cons_append, List.nil_append, List.append_nil]
  | some busy =>
    simp only [String.toList_append, errorOpening_chars, errorMessage_chars, errorBusy_chars, closing,
      folded, objectChars, fieldsChars, Option.elim_some, Option.toList_some, List.map_cons,
      List.map_nil, List.append_assoc, List.cons_append, List.nil_append]

theorem errorTexts (error : ProtocolError) :
    ∀ given ∈ ("code", quotedChars error.code.asStr) :: errorFields error,
      Text NotSurrogate given.2 := by
  simp only [errorFields, List.forall_mem_cons, List.forall_mem_map]
  exact ⟨(isValue_quoted _).text, (isValue_quoted _).text, fun busy _ => (isValue_busy busy).text⟩

theorem isValue_error (error : ProtocolError) : IsValue NotSurrogate (encodeError error).toList := by
  rw [encodeError_chars]
  exact isValue_object (errorTexts error)

theorem parseEnvelope_error (error : ProtocolError) :
    parseEnvelope unprintable (utf8 (encodeError error)) =
      .ok (⟨"code", quoteJsonString error.code.asStr⟩ ::
        ⟨"message", quoteJsonString error.message⟩ ::
          error.busy.toList.map fun busy => ⟨"busy", encodeBusyOutcome busy⟩) := by
  have distinct : ((("code", quotedChars error.code.asStr) :: errorFields error).map
      Prod.fst).Nodup := by
    unfold errorFields
    cases error.busy <;> simp
  change parseEnvelope unprintable (encoded (encodeError _).toList) = _
  rw [encodeError_chars, parseEnvelope_object (errorTexts error) distinct]
  simp only [errorFields, List.map_cons, List.map_map, Function.comp_def, quotedChars,
    fieldOf_value (isValue_quoted _), fieldOf_value (isValue_busy _)]

theorem decodeError_encode {error : ProtocolError} (built : error.Built unprintable) :
    decodeError unprintable (encodeError error) = .ok error := by
  unfold decodeError
  cases built with
  | new code message =>
    let fields : List Field :=
      [⟨"code", quoteJsonString code.asStr⟩, ⟨"message", quoteJsonString message⟩]
    have parsed : parseEnvelope unprintable (utf8 (encodeError (.new code message))) = .ok fields :=
      parseEnvelope_error _
    have known : rejectUnknownFields unprintable fields ["code", "message", "busy"] = .ok () := rfl
    have noBusy : fields.find? (fun field => field.name = "busy") = none := rfl
    rw [parsed, ok_bind, known, ok_bind, requiredString_quoted rfl, ok_bind,
      ProtocolErrorCode.fromStr_asStr, Option.elim_some, ok_bind, requiredString_quoted rfl, ok_bind,
      noBusy]
    rfl
  | withBusy outcome small =>
    let error := ProtocolError.withBusy unprintable outcome
    let fields : List Field := [⟨"code", quoteJsonString error.code.asStr⟩,
      ⟨"message", quoteJsonString error.message⟩, ⟨"busy", encodeBusyOutcome outcome⟩]
    have parsed : parseEnvelope unprintable (utf8 (encodeError error)) = .ok fields :=
      parseEnvelope_error _
    have known : rejectUnknownFields unprintable fields ["code", "message", "busy"] = .ok () := rfl
    have busy : fields.find? (fun field => field.name = "busy") =
        some ⟨"busy", encodeBusyOutcome outcome⟩ := rfl
    rw [parsed, ok_bind, known, ok_bind, requiredString_quoted rfl, ok_bind,
      ProtocolErrorCode.fromStr_asStr, Option.elim_some, ok_bind, requiredString_quoted rfl, ok_bind,
      busy]
    dsimp only
    rw [decodeBusyOutcome_encode small]
    rfl

end Errors

section Envelopes

variable {unprintable : Char → Bool}

/-- A payload without the space around it. -/
def trimmedPayload (payload : String) : String := String.ofList (trim payload.toList)

theorem text_of_validated {payload : String} (validated : validateJson (utf8 payload) = .ok ()) :
    Text NotSurrogate payload.toList :=
  (validateJson_iff_text payload).mp validated

theorem validateJson_trimmed {payload : String} (validated : validateJson (utf8 payload) = .ok ()) :
    validateJson (utf8 (trimmedPayload payload)) = .ok () := by
  obtain ⟨-, -, -, -, -, value⟩ := text_trim (text_of_validated validated)
  rw [validateJson_iff_text, trimmedPayload, String.toList_ofList]
  exact value.text

def JsonRequest.trimmed (request : JsonRequest) : JsonRequest :=
  ⟨request.requestId, trimmedPayload request.payload, request.identified,
    validateJson_trimmed request.validated⟩

theorem Carries.trimmed {payload : Option String} {error : Option ProtocolError}
    (carries : Carries payload error) : Carries (payload.map trimmedPayload) error := by
  cases carries with
  | payload validated => exact .payload (validateJson_trimmed validated)
  | error error => exact .error error

def JsonResponse.trimmed (response : JsonResponse) : JsonResponse :=
  ⟨response.requestId, response.payload.map trimmedPayload, response.error, response.identified,
    response.carries.trimmed⟩

theorem JsonRequest.new_eq_ok {requestId payload : String}
    (identified : validateRequestId requestId = .ok ()) (validated : validateJson (utf8 payload) = .ok ()) :
    JsonRequest.new requestId payload = .ok ⟨requestId, payload, identified, validated⟩ := by
  unfold JsonRequest.new
  split
  · next error refused => cases refused.symm.trans identified
  · split
    · next message refused => cases refused.symm.trans validated
    · rfl

theorem JsonResponse.success_eq_ok {requestId payload : String}
    (identified : validateRequestId requestId = .ok ()) (validated : validateJson (utf8 payload) = .ok ()) :
    JsonResponse.success requestId payload =
      .ok ⟨requestId, some payload, none, identified, .payload validated⟩ := by
  unfold JsonResponse.success
  split
  · next error refused => cases refused.symm.trans identified
  · split
    · next message refused => cases refused.symm.trans validated
    · rfl

theorem JsonResponse.failure_eq_ok {requestId : String} (error : ProtocolError)
    (identified : validateRequestId requestId = .ok ()) :
    JsonResponse.failure requestId error =
      .ok ⟨requestId, none, some error, identified, .error error⟩ := by
  unfold JsonResponse.failure
  split
  · next error refused => cases refused.symm.trans identified
  · rfl

theorem requestOpening_chars :
    "\x7b\"request_id\":".toList = '{' :: (quotedChars "request_id" ++ [':']) := rfl

theorem payload_chars : ",\"payload\":".toList = ',' :: (quotedChars "payload" ++ [':']) := rfl

theorem error_chars : ",\"error\":".toList = ',' :: (quotedChars "error" ++ [':']) := rfl

theorem parseEnvelope_pair {requestId name value body : String} (other : "request_id" ≠ name)
    (text : Text NotSurrogate value.toList)
    (written : body.toList = objectChars ("request_id", quotedChars requestId) [(name, value.toList)]) :
    parseEnvelope unprintable (utf8 body) =
      .ok [⟨"request_id", quoteJsonString requestId⟩, ⟨name, trimmedPayload value⟩] := by
  have texts : ∀ given ∈ [("request_id", quotedChars requestId), (name, value.toList)],
      Text NotSurrogate given.2 := by
    simp only [List.forall_mem_cons]
    exact ⟨(isValue_quoted _).text, text, List.forall_mem_nil _⟩
  change parseEnvelope unprintable (encoded body.toList) = _
  rw [written, parseEnvelope_object texts (by simpa using other)]
  simp only [List.map_cons, List.map_nil, quotedChars, fieldOf_value (isValue_quoted _)]
  rfl

theorem encodeRequest_chars (request : JsonRequest) : (encodeRequest request).toList =
    objectChars ("request_id", quotedChars request.requestId)
      [("payload", request.payload.toList)] := by
  have closing : "\x7d".toList = ['}'] := rfl
  have folded : (quoteJsonString request.requestId).toList = quotedChars request.requestId := rfl
  unfold encodeRequest
  simp only [String.toList_append, requestOpening_chars, payload_chars, closing, folded, objectChars,
    fieldsChars, List.append_assoc, List.cons_append, List.nil_append]

theorem decodeRequest_encode (request : JsonRequest) :
    decodeRequest unprintable (encodeRequest request) = .ok request.trimmed := by
  let fields : List Field := [⟨"request_id", quoteJsonString request.requestId⟩,
    ⟨"payload", trimmedPayload request.payload⟩]
  have known : rejectUnknownFields unprintable fields ["request_id", "payload"] = .ok () := rfl
  unfold decodeRequest
  rw [@parseEnvelope_pair unprintable request.requestId "payload" request.payload _ (by decide)
    (text_of_validated request.validated) (encodeRequest_chars request), ok_bind, known, ok_bind,
    requiredString_quoted rfl, ok_bind, requiredRawValue_found rfl, ok_bind,
    JsonRequest.new_eq_ok request.identified (validateJson_trimmed request.validated)]
  rfl

theorem encodeSuccess_chars {requestId payload : String} (identified : validateRequestId requestId = .ok ())
    (validated : validateJson (utf8 payload) = .ok ()) :
    (encodeResponse ⟨requestId, some payload, none, identified, .payload validated⟩).toList =
      objectChars ("request_id", quotedChars requestId) [("payload", payload.toList)] := by
  have closing : "\x7d".toList = ['}'] := rfl
  have folded : (quoteJsonString requestId).toList = quotedChars requestId := rfl
  unfold encodeResponse
  simp only [String.toList_append, requestOpening_chars, payload_chars, closing, folded, objectChars,
    fieldsChars, List.append_assoc, List.cons_append, List.nil_append]

theorem encodeFailure_chars {requestId : String} (error : ProtocolError)
    (identified : validateRequestId requestId = .ok ()) :
    (encodeResponse ⟨requestId, none, some error, identified, .error error⟩).toList =
      objectChars ("request_id", quotedChars requestId) [("error", (encodeError error).toList)] := by
  have closing : "\x7d".toList = ['}'] := rfl
  have folded : (quoteJsonString requestId).toList = quotedChars requestId := rfl
  unfold encodeResponse
  simp only [String.toList_append, requestOpening_chars, error_chars, closing, folded, objectChars,
    fieldsChars, List.append_assoc, List.cons_append, List.nil_append]

theorem decodeResponse_success {requestId payload : String}
    (identified : validateRequestId requestId = .ok ()) (validated : validateJson (utf8 payload) = .ok ()) :
    decodeResponse unprintable
        (encodeResponse ⟨requestId, some payload, none, identified, .payload validated⟩) =
      JsonResponse.success requestId (trimmedPayload payload) := by
  let fields : List Field :=
    [⟨"request_id", quoteJsonString requestId⟩, ⟨"payload", trimmedPayload payload⟩]
  have known : rejectUnknownFields unprintable fields ["request_id", "payload", "error"] = .ok () :=
    rfl
  have found : fields.find? (fun field => field.name = "payload") =
      some ⟨"payload", trimmedPayload payload⟩ := rfl
  have other : fields.find? (fun field => field.name = "error") = none := rfl
  unfold decodeResponse
  rw [@parseEnvelope_pair unprintable requestId "payload" payload _ (by decide)
    (text_of_validated validated) (encodeSuccess_chars identified validated), ok_bind, known, ok_bind,
    requiredString_quoted rfl, ok_bind, found, other]
  dsimp only
  rw [JsonResponse.success_eq_ok identified (validateJson_trimmed validated)]
  rfl

theorem decodeResponse_failure {requestId : String} {error : ProtocolError}
    (identified : validateRequestId requestId = .ok ()) (built : error.Built unprintable) :
    decodeResponse unprintable
        (encodeResponse ⟨requestId, none, some error, identified, .error error⟩) =
      JsonResponse.failure requestId error := by
  let fields : List Field :=
    [⟨"request_id", quoteJsonString requestId⟩, ⟨"error", encodeError error⟩]
  have value := isValue_error error
  have same : trimmedPayload (encodeError error) = encodeError error := by
    rw [trimmedPayload, value.trim_eq, String.ofList_toList]
  have known : rejectUnknownFields unprintable fields ["request_id", "payload", "error"] = .ok () :=
    rfl
  have found : fields.find? (fun field => field.name = "error") =
      some ⟨"error", encodeError error⟩ := rfl
  have other : fields.find? (fun field => field.name = "payload") = none := rfl
  unfold decodeResponse
  rw [@parseEnvelope_pair unprintable requestId "error" (encodeError error) _ (by decide) value.text
    (encodeFailure_chars error identified), same, ok_bind, known, ok_bind,
    requiredString_quoted rfl, ok_bind, found, other]
  dsimp only
  rw [decodeError_encode built, ok_bind, JsonResponse.failure_eq_ok error identified]
  rfl

theorem decodeResponse_encode (response : JsonResponse)
    (built : ∀ error, response.error = some error → error.Built unprintable) :
    decodeResponse unprintable (encodeResponse response) = .ok response.trimmed := by
  obtain ⟨requestId, payload, error, identified, carries⟩ := response
  cases carries with
  | payload validated =>
    rw [decodeResponse_success identified validated,
      JsonResponse.success_eq_ok identified (validateJson_trimmed validated)]
    rfl
  | error error =>
    rw [decodeResponse_failure identified (built error rfl), JsonResponse.failure_eq_ok error identified]
    rfl

end Envelopes

section Frames

variable {config : TransportConfig}

theorem readExact_append {taken : List UInt8} {size : ℕ} (length : taken.length = size)
    (rest : List UInt8) : readExact size (taken ++ rest) = .ok (taken, rest) := by
  subst length
  unfold readExact
  rw [refuse, if_neg (by simp), ok_bind, List.take_left, List.drop_left]
  rfl

theorem readFrame_writeFrame {body : String} {frame : List UInt8}
    (written : writeFrame config body = .ok frame) (rest : List UInt8) :
    readFrame config (frame ++ rest) = .ok (body, rest) := by
  obtain ⟨_, sized, written⟩ := bind_eq_ok.mp written
  obtain rfl := Except.ok.inj written
  have fits : (utf8 body).length < 256 ^ 4 := by
    have most := refuse_eq_ok.mp sized
    have prefixed := config.prefixed
    omega
  unfold readFrame
  rw [List.append_assoc, readExact_append (length_beBytes 4 _), ok_bind]
  dsimp only
  rw [fromBeBytes_beBytes fits, sized, ok_bind, readExact_append rfl, ok_bind]
  dsimp only
  rw [fromUtf8_utf8]
  rfl

theorem readFrames_writeFrames {bodies : List String} {frames : List (List UInt8)}
    (written : bodies.mapM (writeFrame config) = .ok frames) :
    readFrames config bodies.length frames.flatten = .ok (bodies, []) := by
  induction bodies generalizing frames with
  | nil =>
    obtain rfl := Except.ok.inj written
    rfl
  | cons body bodies ih =>
    rw [List.mapM_cons] at written
    obtain ⟨frame, first, written⟩ := bind_eq_ok.mp written
    obtain ⟨others, rest, written⟩ := bind_eq_ok.mp written
    obtain rfl := Except.ok.inj written
    rw [List.length_cons, List.flatten_cons, readFrames, readFrame_writeFrame first, ok_bind]
    dsimp only
    rw [ih rest]
    rfl

/-- Envelopes and frames come back as they were sent, up to the space around a payload. -/
theorem transport_round_trips (unprintable : Char → Bool) (config : TransportConfig) :
    (∀ request : JsonRequest,
      decodeRequest unprintable (encodeRequest request) = .ok request.trimmed) ∧
    (∀ response : JsonResponse,
      (∀ error, response.error = some error → error.Built unprintable) →
        decodeResponse unprintable (encodeResponse response) = .ok response.trimmed) ∧
    (∀ (bodies : List String) (frames : List (List UInt8)),
      bodies.mapM (writeFrame config) = .ok frames →
        readFrames config bodies.length frames.flatten = .ok (bodies, [])) :=
  ⟨decodeRequest_encode, decodeResponse_encode, fun _ _ => readFrames_writeFrames⟩

def readPoolResponse : JsonResponse :=
  ⟨"request \"é\"", none, some (.withBusy (fun _ => false) (.readPoolFull 4 4 250)), rfl, .error _⟩

def smallFrames : TransportConfig := ⟨16, by decide, by decide⟩

theorem transport_round_trips_readPool :
    decodeResponse (fun _ => false) (encodeResponse readPoolResponse) = .ok readPoolResponse.trimmed ∧
      readFrames smallFrames 2 [0, 0, 0, 2, 104, 105, 0, 0, 0, 2, 195, 169] = .ok (["hi", "é"], []) := by
  constructor
  · apply (transport_round_trips (fun _ => false) smallFrames).2.1 readPoolResponse
    intro error same
    rw [← Option.some.inj same]
    exact .withBusy _ ⟨by decide, by decide, by decide⟩
  · exact (transport_round_trips (fun _ => false) smallFrames).2.2 ["hi", "é"]
      [[0, 0, 0, 2, 104, 105], [0, 0, 0, 2, 195, 169]] rfl

end Frames

end Boreal.Service
