/- What the validator accepts: the texts of the grammar, except where they escape a surrogate. -/
import BorealWork.JsonValidator
import BorealWork.Library.JsonGrammar
import BorealWork.Library.Utf8

namespace Boreal.Service
open Boreal.Source (fromUtf8 fromUtf8_utf8 utf8)
open Drain JsonGrammar Utf8

theorem mirrors_whitespace : Mirrors isWhitespace isSpace := by
  refine ⟨?_, ?_, ?_⟩
  · intro c ascii
    simp only [isWhitespace, isSpace, toUInt8_inj ascii (by decide : IsAscii ' '),
      toUInt8_inj ascii (by decide : IsAscii '\n'), toUInt8_inj ascii (by decide : IsAscii '\r'),
      toUInt8_inj ascii (by decide : IsAscii '\t')]
    rw [Bool.eq_iff_iff]
    simp only [Bool.or_eq_true, decide_eq_true_eq]
    tauto
  · intro byte white
    simp only [isWhitespace, Bool.or_eq_true, decide_eq_true_eq] at white
    rcases white with ((rfl | rfl) | rfl) | rfl <;> decide
  · intro c space
    simp only [isSpace, Bool.or_eq_true, decide_eq_true_eq] at space
    rcases space with ((rfl | rfl) | rfl) | rfl <;> decide

theorem mirrors_digit : Mirrors isAsciiDigit Char.isDigit := by
  refine ⟨?_, ?_, ?_⟩
  · intro c ascii
    rw [Bool.eq_iff_iff]
    simp only [isAsciiDigit, Char.isDigit, Bool.and_eq_true, decide_eq_true_eq,
      UInt8.le_iff_toNat_le, UInt32.le_iff_toNat_le, toNat_toUInt8 ascii]
    exact Iff.rfl
  · intro byte digit
    simp only [isAsciiDigit, Bool.and_eq_true, decide_eq_true_eq, UInt8.le_iff_toNat_le] at digit
    exact lt_of_le_of_lt digit.2 (by decide)
  · intro c digit
    simp only [Char.isDigit, Bool.and_eq_true, decide_eq_true_eq, UInt32.le_iff_toNat_le] at digit
    exact lt_of_le_of_lt digit.2 (by decide)

theorem mirrors_either {a b : Char} (ascii : IsAscii a) (ascii' : IsAscii b) :
    Mirrors (fun byte => byte = a.toUInt8 || byte = b.toUInt8) (fun c => c = a || c = b) := by
  refine ⟨?_, ?_, ?_⟩
  · intro c asciiC
    simp only [toUInt8_inj asciiC ascii, toUInt8_inj asciiC ascii']
  · intro byte either
    simp only [Bool.or_eq_true, decide_eq_true_eq] at either
    rcases either with rfl | rfl
    · rw [toNat_toUInt8 ascii]
      exact ascii
    · rw [toNat_toUInt8 ascii']
      exact ascii'
  · intro c either
    simp only [Bool.or_eq_true, decide_eq_true_eq] at either
    rcases either with rfl | rfl
    · exact ascii
    · exact ascii'

theorem skipWhitespace_encoded (text : List Char) :
    skipWhitespace (encoded text) = encoded (text.dropWhile isSpace) :=
  mirrors_whitespace.dropWhile text

section Numbers

variable {text rest : List Char} {left : List UInt8} {message : String}

theorem takeDigits_sound (took : takeDigits message (encoded text) = .ok left) :
    ∃ rest, left = encoded rest ∧ Digits text rest := by
  obtain ⟨_, begins, took⟩ := bind_eq_ok.mp took
  rw [refuse_eq_ok, mirrors_digit.head, Bool.not_eq_false] at begins
  rw [mirrors_digit.dropWhile] at took
  exact ⟨_, (Except.ok.inj took).symm, digits_dropWhile begins⟩

theorem takeDigits_complete (digits : Digits text rest) (ended : rest.head?.any Char.isDigit = false) :
    takeDigits message (encoded text) = .ok (encoded rest) := by
  refine bind_eq_ok.mpr ⟨(), refuse_eq_ok.mpr ?_, ?_⟩
  · rw [mirrors_digit.head, digits_head digits]
    decide
  · rw [mirrors_digit.dropWhile, dropWhile_of_digits digits ended]
    rfl

theorem parseSign_sound (text : List Char) :
    ∃ rest, parseSign (encoded text) = encoded rest ∧ Minus text rest := by
  unfold parseSign
  by_cases minus : text.head? = some '-'
  · rw [if_pos ((head?_encoded (by decide) text).mpr minus), drop_encoded (by decide) minus]
    obtain ⟨behind, rfl⟩ := List.head?_eq_some_iff.mp minus
    exact ⟨behind, rfl, .present⟩
  · rw [if_neg (fun head => minus ((head?_encoded (by decide) text).mp head))]
    exact ⟨text, rfl, .absent⟩

theorem parseSign_complete (minus : Minus text rest) (unsigned : rest.head? ≠ some '-') :
    parseSign (encoded text) = encoded rest := by
  unfold parseSign
  cases minus with
  | absent => rw [if_neg (fun head => unsigned ((head?_encoded (by decide) text).mp head))]
  | present => rw [if_pos ((head?_encoded (by decide) _).mpr rfl), drop_encoded (by decide) rfl]; rfl

theorem parseInteger_sound (parsed : parseInteger (encoded text) = .ok left) :
    ∃ rest, left = encoded rest ∧ Integer text rest := by
  unfold parseInteger at parsed
  split_ifs at parsed with zero digit
  · obtain ⟨behind, rfl⟩ :=
      List.head?_eq_some_iff.mp ((head?_encoded (by decide : IsAscii '0') text).mp zero)
    rw [drop_encoded (by decide) rfl] at parsed
    exact ⟨behind, (Except.ok.inj parsed).symm, .zero⟩
  · rw [mirrors_digit.head] at digit
    rw [mirrors_digit.dropWhile] at parsed
    refine ⟨_, (Except.ok.inj parsed).symm, ?_⟩
    have nonzero : text.head? ≠ some '0' := fun head =>
      zero ((head?_encoded (by decide) text).mpr head)
    have digits := digits_dropWhile digit
    generalize text.dropWhile Char.isDigit = rest at digits
    cases digits with
    | last first => exact .digit first fun same => nonzero (congrArg some same)
    | more first others => exact .digits first (fun same => nonzero (congrArg some same)) others

theorem parseInteger_complete (integer : Integer text rest) (ended : rest.head?.any Char.isDigit = false) :
    parseInteger (encoded text) = .ok (encoded rest) := by
  have nonzero {c : Char} {behind : List Char} (other : c ≠ '0') :
      ¬(encoded (c :: behind)).head? = some '0'.toUInt8 := fun head =>
    other (Option.some.inj ((head?_encoded (by decide) _).mp head))
  have several {c : Char} {behind : List Char} (first : c.isDigit = true) (other : c ≠ '0')
      (digits : Digits (c :: behind) rest) :
      parseInteger (encoded (c :: behind)) = .ok (encoded rest) := by
    have digit : (encoded (c :: behind)).head?.any isAsciiDigit = true := by
      rw [mirrors_digit.head]
      exact first
    unfold parseInteger
    rw [if_neg (nonzero other), if_pos digit, mirrors_digit.dropWhile, dropWhile_of_digits digits ended]
  cases integer with
  | zero =>
    unfold parseInteger
    rw [if_pos ((head?_encoded (by decide) _).mpr rfl), drop_encoded (by decide) rfl]
    rfl
  | digit first other => exact several first other (.last first)
  | digits first other digits => exact several first other (.more first digits)

theorem parseFraction_sound (parsed : parseFraction (encoded text) = .ok left) :
    ∃ rest, left = encoded rest ∧ Fraction text rest := by
  unfold parseFraction at parsed
  split_ifs at parsed with point
  · obtain ⟨behind, rfl⟩ :=
      List.head?_eq_some_iff.mp ((head?_encoded (by decide : IsAscii '.') text).mp point)
    rw [drop_encoded (by decide) rfl] at parsed
    obtain ⟨rest, rfl, digits⟩ := takeDigits_sound parsed
    exact ⟨rest, rfl, .present digits⟩
  · exact ⟨text, (Except.ok.inj parsed).symm, .absent⟩

theorem parseFraction_complete (fraction : Fraction text rest)
    (ended : rest.head?.any Char.isDigit = false) (pointless : rest.head? ≠ some '.') :
    parseFraction (encoded text) = .ok (encoded rest) := by
  unfold parseFraction
  cases fraction with
  | absent => rw [if_neg (fun head => pointless ((head?_encoded (by decide) text).mp head))]
  | present digits =>
    rw [if_pos ((head?_encoded (by decide) _).mpr rfl), drop_encoded (by decide) rfl]
    exact takeDigits_complete digits ended

theorem letters : Mirrors (fun byte => byte = 'e'.toUInt8 || byte = 'E'.toUInt8)
    (fun c => c = 'e' || c = 'E') := mirrors_either (by decide) (by decide)

theorem signs : Mirrors (fun byte => byte = '+'.toUInt8 || byte = '-'.toUInt8)
    (fun c => c = '+' || c = '-') := mirrors_either (by decide) (by decide)

theorem parseExponent_sound (parsed : parseExponent (encoded text) = .ok left) :
    ∃ rest, left = encoded rest ∧ Exponent text rest := by
  unfold parseExponent at parsed
  split_ifs at parsed with letter
  · obtain ⟨c, behind, rfl, either, dropped⟩ := letters.found letter
    have exponent : c = 'e' ∨ c = 'E' := by simpa using either
    simp only [dropped] at parsed
    split_ifs at parsed with sign
    · obtain ⟨d, digits, rfl, either, dropped⟩ := signs.found sign
      rw [dropped] at parsed
      obtain ⟨rest, rfl, taken⟩ := takeDigits_sound parsed
      have plusMinus : d = '+' ∨ d = '-' := by simpa using either
      rcases plusMinus with rfl | rfl
      · exact ⟨rest, rfl, .present exponent .plus taken⟩
      · exact ⟨rest, rfl, .present exponent .minus taken⟩
    · obtain ⟨rest, rfl, taken⟩ := takeDigits_sound parsed
      exact ⟨rest, rfl, .present exponent .absent taken⟩
  · exact ⟨text, (Except.ok.inj parsed).symm, .absent⟩

theorem parseExponent_complete (exponent : Exponent text rest) (stops : Stops rest) :
    parseExponent (encoded text) = .ok (encoded rest) := by
  unfold parseExponent
  cases exponent with
  | absent =>
    rw [if_neg]
    rw [letters.head]
    intro found
    cases text with
    | nil => cases found
    | cons c text =>
      have letter : c = 'e' ∨ c = 'E' := by simpa using found
      rcases letter with rfl | rfl <;> cases stops
  | @present c signed digits _ letter sign taken =>
    obtain ⟨head, dropped⟩ := letters.first (c := c) (by simpa using letter) signed
    rw [if_pos head]
    simp only [dropped]
    cases sign with
    | absent =>
      rw [if_neg, takeDigits_complete taken stops.not_digit]
      rw [signs.head]
      intro found
      have head := digits_head taken
      cases signed with
      | nil => cases found
      | cons d behind =>
        have digit : d.isDigit = true := head
        have sign : d = '+' ∨ d = '-' := by simpa using found
        rcases sign with rfl | rfl <;> cases digit
    | plus | minus =>
      rw [if_pos (signs.first rfl digits).1, (signs.first rfl digits).2,
        takeDigits_complete taken stops.not_digit]

theorem parseNumber_sound (parsed : parseNumber (encoded text) = .ok left) :
    ∃ rest, left = encoded rest ∧ Number text rest := by
  obtain ⟨integer, signed, minus⟩ := parseSign_sound text
  unfold parseNumber at parsed
  rw [signed] at parsed
  obtain ⟨_, integers, parsed⟩ := bind_eq_ok.mp parsed
  obtain ⟨fraction, rfl, integer⟩ := parseInteger_sound integers
  obtain ⟨_, fractions, parsed⟩ := bind_eq_ok.mp parsed
  obtain ⟨exponent, rfl, fraction⟩ := parseFraction_sound fractions
  obtain ⟨rest, rfl, exponent⟩ := parseExponent_sound parsed
  exact ⟨rest, rfl, ⟨minus, integer, fraction, exponent⟩⟩

theorem parseNumber_complete (number : Number text rest) (stops : Stops rest) :
    parseNumber (encoded text) = .ok (encoded rest) := by
  obtain ⟨minus, integer, fraction, exponent⟩ := number
  obtain ⟨ended, ended', pointless⟩ := fraction_exponent_head fraction exponent stops
  unfold parseNumber
  rw [parseSign_complete minus (fun negative => by
    obtain ⟨c, head, digit⟩ := integer_head integer
    obtain rfl := Option.some.inj (head.symm.trans negative)
    cases digit)]
  exact bind_eq_ok.mpr ⟨_, parseInteger_complete integer ended, bind_eq_ok.mpr
    ⟨_, parseFraction_complete fraction ended' pointless, parseExponent_complete exponent stops⟩⟩

end Numbers

theorem hexDigit_ascii {byte : UInt8} {value : ℕ} (digit : hexDigit byte = .ok value) :
    byte.toNat < 128 := by
  unfold hexDigit at digit
  simp only [isAsciiDigit, Bool.and_eq_true, decide_eq_true_eq, UInt8.le_iff_toNat_le] at digit
  split_ifs at digit with decimal lower upper
  · exact lt_of_le_of_lt decimal.2 (by decide)
  · exact lt_of_le_of_lt lower.2 (by decide)
  · exact lt_of_le_of_lt upper.2 (by decide)

theorem hexDigit_toUInt8 {c : Char} (ascii : IsAscii c) (value : ℕ) :
    hexDigit c.toUInt8 = .ok value ↔ hexValue c = some value := by
  have le {a : Char} : a ≤ c ↔ a.toNat ≤ c.toNat := Iff.rfl
  have ge {a : Char} : c ≤ a ↔ c.toNat ≤ a.toNat := Iff.rfl
  have byte {a : Char} (ascii' : IsAscii a) : a.toUInt8.toNat = a.toNat := toNat_toUInt8 ascii'
  simp only [hexDigit, hexValue, isAsciiDigit, Bool.and_eq_true, decide_eq_true_eq,
    UInt8.le_iff_toNat_le, le, ge, byte ascii, byte (by decide : IsAscii '0'),
    byte (by decide : IsAscii '9'), byte (by decide : IsAscii 'a'), byte (by decide : IsAscii 'f'),
    byte (by decide : IsAscii 'A'), byte (by decide : IsAscii 'F')]
  split_ifs with decimal lower upper
  · rw [Except.ok.injEq, Option.some.injEq]
  · rw [Except.ok.injEq, Option.some.injEq]
    have least : 97 ≤ c.toNat := lower.1
    omega
  · rw [Except.ok.injEq, Option.some.injEq]
    have least : 65 ≤ c.toNat := upper.1
    omega
  · exact ⟨nofun, nofun⟩

theorem hexDigit_sound {text : List Char} {byte : UInt8} {rest : List UInt8} {value : ℕ}
    (starts : encoded text = byte :: rest) (digit : hexDigit byte = .ok value) :
    ∃ c behind, text = c :: behind ∧ hexValue c = some value ∧ encoded behind = rest := by
  obtain ⟨c, behind, rfl, ascii, rfl, bytes⟩ := eq_cons_of_encoded starts (hexDigit_ascii digit)
  exact ⟨c, behind, rfl, (hexDigit_toUInt8 ascii value).mp digit, bytes⟩

theorem hexDigit_complete {c : Char} {value : ℕ} (digit : hexValue c = some value) :
    IsAscii c ∧ hexDigit c.toUInt8 = .ok value := by
  have le {a : Char} (most : c ≤ a) : c.toNat ≤ a.toNat := most
  have ascii : IsAscii c := by
    unfold hexValue at digit
    split_ifs at digit with decimal lower upper
    · exact lt_of_le_of_lt (le decimal.2) (by decide)
    · exact lt_of_le_of_lt (le lower.2) (by decide)
    · exact lt_of_le_of_lt (le upper.2) (by decide)
  exact ⟨ascii, (hexDigit_toUInt8 ascii value).mpr digit⟩

theorem parseHexQuad_digits (a b c d : UInt8) (rest : List UInt8) :
    parseHexQuad (a :: b :: c :: d :: rest) = (do
      let a ← hexDigit a
      let b ← hexDigit b
      let c ← hexDigit c
      let d ← hexDigit d
      return ((a * 16 + b) * 16 + c) * 16 + d) := by
  rw [parseHexQuad, refuse, if_neg (by simp)]
  simp only [List.take, List.foldlM_cons, List.foldlM_nil, Nat.zero_mul, Nat.zero_add, bind_assoc,
    pure_bind]
  rfl

theorem parseHexQuad_sound {text : List Char} {code : ℕ} (parsed : parseHexQuad (encoded text) = .ok code) :
    ∃ a b c d behind, text = a :: b :: c :: d :: behind ∧ hexQuad a b c d = some code := by
  have long : 4 ≤ (encoded text).length := by
    obtain ⟨_, enough, -⟩ := bind_eq_ok.mp parsed
    exact Nat.not_lt.mp (refuse_eq_ok.mp enough)
  obtain ⟨a, b, c, d, rest, bytes⟩ : ∃ a b c d rest, encoded text = a :: b :: c :: d :: rest := by
    match encoded text, long with
    | a :: b :: c :: d :: rest, _ => exact ⟨a, b, c, d, rest, rfl⟩
  rw [bytes, parseHexQuad_digits] at parsed
  obtain ⟨w, first, parsed⟩ := bind_eq_ok.mp parsed
  obtain ⟨x, second, parsed⟩ := bind_eq_ok.mp parsed
  obtain ⟨y, third, parsed⟩ := bind_eq_ok.mp parsed
  obtain ⟨z, fourth, parsed⟩ := bind_eq_ok.mp parsed
  obtain ⟨a, behind, rfl, first, bytes⟩ := hexDigit_sound bytes first
  obtain ⟨b, behind, rfl, second, bytes⟩ := hexDigit_sound bytes second
  obtain ⟨c, behind, rfl, third, bytes⟩ := hexDigit_sound bytes third
  obtain ⟨d, behind, rfl, fourth, bytes⟩ := hexDigit_sound bytes fourth
  refine ⟨a, b, c, d, behind, rfl, ?_⟩
  rw [hexQuad, first, second, third, fourth, ← Except.ok.inj parsed]
  rfl

theorem parseHexQuad_complete {a b c d : Char} {code : ℕ} (quad : hexQuad a b c d = some code)
    (behind : List Char) :
    encoded (a :: b :: c :: d :: behind) =
        a.toUInt8 :: b.toUInt8 :: c.toUInt8 :: d.toUInt8 :: encoded behind ∧
      parseHexQuad (encoded (a :: b :: c :: d :: behind)) = .ok code := by
  obtain ⟨w, first, quad⟩ := Option.bind_eq_some_iff.mp quad
  obtain ⟨x, second, quad⟩ := Option.bind_eq_some_iff.mp quad
  obtain ⟨y, third, quad⟩ := Option.bind_eq_some_iff.mp quad
  obtain ⟨z, fourth, quad⟩ := Option.bind_eq_some_iff.mp quad
  obtain ⟨asciiA, first⟩ := hexDigit_complete first
  obtain ⟨asciiB, second⟩ := hexDigit_complete second
  obtain ⟨asciiC, third⟩ := hexDigit_complete third
  obtain ⟨asciiD, fourth⟩ := hexDigit_complete fourth
  have bytes : encoded (a :: b :: c :: d :: behind) =
      a.toUInt8 :: b.toUInt8 :: c.toUInt8 :: d.toUInt8 :: encoded behind := by
    rw [encoded_ascii asciiA, encoded_ascii asciiB, encoded_ascii asciiC, encoded_ascii asciiD]
  refine ⟨bytes, ?_⟩
  rw [bytes, parseHexQuad_digits, first, second, third, fourth, ← Option.some.inj quad]
  rfl

theorem fromU32_isSome {code : ℕ} (small : code < 0x10000) :
    (fromU32 code).isSome = true ↔ NotSurrogate code := by
  unfold fromU32 NotSurrogate isSurrogate
  rw [Bool.and_eq_false_iff, decide_eq_false_iff_not, decide_eq_false_iff_not]
  split_ifs with valid
  · exact ⟨fun _ => by omega, fun _ => rfl⟩
  · exact ⟨nofun, fun _ => by omega⟩

theorem simpleEscape_ascii {byte : UInt8} {character : Char}
    (simple : simpleEscape byte = some character) : byte.toNat < 128 := by
  unfold simpleEscape at simple
  split_ifs at simple <;> subst byte <;> decide

theorem simpleEscape_toUInt8 {c : Char} (ascii : IsAscii c) :
    (simpleEscape c.toUInt8).isSome = isEscapable c := by
  have same {d : Char} (ascii' : IsAscii d) : c.toUInt8 = d.toUInt8 ↔ c = d :=
    toUInt8_inj ascii ascii'
  simp only [simpleEscape, isEscapable, same (by decide : IsAscii '\x22'),
    same (by decide : IsAscii '\\'), same (by decide : IsAscii '/'), same (by decide : IsAscii 'b'),
    same (by decide : IsAscii 'f'), same (by decide : IsAscii 'n'), same (by decide : IsAscii 'r'),
    same (by decide : IsAscii 't')]
  split_ifs <;> simp [*]

section Strings

variable {decoded : String} {segment : List UInt8}

theorem parseStringBody_cons (byte : UInt8) (rest : List UInt8) :
    parseStringBody decoded segment (byte :: rest) =
      if byte = '\x22'.toUInt8 then do
        return (← appendUtf8Segment decoded segment, rest)
      else if byte = '\\'.toUInt8 then do
        let decoded ← appendUtf8Segment decoded segment
        match rest with
        | [] => .error (invalidJson "unfinished JSON escape")
        | escape :: rest =>
          match simpleEscape escape with
          | some character => parseStringBody (decoded.push character) [] rest
          | none =>
            if escape = 'u'.toUInt8 then do
              let code ← parseHexQuad rest
              match rest with
              | _ :: _ :: _ :: _ :: rest =>
                match fromU32 code with
                | some character => parseStringBody (decoded.push character) [] rest
                | none => .error (invalidJson "invalid Unicode escape")
              | _ => .error (invalidJson "short Unicode escape")
            else .error (invalidJson "unknown JSON escape")
      else if byte < 0x20 then .error (invalidJson "unescaped control in JSON string")
      else parseStringBody decoded (segment ++ [byte]) rest := by
  refine (parseStringBody.eq_def _ _ _).trans ?_
  rfl

theorem parseStringBody_byte {byte : UInt8} (notQuote : byte ≠ '\x22'.toUInt8)
    (notEscape : byte ≠ '\\'.toUInt8) (visible : ¬byte < 0x20) (rest : List UInt8) :
    parseStringBody decoded segment (byte :: rest) =
      parseStringBody decoded (segment ++ [byte]) rest := by
  rw [parseStringBody_cons, if_neg notQuote, if_neg notEscape, if_neg visible]

theorem parseStringBody_wide {bytes : List UInt8} (wide : ∀ byte ∈ bytes, 128 ≤ byte.toNat)
    (rest : List UInt8) : parseStringBody decoded segment (bytes ++ rest) =
      parseStringBody decoded (segment ++ bytes) rest := by
  induction bytes generalizing segment with
  | nil => rw [List.nil_append, List.append_nil]
  | cons byte bytes ih =>
    obtain ⟨high, others⟩ := List.forall_mem_cons.mp wide
    have ne {c : Char} (low : c.toUInt8.toNat < 128) : byte ≠ c.toUInt8 := by
      rintro rfl
      omega
    have visible : ¬byte < 0x20 := by
      rw [UInt8.lt_iff_toNat_lt, Nat.not_lt]
      exact le_trans (by decide) high
    rw [List.cons_append, parseStringBody_byte (ne (by decide)) (ne (by decide)) visible, ih others,
      List.append_assoc, List.singleton_append]

theorem parseStringBody_plain {c : Char} (visible : 0x20 ≤ c.toNat) (notQuote : c ≠ '\x22')
    (notEscape : c ≠ '\\') (text : List Char) :
    parseStringBody decoded segment (encoded (c :: text)) =
      parseStringBody decoded (segment ++ String.utf8EncodeChar c) (encoded text) := by
  by_cases ascii : IsAscii c
  · have shown : ¬c.toUInt8 < 0x20 := by
      rw [UInt8.lt_iff_toNat_lt, toNat_toUInt8 ascii, Nat.not_lt]
      exact visible
    rw [encoded_ascii ascii, encode_ascii ascii, parseStringBody_byte _ _ shown]
    · exact fun same => notQuote ((toUInt8_inj ascii (by decide)).mp same)
    · exact fun same => notEscape ((toUInt8_inj ascii (by decide)).mp same)
  · rw [encoded_cons, parseStringBody_wide (encode_wide ascii)]

theorem parseStringBody_close (text : List Char) :
    parseStringBody decoded segment (encoded ('\x22' :: text)) =
      (do return (← appendUtf8Segment decoded segment, encoded text)) := by
  rw [encoded_ascii (by decide), parseStringBody_cons, if_pos rfl]

theorem parseStringBody_control {c : Char} (control : c.toNat < 0x20) (text : List Char) :
    parseStringBody decoded segment (encoded (c :: text)) =
      .error (invalidJson "unescaped control in JSON string") := by
  have ascii : IsAscii c := lt_trans control (by decide)
  have low : c.toUInt8 < 0x20 := by
    rw [UInt8.lt_iff_toNat_lt, toNat_toUInt8 ascii]
    exact control
  have ne {d : Char} (ascii' : IsAscii d) (shown : 0x20 ≤ d.toNat) : ¬c.toUInt8 = d.toUInt8 := by
    intro same
    obtain rfl := (toUInt8_inj ascii ascii').mp same
    omega
  rw [encoded_ascii ascii, parseStringBody_cons, if_neg (ne (by decide) (by decide)),
    if_neg (ne (by decide) (by decide)), if_pos low]

theorem parseStringBody_escape {escape character : Char} (ascii : IsAscii escape)
    (simple : simpleEscape escape.toUInt8 = some character) (text : List Char) :
    parseStringBody decoded segment (encoded ('\\' :: escape :: text)) = (do
      let decoded ← appendUtf8Segment decoded segment
      parseStringBody (decoded.push character) [] (encoded text)) := by
  rw [encoded_ascii (by decide), encoded_ascii ascii, parseStringBody_cons, if_neg (by decide), if_pos rfl]
  simp only [simple]

theorem parseStringBody_unicode (rest : List UInt8) :
    parseStringBody decoded segment ('\\'.toUInt8 :: 'u'.toUInt8 :: rest) = (do
      let decoded ← appendUtf8Segment decoded segment
      let code ← parseHexQuad rest
      match rest with
      | _ :: _ :: _ :: _ :: rest =>
        match fromU32 code with
        | some character => parseStringBody (decoded.push character) [] rest
        | none => .error (invalidJson "invalid Unicode escape")
      | _ => .error (invalidJson "short Unicode escape")) := by
  have simple : simpleEscape 'u'.toUInt8 = none := rfl
  rw [parseStringBody_cons, if_neg (by decide), if_pos rfl]
  simp only [simple]
  rfl

theorem parseStringBody_backslash {text : List Char} {name : String} {left : List UInt8}
    (parsed : parseStringBody decoded segment (encoded ('\\' :: text)) = .ok (name, left)) :
    (∃ c behind decoded', text = c :: behind ∧ isEscapable c = true ∧
      parseStringBody decoded' [] (encoded behind) = .ok (name, left)) ∨
    ∃ a b c d code behind decoded', text = 'u' :: a :: b :: c :: d :: behind ∧
      hexQuad a b c d = some code ∧ NotSurrogate code ∧
      parseStringBody decoded' [] (encoded behind) = .ok (name, left) := by
  rw [encoded_ascii (by decide)] at parsed
  cases text with
  | nil =>
    rw [encoded_nil, parseStringBody_cons, if_neg (by decide), if_pos rfl] at parsed
    obtain ⟨_, -, parsed⟩ := bind_eq_ok.mp parsed
    cases parsed
  | cons c text =>
    by_cases ascii : IsAscii c
    · cases simple : simpleEscape c.toUInt8 with
      | some character =>
        left
        rw [← encoded_ascii (by decide), parseStringBody_escape ascii simple] at parsed
        obtain ⟨decoded', -, parsed⟩ := bind_eq_ok.mp parsed
        refine ⟨c, text, _, rfl, ?_, parsed⟩
        rw [← simpleEscape_toUInt8 ascii, simple]
        rfl
      | none =>
        right
        rw [encoded_ascii ascii] at parsed
        by_cases unicode : c = 'u'
        · subst c
          rw [parseStringBody_unicode] at parsed
          obtain ⟨decoded', -, parsed⟩ := bind_eq_ok.mp parsed
          obtain ⟨code, coded, parsed⟩ := bind_eq_ok.mp parsed
          obtain ⟨a, b, c, d, behind, rfl, quad⟩ := parseHexQuad_sound coded
          rw [(parseHexQuad_complete quad behind).1] at parsed
          have valid := fromU32_isSome (hexQuad_lt quad)
          cases character : fromU32 code with
          | none => simp only [character, reduceCtorEq] at parsed
          | some character' =>
            simp only [character] at parsed
            rw [character] at valid
            exact ⟨a, b, c, d, code, behind, _, rfl, quad, valid.mp rfl, parsed⟩
        · rw [parseStringBody_cons, if_neg (by decide), if_pos rfl] at parsed
          obtain ⟨_, -, parsed⟩ := bind_eq_ok.mp parsed
          simp only [simple] at parsed
          rw [if_neg (fun same => unicode ((toUInt8_inj ascii (by decide)).mp same))] at parsed
          cases parsed
    · obtain ⟨byte, rest, bytes, high⟩ := encoded_wide ascii text
      rw [bytes, parseStringBody_cons, if_neg (by decide), if_pos rfl] at parsed
      obtain ⟨_, -, parsed⟩ := bind_eq_ok.mp parsed
      cases simple : simpleEscape byte with
      | some character =>
        have low := simpleEscape_ascii simple
        omega
      | none =>
        simp only [simple] at parsed
        rw [if_neg (by rintro rfl; revert high; decide)] at parsed
        cases parsed

theorem parseStringBody_sound (text : List Char) {decoded name : String} {segment left : List UInt8}
    (parsed : parseStringBody decoded segment (encoded text) = .ok (name, left)) :
    ∃ rest, left = encoded rest ∧ Characters NotSurrogate text rest := by
  match text with
  | [] => cases parsed
  | c :: text =>
    by_cases quote : c = '\x22'
    · subst c
      rw [parseStringBody_close] at parsed
      obtain ⟨decoded', -, parsed⟩ := bind_eq_ok.mp parsed
      obtain ⟨-, rfl⟩ := Prod.mk.inj (Except.ok.inj parsed)
      exact ⟨text, rfl, .close⟩
    by_cases escape : c = '\\'
    · subst c
      rcases parseStringBody_backslash parsed with
        ⟨c, behind, decoded', rfl, escapable, parsed⟩ |
          ⟨a, b, c, d, code, behind, decoded', rfl, quad, fine, parsed⟩
      · obtain ⟨rest, rfl, characters⟩ := parseStringBody_sound behind parsed
        exact ⟨rest, rfl, .escape escapable characters⟩
      · obtain ⟨rest, rfl, characters⟩ := parseStringBody_sound behind parsed
        exact ⟨rest, rfl, .unicode quad fine characters⟩
    by_cases visible : 0x20 ≤ c.toNat
    · rw [parseStringBody_plain visible quote escape] at parsed
      obtain ⟨rest, rfl, characters⟩ := parseStringBody_sound text parsed
      exact ⟨rest, rfl, .plain visible quote escape characters⟩
    · rw [parseStringBody_control (Nat.not_le.mp visible)] at parsed
      cases parsed
termination_by text.length

theorem appendUtf8Segment_encoded (decoded : String) (text : List Char) :
    appendUtf8Segment decoded (encoded text) = .ok (decoded ++ String.ofList text) := by
  have bytes : encoded text = utf8 (String.ofList text) := by
    rw [utf8, String.toList_ofList, encoded]
  rw [appendUtf8Segment, bytes, fromUtf8_utf8]

theorem parseStringBody_complete {text rest : List Char}
    (characters : Characters NotSurrogate text rest) (decoded : String) (shown : List Char) :
    ∃ name, parseStringBody decoded (encoded shown) (encoded text) = .ok (name, encoded rest) := by
  induction characters generalizing decoded shown with
  | close =>
    rw [parseStringBody_close, appendUtf8Segment_encoded]
    exact ⟨_, rfl⟩
  | @plain c _ _ visible notQuote notEscape _ ih =>
    rw [parseStringBody_plain visible notQuote notEscape]
    have more : encoded shown ++ String.utf8EncodeChar c = encoded (shown ++ [c]) := by
      rw [encoded_append, encoded_cons, encoded_nil, List.append_nil]
    rw [more]
    exact ih _ _
  | @escape c _ _ escapable _ ih =>
    have ascii : IsAscii c := by
      simp only [isEscapable, List.mem_cons, List.not_mem_nil, or_false, decide_eq_true_eq]
        at escapable
      rcases escapable with rfl | rfl | rfl | rfl | rfl | rfl | rfl | rfl <;> decide
    rw [← simpleEscape_toUInt8 ascii] at escapable
    obtain ⟨character, simple⟩ := Option.isSome_iff_exists.mp escapable
    rw [parseStringBody_escape ascii simple, appendUtf8Segment_encoded]
    exact ih _ []
  | @unicode a b c d code text _ quad fine _ ih =>
    obtain ⟨bytes, parsed⟩ := parseHexQuad_complete quad text
    obtain ⟨character, valid⟩ :=
      Option.isSome_iff_exists.mp ((fromU32_isSome (hexQuad_lt quad)).mpr fine)
    rw [encoded_ascii (by decide), encoded_ascii (by decide), parseStringBody_unicode,
      appendUtf8Segment_encoded, parsed, bytes]
    obtain ⟨name, more⟩ := ih ((decoded ++ String.ofList shown).push character) []
    refine ⟨name, bind_eq_ok.mpr ⟨_, rfl, bind_eq_ok.mpr ⟨code, rfl, ?_⟩⟩⟩
    simp only [valid]
    exact more

theorem parseString_sound {text : List Char} {name : String} {left : List UInt8}
    (parsed : parseString (encoded text) = .ok (name, left)) :
    ∃ behind rest, text = '\x22' :: behind ∧ left = encoded rest ∧
      Characters NotSurrogate behind rest := by
  unfold parseString at parsed
  split at parsed
  · next byte rest bytes =>
      split_ifs at parsed with quote
      obtain ⟨c, behind, rfl, ascii, same, rfl⟩ := eq_cons_of_encoded bytes (by rw [quote]; decide)
      obtain rfl := (toUInt8_inj ascii (by decide)).mp (same.trans quote)
      obtain ⟨rest, rfl, characters⟩ := parseStringBody_sound behind parsed
      exact ⟨behind, rest, rfl, rfl, characters⟩
  · cases parsed

theorem parseString_complete {text rest : List Char} (characters : Characters NotSurrogate text rest) :
    ∃ name, parseString (encoded ('\x22' :: text)) = .ok (name, encoded rest) := by
  obtain ⟨name, parsed⟩ := parseStringBody_complete characters "" []
  refine ⟨name, ?_⟩
  rw [encoded_ascii (by decide), parseString]
  exact (if_pos rfl).trans parsed

end Strings

theorem parseLiteral_sound {literal text : List Char} {left : List UInt8} (ascii : ∀ c ∈ literal, IsAscii c)
    (parsed : parseLiteral (encoded text) (encoded literal) = .ok left) :
    ∃ rest, text = literal ++ rest ∧ left = encoded rest := by
  unfold parseLiteral at parsed
  split_ifs at parsed with taken
  have starts := List.take_append_drop (encoded literal).length (encoded text)
  rw [taken] at starts
  obtain ⟨rest, rfl, bytes⟩ := eq_append_of_encoded ascii starts.symm
  exact ⟨rest, rfl, (Except.ok.inj parsed).symm.trans bytes.symm⟩

theorem parseLiteral_complete (literal rest : List Char) :
    parseLiteral (encoded (literal ++ rest)) (encoded literal) = .ok (encoded rest) := by
  rw [encoded_append, parseLiteral, List.take_left, if_pos rfl, List.drop_left]

theorem expectByte_sound {text : List Char} {c : Char} {left : List UInt8} (ascii : IsAscii c)
    (parsed : expectByte (encoded text) c = .ok left) : ∃ rest, text = c :: rest ∧ left = encoded rest := by
  unfold expectByte at parsed
  split at parsed
  · next byte bytes starts =>
      split_ifs at parsed with same
      obtain ⟨d, rest, rfl, ascii', found, rfl⟩ := eq_cons_of_encoded starts
        (by rw [same, toNat_toUInt8 ascii]; exact ascii)
      obtain rfl := (toUInt8_inj ascii' ascii).mp (found.trans same)
      exact ⟨rest, rfl, (Except.ok.inj parsed).symm⟩
  · cases parsed

theorem expectByte_complete {c : Char} (ascii : IsAscii c) (rest : List Char) :
    expectByte (encoded (c :: rest)) c = .ok (encoded rest) := by
  rw [encoded_ascii ascii]
  exact if_pos rfl

theorem utf8_true : utf8 "true" = encoded ['t', 'r', 'u', 'e'] := by decide

theorem utf8_false : utf8 "false" = encoded ['f', 'a', 'l', 's', 'e'] := by decide

theorem utf8_null : utf8 "null" = encoded ['n', 'u', 'l', 'l'] := by decide

theorem parseValue_cons (fuel : ℕ) {c : Char} (solid : isSpace c = false) (text : List Char) :
    parseValue (fuel + 1) (encoded (c :: text)) =
      if c = '\x22' then Except.map Prod.snd (parseString (encoded (c :: text)))
      else if c = '{' then parseObjectValue fuel (encoded (c :: text))
      else if c = '[' then parseArrayValue fuel (encoded (c :: text))
      else if c = 't' then parseLiteral (encoded (c :: text)) (utf8 "true")
      else if c = 'f' then parseLiteral (encoded (c :: text)) (utf8 "false")
      else if c = 'n' then parseLiteral (encoded (c :: text)) (utf8 "null")
      else if c = '-' ∨ c.isDigit = true then parseNumber (encoded (c :: text))
      else .error (invalidJson "expected a JSON value") := by
  rw [parseValue, skipWhitespace_encoded, List.dropWhile_cons_of_neg (by simp [solid])]
  by_cases ascii : IsAscii c
  · have same {d : Char} (ascii' : IsAscii d) : c.toUInt8 = d.toUInt8 ↔ c = d :=
      toUInt8_inj ascii ascii'
    simp only [encoded_ascii ascii, same (by decide : IsAscii '\x22'), same (by decide : IsAscii '{'),
      same (by decide : IsAscii '['), same (by decide : IsAscii 't'), same (by decide : IsAscii 'f'),
      same (by decide : IsAscii 'n'), same (by decide : IsAscii '-'), mirrors_digit.same c ascii,
      Bool.or_eq_true, decide_eq_true_eq]
  · obtain ⟨byte, rest, bytes, high⟩ := encoded_wide ascii text
    have ne {d : Char} (low : d.toUInt8.toNat < 128) : ¬byte = d.toUInt8 := by
      rintro rfl
      omega
    have ne' {d : Char} (low : IsAscii d) : ¬c = d := by
      rintro rfl
      exact ascii low
    have notDigit : ¬(decide (byte = '-'.toUInt8) || isAsciiDigit byte) = true := by
      simp only [Bool.or_eq_true, decide_eq_true_eq]
      rintro (minus | digit)
      · exact ne (by decide) minus
      · have := mirrors_digit.bytes byte digit
        omega
    have notDigit' : ¬(c = '-' ∨ c.isDigit = true) := by
      rintro (minus | digit)
      · exact ne' (by decide) minus
      · exact ascii (mirrors_digit.chars c digit)
    rw [bytes]
    dsimp only
    rw [if_neg (ne (by decide)), if_neg (ne (by decide)), if_neg (ne (by decide)),
      if_neg (ne (by decide)), if_neg (ne (by decide)), if_neg (ne (by decide)), if_neg notDigit,
      if_neg (ne' (by decide)), if_neg (ne' (by decide)), if_neg (ne' (by decide)),
      if_neg (ne' (by decide)), if_neg (ne' (by decide)), if_neg (ne' (by decide)), if_neg notDigit']

theorem head_dropWhile (text : List Char) :
    text.dropWhile isSpace = [] ∨
      ∃ c rest, text.dropWhile isSpace = c :: rest ∧ isSpace c = false := by
  cases skipped : text.dropWhile isSpace with
  | nil => exact .inl rfl
  | cons c rest =>
    refine .inr ⟨c, rest, rfl, ?_⟩
    have solid := List.head?_dropWhile_not isSpace text
    rw [skipped] at solid
    exact solid

section Soundness

/-- What the readers take is what the grammar derives. -/
structure Sound (fuel : ℕ) : Prop where
  value : ∀ text left, parseValue fuel (encoded text) = .ok left → ∃ value rest,
    Space text value ∧ left = encoded rest ∧ Derives NotSurrogate .value value rest
  object : ∀ text left, parseObjectValue fuel (encoded ('{' :: text)) = .ok left →
    ∃ rest, left = encoded rest ∧ Derives NotSurrogate .value ('{' :: text) rest
  fields : ∀ text left, parseObjectFields fuel (encoded text) = .ok left →
    ∃ rest, left = encoded rest ∧ Derives NotSurrogate .members text rest
  array : ∀ text left, parseArrayValue fuel (encoded ('[' :: text)) = .ok left →
    ∃ rest, left = encoded rest ∧ Derives NotSurrogate .value ('[' :: text) rest
  values : ∀ text left, parseArrayValues fuel (encoded text) = .ok left →
    ∃ rest, left = encoded rest ∧ Derives NotSurrogate .elements text rest

variable {fuel : ℕ} {text : List Char} {left : List UInt8}

theorem Sound.dispatched (sound : Sound fuel) {c : Char} (solid : isSpace c = false)
    (parsed : parseValue (fuel + 1) (encoded (c :: text)) = .ok left) :
    ∃ rest, left = encoded rest ∧ Derives NotSurrogate .value (c :: text) rest := by
  rw [parseValue_cons fuel solid] at parsed
  split_ifs at parsed with quote brace bracket t f n numeral
  · obtain ⟨⟨name, left⟩, read, rfl⟩ := map_eq_ok.mp parsed
    obtain ⟨behind, rest, same, rfl, characters⟩ := parseString_sound read
    exact ⟨rest, rfl, same ▸ .string characters⟩
  · subst brace
    exact sound.object text left parsed
  · subst bracket
    exact sound.array text left parsed
  · rw [utf8_true] at parsed
    have ascii : ∀ c ∈ ['t', 'r', 'u', 'e'], IsAscii c := by simp [IsAscii]
    obtain ⟨rest, same, rfl⟩ := parseLiteral_sound ascii parsed
    exact ⟨rest, rfl, same ▸ .true⟩
  · rw [utf8_false] at parsed
    have ascii : ∀ c ∈ ['f', 'a', 'l', 's', 'e'], IsAscii c := by simp [IsAscii]
    obtain ⟨rest, same, rfl⟩ := parseLiteral_sound ascii parsed
    exact ⟨rest, rfl, same ▸ .false⟩
  · rw [utf8_null] at parsed
    have ascii : ∀ c ∈ ['n', 'u', 'l', 'l'], IsAscii c := by simp [IsAscii]
    obtain ⟨rest, same, rfl⟩ := parseLiteral_sound ascii parsed
    exact ⟨rest, rfl, same ▸ .null⟩
  · obtain ⟨rest, rfl, number⟩ := parseNumber_sound parsed
    exact ⟨rest, rfl, .number number⟩

theorem Sound.next_value (sound : Sound fuel) (parsed : parseValue (fuel + 1) (encoded text) = .ok left) :
    ∃ value rest, Space text value ∧ left = encoded rest ∧
      Derives NotSurrogate .value value rest := by
  have space := space_dropWhile text
  have skipped : parseValue (fuel + 1) (encoded (text.dropWhile isSpace)) = .ok left := by
    rw [← parsed, parseValue, parseValue, skipWhitespace_encoded, skipWhitespace_encoded,
      List.dropWhile_idempotent]
  rcases head_dropWhile text with none | ⟨c, rest, first, solid⟩
  · rw [none] at skipped
    cases skipped
  · rw [first] at skipped space
    obtain ⟨rest', rfl, derives⟩ := sound.dispatched solid skipped
    exact ⟨_, rest', space, rfl, derives⟩

theorem mark_sound {c : Char} (ascii : IsAscii c)
    (mark : (skipWhitespace (encoded text)).head? = some c.toUInt8) :
    ∃ rest, Space text (c :: rest) ∧ (skipWhitespace (encoded text)).drop 1 = encoded rest := by
  rw [skipWhitespace_encoded] at mark ⊢
  have head := (head?_encoded ascii _).mp mark
  obtain ⟨rest, behind⟩ := List.head?_eq_some_iff.mp head
  refine ⟨rest, behind ▸ space_dropWhile text, ?_⟩
  rw [drop_encoded ascii head, behind]
  rfl

theorem Sound.next_object (sound : Sound fuel)
    (parsed : parseObjectValue (fuel + 1) (encoded ('{' :: text)) = .ok left) :
    ∃ rest, left = encoded rest ∧ Derives NotSurrogate .value ('{' :: text) rest := by
  rw [parseObjectValue, drop_encoded (by decide) rfl, List.tail_cons] at parsed
  split_ifs at parsed with brace
  · obtain ⟨rest, space, dropped⟩ := mark_sound (by decide) brace
    rw [dropped] at parsed
    exact ⟨rest, (Except.ok.inj parsed).symm, .emptyObject space⟩
  · rw [skipWhitespace_encoded] at parsed
    obtain ⟨rest, rfl, members⟩ := sound.fields _ _ parsed
    exact ⟨rest, rfl, .object (members.before (space_dropWhile text) nofun)⟩

theorem Sound.next_fields (sound : Sound fuel)
    (parsed : parseObjectFields (fuel + 1) (encoded text) = .ok left) :
    ∃ rest, left = encoded rest ∧ Derives NotSurrogate .members text rest := by
  rw [parseObjectFields, skipWhitespace_encoded] at parsed
  obtain ⟨⟨name, _⟩, named, parsed⟩ := bind_eq_ok.mp parsed
  obtain ⟨behind, colon, first, rfl, characters⟩ := parseString_sound named
  dsimp only at parsed
  obtain ⟨_, separated, parsed⟩ := bind_eq_ok.mp parsed
  rw [skipWhitespace_encoded] at separated
  obtain ⟨space, second, rfl⟩ := expectByte_sound (by decide) separated
  obtain ⟨_, read, parsed⟩ := bind_eq_ok.mp parsed
  obtain ⟨value, behind', gap, rfl, derives⟩ := sound.value _ _ read
  have opening : Space text ('\x22' :: behind) := first ▸ space_dropWhile text
  have separator : Space colon (':' :: space) := second ▸ space_dropWhile colon
  split_ifs at parsed with comma brace
  · obtain ⟨more, space', dropped⟩ := mark_sound (by decide) comma
    rw [dropped] at parsed
    obtain ⟨rest, rfl, members⟩ := sound.fields _ _ parsed
    exact ⟨rest, rfl, .member opening characters separator gap derives space' members⟩
  · obtain ⟨rest, space', dropped⟩ := mark_sound (by decide) brace
    rw [dropped] at parsed
    exact ⟨rest, (Except.ok.inj parsed).symm, .lastMember opening characters separator gap derives space'⟩

theorem Sound.next_array (sound : Sound fuel)
    (parsed : parseArrayValue (fuel + 1) (encoded ('[' :: text)) = .ok left) :
    ∃ rest, left = encoded rest ∧ Derives NotSurrogate .value ('[' :: text) rest := by
  rw [parseArrayValue, drop_encoded (by decide) rfl, List.tail_cons] at parsed
  split_ifs at parsed with bracket
  · obtain ⟨rest, space, dropped⟩ := mark_sound (by decide) bracket
    rw [dropped] at parsed
    exact ⟨rest, (Except.ok.inj parsed).symm, .emptyArray space⟩
  · rw [skipWhitespace_encoded] at parsed
    obtain ⟨rest, rfl, elements⟩ := sound.values _ _ parsed
    exact ⟨rest, rfl, .array (elements.before (space_dropWhile text) nofun)⟩

theorem Sound.next_values (sound : Sound fuel)
    (parsed : parseArrayValues (fuel + 1) (encoded text) = .ok left) :
    ∃ rest, left = encoded rest ∧ Derives NotSurrogate .elements text rest := by
  rw [parseArrayValues] at parsed
  obtain ⟨_, read, parsed⟩ := bind_eq_ok.mp parsed
  obtain ⟨value, behind, gap, rfl, derives⟩ := sound.value _ _ read
  dsimp only at parsed
  split_ifs at parsed with comma bracket
  · obtain ⟨more, space, dropped⟩ := mark_sound (by decide) comma
    rw [dropped] at parsed
    obtain ⟨rest, rfl, elements⟩ := sound.values _ _ parsed
    exact ⟨rest, rfl, .element gap derives space elements⟩
  · obtain ⟨rest, space, dropped⟩ := mark_sound (by decide) bracket
    rw [dropped] at parsed
    exact ⟨rest, (Except.ok.inj parsed).symm, .lastElement gap derives space⟩

theorem readers_sound (fuel : ℕ) : Sound fuel := by
  induction fuel with
  | zero => constructor <;> nofun
  | succ fuel ih =>
    constructor
    · exact fun _ _ => ih.next_value
    · exact fun _ _ => ih.next_object
    · exact fun _ _ => ih.next_fields
    · exact fun _ _ => ih.next_array
    · exact fun _ _ => ih.next_values

end Soundness

section Completeness

def reader : Symbol → ℕ → List UInt8 → Except ProtocolError (List UInt8)
  | .value => parseValue
  | .members => parseObjectFields
  | .elements => parseArrayValues

/-- The fuel that a reader takes on top of three for each byte. -/
def surplus : Symbol → ℕ
  | .value => 1
  | .members => 2
  | .elements => 2

theorem Takes.length_le {rule : Rule} {taken : List Char → Prop} (takes : Takes rule taken)
    {text rest : List Char} (applies : rule text rest) : (encoded rest).length ≤ (encoded text).length := by
  obtain ⟨front, rfl, -, -⟩ := takes text rest applies
  rw [encoded_append, List.length_append]
  exact Nat.le_add_left _ _

theorem length_encoded_cons (c : Char) (text : List Char) :
    (encoded text).length + 1 ≤ (encoded (c :: text)).length := by
  have some := List.length_pos_iff.mpr (@String.utf8EncodeChar_ne_nil c)
  rw [encoded_cons, List.length_append]
  omega

variable {fuel : ℕ} {text rest : List Char}

theorem length_field {name colon space value : List Char} (opening : Space text ('\x22' :: name))
    (characters : Characters NotSurrogate name colon) (separator : Space colon (':' :: space))
    (gap : Space space value) : (encoded value).length + 2 ≤ (encoded text).length := by
  have first := Takes.length_le space_takes opening
  have quote := length_encoded_cons '\x22' name
  have second := Takes.length_le characters_takes characters
  have third := Takes.length_le space_takes separator
  have mark := length_encoded_cons ':' space
  have fourth := Takes.length_le space_takes gap
  omega

theorem length_element {c : Char} {value behind more : List Char}
    (derives : Derives NotSurrogate .value value behind) (ends : Space behind (c :: more)) :
    (encoded more).length + 1 ≤ (encoded value).length := by
  have first := Takes.length_le (derives_takes _) derives
  have second := Takes.length_le space_takes ends
  have mark := length_encoded_cons c more
  omega

theorem skipWhitespace_solid {c : Char} (space : Space text (c :: rest)) (solid : isSpace c = false) :
    skipWhitespace (encoded text) = encoded (c :: rest) := by
  rw [skipWhitespace_encoded, dropWhile_solid space solid]

theorem parseValue_space {value : List Char} (space : Space text value) (fuel : ℕ) :
    parseValue fuel (encoded text) = parseValue fuel (encoded value) := by
  cases fuel with
  | zero => rfl
  | succ fuel =>
    rw [parseValue, parseValue, skipWhitespace_encoded, skipWhitespace_encoded, dropWhile_of_space space]

theorem mark_complete {c : Char} (ascii : IsAscii c) (space : Space text (c :: rest))
    (solid : isSpace c = false) :
    (skipWhitespace (encoded text)).head? = some c.toUInt8 ∧
      (skipWhitespace (encoded text)).drop 1 = encoded rest := by
  rw [skipWhitespace_solid space solid]
  exact ⟨(head?_encoded ascii _).mpr rfl, drop_encoded ascii rfl⟩

theorem mark_other {c d : Char} (ascii : IsAscii d) (space : Space text (c :: rest))
    (solid : isSpace c = false) (other : c ≠ d) :
    (skipWhitespace (encoded text)).head? ≠ some d.toUInt8 := by
  rw [skipWhitespace_solid space solid]
  exact fun head => other (Option.some.inj ((head?_encoded ascii _).mp head))

theorem parseObjectFields_value {name colon space value behind : List Char}
    (opening : Space text ('\x22' :: name)) (characters : Characters NotSurrogate name colon)
    (separator : Space colon (':' :: space)) (gap : Space space value)
    (read : parseValue fuel (encoded value) = .ok (encoded behind)) :
    parseObjectFields (fuel + 1) (encoded text) =
      if (skipWhitespace (encoded behind)).head? = some ','.toUInt8 then
        parseObjectFields fuel ((skipWhitespace (encoded behind)).drop 1)
      else if (skipWhitespace (encoded behind)).head? = some '}'.toUInt8 then
        .ok ((skipWhitespace (encoded behind)).drop 1)
      else .error (invalidJson "object fields must be comma-separated") := by
  obtain ⟨name, named⟩ := parseString_complete characters
  rw [parseObjectFields, skipWhitespace_solid opening rfl, named]
  change (expectByte (skipWhitespace (encoded colon)) ':' >>= _) = _
  rw [skipWhitespace_solid separator rfl, expectByte_complete (by decide)]
  change (parseValue fuel (encoded space) >>= _) = _
  rw [parseValue_space gap, read]
  rfl

theorem parseArrayValues_value {value behind : List Char} (gap : Space text value)
    (read : parseValue fuel (encoded value) = .ok (encoded behind)) :
    parseArrayValues (fuel + 1) (encoded text) =
      if (skipWhitespace (encoded behind)).head? = some ','.toUInt8 then
        parseArrayValues fuel ((skipWhitespace (encoded behind)).drop 1)
      else if (skipWhitespace (encoded behind)).head? = some ']'.toUInt8 then
        .ok ((skipWhitespace (encoded behind)).drop 1)
      else .error (invalidJson "array values must be comma-separated") := by
  rw [parseArrayValues, parseValue_space gap, read]
  rfl

theorem parseObjectFields_space (text : List Char) (fuel : ℕ) :
    parseObjectFields fuel (skipWhitespace (encoded text)) =
      parseObjectFields fuel (encoded text) := by
  cases fuel with
  | zero => rfl
  | succ fuel =>
    rw [parseObjectFields, parseObjectFields, skipWhitespace_encoded, skipWhitespace_encoded,
      List.dropWhile_idempotent]

theorem parseArrayValues_space (text : List Char) (fuel : ℕ) :
    parseArrayValues fuel (skipWhitespace (encoded text)) = parseArrayValues fuel (encoded text) := by
  cases fuel with
  | zero => rfl
  | succ fuel =>
    rw [parseArrayValues, parseArrayValues, skipWhitespace_encoded,
      ← parseValue_space (space_dropWhile text)]

theorem parseValue_number (number : Number text rest) (stops : Stops rest) :
    parseValue (fuel + 1) (encoded text) = .ok (encoded rest) := by
  obtain ⟨c, head, mark⟩ := number_head number
  obtain ⟨behind, rfl⟩ := List.head?_eq_some_iff.mp head
  have numeral : isNumeral c = true := by
    rcases mark with rfl | digit
    · rfl
    · exact isNumeral_digit digit
  have ne {d : Char} (other : isNumeral d = false) : c ≠ d := by
    rintro rfl
    rw [numeral] at other
    cases other
  rw [parseValue_cons fuel (isSpace_of_isNumeral numeral), if_neg (ne rfl), if_neg (ne rfl),
    if_neg (ne rfl), if_neg (ne rfl), if_neg (ne rfl), if_neg (ne rfl), if_pos mark]
  exact parseNumber_complete number stops

theorem parseValue_brace (text : List Char) :
    parseValue (fuel + 1 + 1) (encoded ('{' :: text)) =
      if (skipWhitespace (encoded text)).head? = some '}'.toUInt8 then
        .ok ((skipWhitespace (encoded text)).drop 1)
      else parseObjectFields fuel (encoded text) := by
  rw [parseValue_cons _ rfl, if_neg (by decide), if_pos rfl, parseObjectValue,
    drop_encoded (by decide) rfl, List.tail_cons, parseObjectFields_space]

theorem parseValue_bracket (text : List Char) :
    parseValue (fuel + 1 + 1) (encoded ('[' :: text)) =
      if (skipWhitespace (encoded text)).head? = some ']'.toUInt8 then
        .ok ((skipWhitespace (encoded text)).drop 1)
      else parseArrayValues fuel (encoded text) := by
  rw [parseValue_cons _ rfl, if_neg (by decide), if_neg (by decide), if_pos rfl, parseArrayValue,
    drop_encoded (by decide) rfl, List.tail_cons, parseArrayValues_space]

theorem reader_complete {symbol : Symbol} (derives : Derives NotSurrogate symbol text rest)
    (stops : Stops rest) (enough : 3 * (encoded text).length + surplus symbol ≤ fuel) :
    reader symbol fuel (encoded text) = .ok (encoded rest) := by
  induction derives generalizing fuel with
  | string characters =>
    obtain ⟨fuel, rfl⟩ := Nat.exists_eq_add_of_le' (le_trans (Nat.le_add_left 1 _) enough)
    obtain ⟨name, read⟩ := parseString_complete characters
    change parseValue _ _ = _
    rw [parseValue_cons fuel rfl, if_pos rfl, read]
    rfl
  | number number =>
    obtain ⟨fuel, rfl⟩ := Nat.exists_eq_add_of_le' (le_trans (Nat.le_add_left 1 _) enough)
    exact parseValue_number number stops
  | @true text =>
    obtain ⟨fuel, rfl⟩ := Nat.exists_eq_add_of_le' (le_trans (Nat.le_add_left 1 _) enough)
    change parseValue _ _ = _
    rw [parseValue_cons fuel rfl, if_neg (by decide), if_neg (by decide), if_neg (by decide),
      if_pos rfl, utf8_true]
    exact parseLiteral_complete ['t', 'r', 'u', 'e'] text
  | @false text =>
    obtain ⟨fuel, rfl⟩ := Nat.exists_eq_add_of_le' (le_trans (Nat.le_add_left 1 _) enough)
    change parseValue _ _ = _
    rw [parseValue_cons fuel rfl, if_neg (by decide), if_neg (by decide), if_neg (by decide),
      if_neg (by decide), if_pos rfl, utf8_false]
    exact parseLiteral_complete ['f', 'a', 'l', 's', 'e'] text
  | @null text =>
    obtain ⟨fuel, rfl⟩ := Nat.exists_eq_add_of_le' (le_trans (Nat.le_add_left 1 _) enough)
    change parseValue _ _ = _
    rw [parseValue_cons fuel rfl, if_neg (by decide), if_neg (by decide), if_neg (by decide),
      if_neg (by decide), if_neg (by decide), if_pos rfl, utf8_null]
    exact parseLiteral_complete ['n', 'u', 'l', 'l'] text
  | @emptyObject text _ space =>
    have shorter := length_encoded_cons '{' text
    obtain ⟨fuel, rfl⟩ : ∃ n, fuel = n + 1 + 1 := ⟨fuel - 2, by omega⟩
    obtain ⟨brace, dropped⟩ := mark_complete (by decide) space rfl
    exact (parseValue_brace text).trans ((if_pos brace).trans (congrArg _ dropped))
  | @object text _ members ih =>
    have shorter := length_encoded_cons '{' text
    obtain ⟨fuel, rfl⟩ : ∃ n, fuel = n + 1 + 1 := ⟨fuel - 2, by omega⟩
    obtain ⟨name, opening⟩ := members_head members
    have unclosed := mark_other (by decide : IsAscii '}') opening rfl (by decide)
    refine (parseValue_brace text).trans ((if_neg unclosed).trans (ih stops ?_))
    simp only [surplus] at enough ⊢
    omega
  | @emptyArray text _ space =>
    have shorter := length_encoded_cons '[' text
    obtain ⟨fuel, rfl⟩ : ∃ n, fuel = n + 1 + 1 := ⟨fuel - 2, by omega⟩
    obtain ⟨bracket, dropped⟩ := mark_complete (by decide) space rfl
    exact (parseValue_bracket text).trans ((if_pos bracket).trans (congrArg _ dropped))
  | @array text _ elements ih =>
    have shorter := length_encoded_cons '[' text
    obtain ⟨fuel, rfl⟩ : ∃ n, fuel = n + 1 + 1 := ⟨fuel - 2, by omega⟩
    obtain ⟨c, behind, gap, solid, continues⟩ := elements_head elements
    have unclosed := mark_other (by decide : IsAscii ']') gap solid continues
    refine (parseValue_bracket text).trans ((if_neg unclosed).trans (ih stops ?_))
    simp only [surplus] at enough ⊢
    omega
  | lastMember opening characters separator gap _ ends ih =>
    obtain ⟨fuel, rfl⟩ := Nat.exists_eq_add_of_le' (le_trans (Nat.le_add_left 1 _) enough)
    have shorter := length_field opening characters separator gap
    have read := ih (stops_of_space ends rfl) (show 3 * _ + surplus .value ≤ fuel by
      simp only [surplus] at enough ⊢
      omega)
    have more := mark_other (by decide : IsAscii ',') ends rfl (by decide)
    obtain ⟨brace, dropped⟩ := mark_complete (by decide) ends rfl
    refine (parseObjectFields_value opening characters separator gap read).trans ?_
    rw [if_neg more, if_pos brace, dropped]
  | member opening characters separator gap derives ends _ ih more_ih =>
    obtain ⟨fuel, rfl⟩ := Nat.exists_eq_add_of_le' (le_trans (Nat.le_add_left 1 _) enough)
    have shorter := length_field opening characters separator gap
    have behind := length_element derives ends
    have read := ih (stops_of_space ends rfl) (show 3 * _ + surplus .value ≤ fuel by
      simp only [surplus] at enough ⊢
      omega)
    obtain ⟨comma, dropped⟩ := mark_complete (by decide) ends rfl
    refine (parseObjectFields_value opening characters separator gap read).trans ?_
    rw [if_pos comma, dropped]
    refine more_ih stops ?_
    simp only [surplus] at enough ⊢
    omega
  | lastElement gap _ ends ih =>
    obtain ⟨fuel, rfl⟩ := Nat.exists_eq_add_of_le' (le_trans (Nat.le_add_left 1 _) enough)
    have shorter := Takes.length_le space_takes gap
    have read := ih (stops_of_space ends rfl) (show 3 * _ + surplus .value ≤ fuel by
      simp only [surplus] at enough ⊢
      omega)
    have more := mark_other (by decide : IsAscii ',') ends rfl (by decide)
    obtain ⟨bracket, dropped⟩ := mark_complete (by decide) ends rfl
    refine (parseArrayValues_value gap read).trans ?_
    rw [if_neg more, if_pos bracket, dropped]
  | element gap derives ends _ ih more_ih =>
    obtain ⟨fuel, rfl⟩ := Nat.exists_eq_add_of_le' (le_trans (Nat.le_add_left 1 _) enough)
    have shorter := Takes.length_le space_takes gap
    have behind := length_element derives ends
    have read := ih (stops_of_space ends rfl) (show 3 * _ + surplus .value ≤ fuel by
      simp only [surplus] at enough ⊢
      omega)
    obtain ⟨comma, dropped⟩ := mark_complete (by decide) ends rfl
    refine (parseArrayValues_value gap read).trans ?_
    rw [if_pos comma, dropped]
    refine more_ih stops ?_
    simp only [surplus] at enough ⊢
    omega

end Completeness

section Fuel

variable {fuel : ℕ} {text : List Char}

end Fuel

theorem validateJson_iff_text (text : String) :
    validateJson (utf8 text) = .ok () ↔ Text NotSurrogate text.toList := by
  change validateJson (encoded text.toList) = .ok () ↔ _
  rw [validateJson]
  constructor
  · intro accepted
    cases parsed : parseValue (fuelFor (encoded text.toList)) (encoded text.toList) with
    | error error => simp only [parsed, reduceCtorEq] at accepted
    | ok left =>
      simp only [parsed] at accepted
      split_ifs at accepted with ended
      obtain ⟨value, behind, space, rfl, derives⟩ := (readers_sound _).value _ _ parsed
      rw [skipWhitespace_encoded, encoded_eq_nil] at ended
      exact ⟨value, behind, space, derives, ended ▸ space_dropWhile behind⟩
  · rintro ⟨value, behind, space, derives, space'⟩
    have shorter := Takes.length_le space_takes space
    have parsed : parseValue (fuelFor (encoded text.toList)) (encoded text.toList) =
        .ok (encoded behind) := by
      rw [parseValue_space space]
      change reader .value (fuelFor (encoded text.toList)) (encoded value) = _
      refine reader_complete derives (stops_of_space space' rfl) ?_
      simp only [fuelFor, surplus]
      omega
    simp only [parsed]
    rw [if_pos]
    rw [skipWhitespace_encoded, dropWhile_of_space space']
    rfl

/-- The validator agrees with the RFC on every text but those that escape a surrogate. -/
theorem validateJson_iff_rfc (text : String) :
    (validateJson (utf8 text) = .ok () ↔ RfcText text.toList) ↔
      ¬(RfcText text.toList ∧ escapesSurrogate text.toList = true) := by
  rw [validateJson_iff_text, text_notSurrogate_iff]
  cases escapesSurrogate text.toList <;> simp

theorem surrogate_pair_rejected :
    ¬(validateJson (utf8 "\"\\ud83d\\ude00\"") = .ok () ↔
      RfcText "\"\\ud83d\\ude00\"".toList) := by
  have rfc : RfcText "\"\\ud83d\\ude00\"".toList := by
    have high : hexQuad 'd' '8' '3' 'd' = some 0xD83D := by decide
    have low : hexQuad 'd' 'e' '0' '0' = some 0xDE00 := by decide
    exact ⟨_, [], .none, .string (.unicode high trivial (.unicode low trivial .close)), .none⟩
  have rejected : validateJson (utf8 "\"\\ud83d\\ude00\"") = .error "invalid Unicode escape" := by
    decide +kernel
  rw [rejected]
  intro agreed
  cases agreed.mpr rfc

end Boreal.Service
