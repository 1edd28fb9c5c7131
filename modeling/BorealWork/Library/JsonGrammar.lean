/- The grammar of JSON texts, RFC 8259, rule by rule: a rule relates a text to what is left of it once
the rule has taken its part. -/
import Mathlib

namespace JsonGrammar

/-- What a rule takes off the front of a text. -/
abbrev Rule := List Char → List Char → Prop

def isSpace (c : Char) : Bool := c = ' ' || c = '\t' || c = '\n' || c = '\r'

inductive Space : Rule
  | none {text} : Space text text
  | more {c text rest} : isSpace c = true → Space text rest → Space (c :: text) rest

inductive Digits : Rule
  | last {c text} : c.isDigit = true → Digits (c :: text) text
  | more {c text rest} : c.isDigit = true → Digits text rest → Digits (c :: text) rest

inductive Minus : Rule
  | absent {text} : Minus text text
  | present {text} : Minus ('-' :: text) text

inductive Integer : Rule
  | zero {text} : Integer ('0' :: text) text
  | digit {c text} : c.isDigit = true → c ≠ '0' → Integer (c :: text) text
  | digits {c text rest} : c.isDigit = true → c ≠ '0' → Digits text rest → Integer (c :: text) rest

inductive Fraction : Rule
  | absent {text} : Fraction text text
  | present {text rest} : Digits text rest → Fraction ('.' :: text) rest

inductive Sign : Rule
  | absent {text} : Sign text text
  | plus {text} : Sign ('+' :: text) text
  | minus {text} : Sign ('-' :: text) text

inductive Exponent : Rule
  | absent {text} : Exponent text text
  | present {c text digits rest} : c = 'e' ∨ c = 'E' → Sign text digits → Digits digits rest →
      Exponent (c :: text) rest

inductive Number : Rule
  | mk {text integer fraction exponent rest} : Minus text integer → Integer integer fraction →
      Fraction fraction exponent → Exponent exponent rest → Number text rest

def hexValue (c : Char) : Option ℕ :=
  if '0' ≤ c ∧ c ≤ '9' then some (c.toNat - 48)
  else if 'a' ≤ c ∧ c ≤ 'f' then some (c.toNat - 87)
  else if 'A' ≤ c ∧ c ≤ 'F' then some (c.toNat - 55)
  else none

/-- The code unit that four hexadecimal digits spell. -/
def hexQuad (a b c d : Char) : Option ℕ := do
  let a ← hexValue a
  let b ← hexValue b
  let c ← hexValue c
  let d ← hexValue d
  return ((a * 16 + b) * 16 + c) * 16 + d

theorem hexValue_lt {c : Char} {value : ℕ} (digit : hexValue c = some value) : value < 16 := by
  have le {a b : Char} (ordered : a ≤ b) : a.toNat ≤ b.toNat := ordered
  unfold hexValue at digit
  split_ifs at digit with decimal lower upper
  · have most : c.toNat ≤ 57 := le decimal.2
    have := Option.some.inj digit
    omega
  · have most : c.toNat ≤ 102 := le lower.2
    have := Option.some.inj digit
    omega
  · have most : c.toNat ≤ 70 := le upper.2
    have := Option.some.inj digit
    omega

theorem hexQuad_lt {a b c d : Char} {code : ℕ} (quad : hexQuad a b c d = some code) : code < 0x10000 := by
  obtain ⟨w, first, quad⟩ := Option.bind_eq_some_iff.mp quad
  obtain ⟨x, second, quad⟩ := Option.bind_eq_some_iff.mp quad
  obtain ⟨y, third, quad⟩ := Option.bind_eq_some_iff.mp quad
  obtain ⟨z, fourth, quad⟩ := Option.bind_eq_some_iff.mp quad
  have := hexValue_lt first
  have := hexValue_lt second
  have := hexValue_lt third
  have := hexValue_lt fourth
  have := Option.some.inj quad
  omega

/-- The characters that stand for themselves or a control character behind a backslash. -/
def isEscapable (c : Char) : Bool := c ∈ ['"', '\\', '/', 'b', 'f', 'n', 'r', 't']

inductive Characters (allowed : ℕ → Prop) : Rule
  | close {text} : Characters allowed ('"' :: text) text
  | plain {c text rest} : 0x20 ≤ c.toNat → c ≠ '"' → c ≠ '\\' → Characters allowed text rest →
      Characters allowed (c :: text) rest
  | escape {c text rest} : isEscapable c = true → Characters allowed text rest →
      Characters allowed ('\\' :: c :: text) rest
  | unicode {a b c d code text rest} : hexQuad a b c d = some code → allowed code →
      Characters allowed text rest → Characters allowed ('\\' :: 'u' :: a :: b :: c :: d :: text) rest

inductive Symbol
  | value
  | members
  | elements

inductive Derives (allowed : ℕ → Prop) : Symbol → Rule
  | string {text rest} : Characters allowed text rest → Derives allowed .value ('"' :: text) rest
  | number {text rest} : Number text rest → Derives allowed .value text rest
  | true {text} : Derives allowed .value ('t' :: 'r' :: 'u' :: 'e' :: text) text
  | false {text} : Derives allowed .value ('f' :: 'a' :: 'l' :: 's' :: 'e' :: text) text
  | null {text} : Derives allowed .value ('n' :: 'u' :: 'l' :: 'l' :: text) text
  | emptyObject {text rest} : Space text ('}' :: rest) → Derives allowed .value ('{' :: text) rest
  | object {text rest} : Derives allowed .members text rest → Derives allowed .value ('{' :: text) rest
  | emptyArray {text rest} : Space text (']' :: rest) → Derives allowed .value ('[' :: text) rest
  | array {text rest} : Derives allowed .elements text rest → Derives allowed .value ('[' :: text) rest
  | lastMember {text name colon space value behind rest} : Space text ('"' :: name) →
      Characters allowed name colon → Space colon (':' :: space) → Space space value →
      Derives allowed .value value behind → Space behind ('}' :: rest) →
      Derives allowed .members text rest
  | member {text name colon space value behind more rest} : Space text ('"' :: name) →
      Characters allowed name colon → Space colon (':' :: space) → Space space value →
      Derives allowed .value value behind → Space behind (',' :: more) →
      Derives allowed .members more rest → Derives allowed .members text rest
  | lastElement {text value behind rest} : Space text value → Derives allowed .value value behind →
      Space behind (']' :: rest) → Derives allowed .elements text rest
  | element {text value behind more rest} : Space text value → Derives allowed .value value behind →
      Space behind (',' :: more) → Derives allowed .elements more rest →
      Derives allowed .elements text rest

theorem Space.trans {text middle rest : List Char} (first : Space text middle)
    (second : Space middle rest) : Space text rest := by
  induction first with
  | none => exact second
  | more space _ ih => exact .more space (ih second)

theorem Derives.before {allowed : ℕ → Prop} {symbol : Symbol} {text middle rest : List Char}
    (derives : Derives allowed symbol middle rest) (space : Space text middle)
    (spaced : symbol ≠ .value) : Derives allowed symbol text rest := by
  cases derives with
  | lastMember first name colon gap value behind =>
    exact .lastMember (space.trans first) name colon gap value behind
  | member first name colon gap value behind more =>
    exact .member (space.trans first) name colon gap value behind more
  | lastElement first value behind => exact .lastElement (space.trans first) value behind
  | element first value behind more => exact .element (space.trans first) value behind more
  | _ => exact (spaced rfl).elim

def Text (allowed : ℕ → Prop) (text : List Char) : Prop :=
  ∃ value behind, Space text value ∧ Derives allowed .value value behind ∧ Space behind []

/-- The texts of the RFC escape any code unit. -/
def RfcText (text : List Char) : Prop := Text (fun _ => True) text

section Locality

/-- A rule looks at nothing behind the part that it takes, and that part has a property. -/
def Takes (rule : Rule) (P : List Char → Prop) : Prop :=
  ∀ text rest, rule text rest → ∃ taken, text = taken ++ rest ∧ P taken ∧
    ∀ more, rule (taken ++ more) more

/-- The characters of numbers. -/
def isNumeral (c : Char) : Bool := c.isDigit || c ∈ ['-', '+', '.', 'e', 'E']

def Numeric (taken : List Char) : Prop := ∀ c ∈ taken, isNumeral c = true

theorem isNumeral_digit {c : Char} (digit : c.isDigit = true) : isNumeral c = true := by
  rw [isNumeral, digit, Bool.true_or]

theorem Numeric.cons {c : Char} {taken : List Char} (numeral : isNumeral c = true)
    (rest : Numeric taken) : Numeric (c :: taken) :=
  List.forall_mem_cons.mpr ⟨numeral, rest⟩

theorem numeric_nil : Numeric [] := List.forall_mem_nil _

theorem Numeric.append {taken taken' : List Char} (first : Numeric taken) (second : Numeric taken') :
    Numeric (taken ++ taken') :=
  List.forall_mem_append.mpr ⟨first, second⟩

theorem space_takes : Takes Space (fun taken => ∀ c ∈ taken, isSpace c = true) := by
  intro text rest space
  induction space with
  | none => exact ⟨[], rfl, List.forall_mem_nil _, fun _ => .none⟩
  | more c _ ih =>
    obtain ⟨taken, rfl, spaces, shift⟩ := ih
    exact ⟨_ :: taken, rfl, List.forall_mem_cons.mpr ⟨c, spaces⟩, fun more => .more c (shift more)⟩

theorem digits_takes : Takes Digits Numeric := by
  intro text rest digits
  induction digits with
  | last c => exact ⟨[_], rfl, numeric_nil.cons (isNumeral_digit c), fun _ => .last c⟩
  | more c _ ih =>
    obtain ⟨taken, rfl, numeric, shift⟩ := ih
    exact ⟨_ :: taken, rfl, numeric.cons (isNumeral_digit c), fun more => .more c (shift more)⟩

theorem minus_takes : Takes Minus Numeric := by
  intro text rest minus
  cases minus with
  | absent => exact ⟨[], rfl, numeric_nil, fun _ => .absent⟩
  | present => exact ⟨['-'], rfl, numeric_nil.cons rfl, fun _ => .present⟩

theorem integer_takes : Takes Integer (fun taken => taken ≠ [] ∧ Numeric taken) := by
  intro text rest integer
  cases integer with
  | zero => exact ⟨['0'], rfl, ⟨nofun, numeric_nil.cons rfl⟩, fun _ => .zero⟩
  | digit c nonzero =>
    exact ⟨[_], rfl, ⟨nofun, numeric_nil.cons (isNumeral_digit c)⟩, fun _ => .digit c nonzero⟩
  | digits c nonzero digits =>
    obtain ⟨taken, rfl, numeric, shift⟩ := digits_takes _ _ digits
    exact ⟨_ :: taken, rfl, ⟨nofun, numeric.cons (isNumeral_digit c)⟩,
      fun more => .digits c nonzero (shift more)⟩

theorem fraction_takes : Takes Fraction Numeric := by
  intro text rest fraction
  cases fraction with
  | absent => exact ⟨[], rfl, numeric_nil, fun _ => .absent⟩
  | present digits =>
    obtain ⟨taken, rfl, numeric, shift⟩ := digits_takes _ _ digits
    exact ⟨'.' :: taken, rfl, numeric.cons rfl, fun more => .present (shift more)⟩

theorem sign_takes : Takes Sign Numeric := by
  intro text rest sign
  cases sign with
  | absent => exact ⟨[], rfl, numeric_nil, fun _ => .absent⟩
  | plus => exact ⟨['+'], rfl, numeric_nil.cons rfl, fun _ => .plus⟩
  | minus => exact ⟨['-'], rfl, numeric_nil.cons rfl, fun _ => .minus⟩

theorem exponent_takes : Takes Exponent Numeric := by
  intro text rest exponent
  cases exponent with
  | absent => exact ⟨[], rfl, numeric_nil, fun _ => .absent⟩
  | present letter sign digits =>
    obtain ⟨taken, rfl, numeric, shift⟩ := sign_takes _ _ sign
    obtain ⟨taken', rfl, numeric', shift'⟩ := digits_takes _ _ digits
    refine ⟨_ :: (taken ++ taken'), by rw [List.cons_append, List.append_assoc],
      (numeric.append numeric').cons ?_, ?_⟩
    · rcases letter with rfl | rfl <;> rfl
    · intro more
      rw [List.cons_append, List.append_assoc]
      exact .present letter (shift _) (shift' more)

theorem number_takes : Takes Number (fun taken => taken ≠ [] ∧ Numeric taken) := by
  rintro text rest ⟨minus, integer, fraction, exponent⟩
  obtain ⟨sign, rfl, signNumeric, signShift⟩ := minus_takes _ _ minus
  obtain ⟨digits, rfl, ⟨some, digitsNumeric⟩, digitsShift⟩ := integer_takes _ _ integer
  obtain ⟨part, rfl, partNumeric, partShift⟩ := fraction_takes _ _ fraction
  obtain ⟨power, rfl, powerNumeric, powerShift⟩ := exponent_takes _ _ exponent
  refine ⟨sign ++ (digits ++ (part ++ power)), by simp only [List.append_assoc], ⟨?_, ?_⟩, ?_⟩
  · simp [some]
  · exact signNumeric.append (digitsNumeric.append (partNumeric.append powerNumeric))
  · intro more
    simp only [List.append_assoc]
    exact .mk (signShift _) (digitsShift _) (partShift _) (powerShift _)

variable {allowed : ℕ → Prop}

def EndsSolid (taken : List Char) : Prop := ∃ front c, taken = front ++ [c] ∧ isSpace c = false

theorem EndsSolid.cons {taken : List Char} (solid : EndsSolid taken) (c : Char) :
    EndsSolid (c :: taken) := by
  obtain ⟨front, last, rfl, solid⟩ := solid
  exact ⟨c :: front, last, rfl, solid⟩

theorem EndsSolid.append {taken : List Char} (solid : EndsSolid taken) (before : List Char) :
    EndsSolid (before ++ taken) := by
  obtain ⟨front, last, rfl, solid⟩ := solid
  exact ⟨before ++ front, last, by rw [List.append_assoc], solid⟩

theorem isSpace_of_isNumeral {c : Char} (numeral : isNumeral c = true) : isSpace c = false := by
  cases space : isSpace c with
  | false => rfl
  | true =>
    simp only [isSpace, Bool.or_eq_true, decide_eq_true_eq] at space
    rcases space with ((rfl | rfl) | rfl) | rfl <;> revert numeral <;> decide

theorem endsSolid_of_numeric {taken : List Char} (some : taken ≠ []) (numeric : Numeric taken) :
    EndsSolid taken := by
  rcases List.eq_nil_or_concat' taken with rfl | ⟨front, c, rfl⟩
  · exact (some rfl).elim
  · exact ⟨front, c, rfl, isSpace_of_isNumeral (numeric c (by simp))⟩

theorem characters_takes : Takes (Characters allowed) EndsSolid := by
  intro text rest characters
  induction characters with
  | close => exact ⟨['"'], rfl, ⟨[], '"', rfl, rfl⟩, fun _ => .close⟩
  | plain visible notQuote notEscape _ ih =>
    obtain ⟨taken, rfl, solid, shift⟩ := ih
    exact ⟨_ :: taken, rfl, solid.cons _, fun more => .plain visible notQuote notEscape (shift more)⟩
  | escape escapable _ ih =>
    obtain ⟨taken, rfl, solid, shift⟩ := ih
    exact ⟨_ :: _ :: taken, rfl, (solid.cons _).cons _, fun more => .escape escapable (shift more)⟩
  | unicode code fine _ ih =>
    obtain ⟨taken, rfl, solid, shift⟩ := ih
    exact ⟨_ :: _ :: _ :: _ :: _ :: _ :: taken, rfl,
      (((((solid.cons _).cons _).cons _).cons _).cons _).cons _,
      fun more => .unicode code fine (shift more)⟩

theorem space_solid {text rest : List Char} {c : Char} (space : Space text (c :: rest))
    (solid : isSpace c = false) :
    ∃ taken, text = taken ++ rest ∧ EndsSolid taken ∧ ∀ more, Space (taken ++ more) (c :: more) := by
  obtain ⟨taken, rfl, -, shift⟩ := space_takes _ _ space
  refine ⟨taken ++ [c], by rw [List.append_assoc, List.singleton_append], ⟨taken, c, rfl, solid⟩, ?_⟩
  intro more
  rw [List.append_assoc, List.singleton_append]
  exact shift (c :: more)

theorem derives_takes (symbol : Symbol) : Takes (Derives allowed symbol) EndsSolid := by
  intro text rest derives
  induction derives with
  | string characters =>
    obtain ⟨taken, rfl, solid, shift⟩ := characters_takes _ _ characters
    exact ⟨'"' :: taken, rfl, solid.cons _, fun more => .string (shift more)⟩
  | number number =>
    obtain ⟨taken, rfl, ⟨some, numeric⟩, shift⟩ := number_takes _ _ number
    exact ⟨taken, rfl, endsSolid_of_numeric some numeric, fun more => .number (shift more)⟩
  | true => exact ⟨['t', 'r', 'u', 'e'], rfl, ⟨['t', 'r', 'u'], 'e', rfl, rfl⟩, fun _ => .true⟩
  | false =>
    exact ⟨['f', 'a', 'l', 's', 'e'], rfl, ⟨['f', 'a', 'l', 's'], 'e', rfl, rfl⟩, fun _ => .false⟩
  | null => exact ⟨['n', 'u', 'l', 'l'], rfl, ⟨['n', 'u', 'l'], 'l', rfl, rfl⟩, fun _ => .null⟩
  | emptyObject space =>
    obtain ⟨taken, rfl, solid, shift⟩ := space_solid space rfl
    exact ⟨'{' :: taken, rfl, solid.cons _, fun more => .emptyObject (shift more)⟩
  | object _ ih =>
    obtain ⟨taken, rfl, solid, shift⟩ := ih
    exact ⟨'{' :: taken, rfl, solid.cons _, fun more => .object (shift more)⟩
  | emptyArray space =>
    obtain ⟨taken, rfl, solid, shift⟩ := space_solid space rfl
    exact ⟨'[' :: taken, rfl, solid.cons _, fun more => .emptyArray (shift more)⟩
  | array _ ih =>
    obtain ⟨taken, rfl, solid, shift⟩ := ih
    exact ⟨'[' :: taken, rfl, solid.cons _, fun more => .array (shift more)⟩
  | lastMember space characters colon space' _ behind ih =>
    obtain ⟨opening, rfl, -, shift₁⟩ := space_solid space rfl
    obtain ⟨name, rfl, -, shift₂⟩ := characters_takes _ _ characters
    obtain ⟨separator, rfl, -, shift₃⟩ := space_solid colon rfl
    obtain ⟨gap, rfl, -, shift₄⟩ := space_takes _ _ space'
    obtain ⟨value, rfl, -, shift₅⟩ := ih
    obtain ⟨brace, rfl, solid, shift₆⟩ := space_solid behind rfl
    refine ⟨opening ++ (name ++ (separator ++ (gap ++ (value ++ brace)))), by
      simp only [List.append_assoc], ((((solid.append _).append _).append _).append _).append _, ?_⟩
    intro more
    simp only [List.append_assoc]
    exact .lastMember (shift₁ _) (shift₂ _) (shift₃ _) (shift₄ _) (shift₅ _) (shift₆ _)
  | member space characters colon space' _ behind _ ih more_ih =>
    obtain ⟨opening, rfl, -, shift₁⟩ := space_solid space rfl
    obtain ⟨name, rfl, -, shift₂⟩ := characters_takes _ _ characters
    obtain ⟨separator, rfl, -, shift₃⟩ := space_solid colon rfl
    obtain ⟨gap, rfl, -, shift₄⟩ := space_takes _ _ space'
    obtain ⟨value, rfl, -, shift₅⟩ := ih
    obtain ⟨comma, rfl, -, shift₆⟩ := space_solid behind rfl
    obtain ⟨others, rfl, solid, shift₇⟩ := more_ih
    refine ⟨opening ++ (name ++ (separator ++ (gap ++ (value ++ (comma ++ others))))), by
      simp only [List.append_assoc],
      (((((solid.append _).append _).append _).append _).append _).append _, ?_⟩
    intro more
    simp only [List.append_assoc]
    exact .member (shift₁ _) (shift₂ _) (shift₃ _) (shift₄ _) (shift₅ _) (shift₆ _) (shift₇ _)
  | lastElement space _ behind ih =>
    obtain ⟨gap, rfl, -, shift₁⟩ := space_takes _ _ space
    obtain ⟨value, rfl, -, shift₂⟩ := ih
    obtain ⟨bracket, rfl, solid, shift₃⟩ := space_solid behind rfl
    refine ⟨gap ++ (value ++ bracket), by simp only [List.append_assoc],
      (solid.append _).append _, ?_⟩
    intro more
    simp only [List.append_assoc]
    exact .lastElement (shift₁ _) (shift₂ _) (shift₃ _)
  | element space _ behind _ ih more_ih =>
    obtain ⟨gap, rfl, -, shift₁⟩ := space_takes _ _ space
    obtain ⟨value, rfl, -, shift₂⟩ := ih
    obtain ⟨comma, rfl, -, shift₃⟩ := space_solid behind rfl
    obtain ⟨others, rfl, solid, shift₄⟩ := more_ih
    refine ⟨gap ++ (value ++ (comma ++ others)), by simp only [List.append_assoc],
      ((solid.append _).append _).append _, ?_⟩
    intro more
    simp only [List.append_assoc]
    exact .element (shift₁ _) (shift₂ _) (shift₃ _) (shift₄ _)

end Locality

/-- Nothing that a number could go on with. -/
def Stops (text : List Char) : Prop := text.head?.any isNumeral = false

theorem space_dropWhile (text : List Char) : Space text (text.dropWhile isSpace) := by
  induction text with
  | nil => exact .none
  | cons c text ih =>
    cases space : isSpace c with
    | true =>
      rw [List.dropWhile_cons_of_pos space]
      exact .more space ih
    | false =>
      rw [List.dropWhile_cons_of_neg (by simp [space])]
      exact .none

theorem dropWhile_of_space {text rest : List Char} (space : Space text rest) :
    text.dropWhile isSpace = rest.dropWhile isSpace := by
  induction space with
  | none => rfl
  | more found _ ih => rw [List.dropWhile_cons_of_pos found, ih]

theorem dropWhile_solid {text rest : List Char} {c : Char} (space : Space text (c :: rest))
    (solid : isSpace c = false) : text.dropWhile isSpace = c :: rest := by
  rw [dropWhile_of_space space, List.dropWhile_cons_of_neg (by simp [solid])]

theorem digits_dropWhile {text : List Char} (some : text.head?.any Char.isDigit = true) :
    Digits text (text.dropWhile Char.isDigit) := by
  induction text with
  | nil => cases some
  | cons c text ih =>
    have digit : c.isDigit = true := some
    rw [List.dropWhile_cons_of_pos digit]
    cases more : text.head?.any Char.isDigit with
    | true => exact .more digit (ih more)
    | false =>
      cases text with
      | nil => exact .last digit
      | cons d text =>
        have other : d.isDigit = false := more
        rw [List.dropWhile_cons_of_neg (by simp [other])]
        exact .last digit

theorem digits_head {text rest : List Char} (digits : Digits text rest) :
    text.head?.any Char.isDigit = true := by
  cases digits with
  | last digit => exact digit
  | more digit _ => exact digit

theorem dropWhile_of_digits {text rest : List Char} (digits : Digits text rest)
    (ended : rest.head?.any Char.isDigit = false) : text.dropWhile Char.isDigit = rest := by
  induction digits with
  | @last c behind digit =>
    rw [List.dropWhile_cons_of_pos digit]
    cases behind with
    | nil => rfl
    | cons d behind => exact List.dropWhile_cons_of_neg (Bool.eq_false_iff.mp ended)
  | more digit _ ih => rw [List.dropWhile_cons_of_pos digit, ih ended]

theorem Stops.not_digit {text : List Char} (stops : Stops text) : text.head?.any Char.isDigit = false := by
  cases text with
  | nil => rfl
  | cons c text =>
    cases digit : c.isDigit with
    | false => exact digit
    | true =>
      have numeral : isNumeral c = false := stops
      rw [isNumeral_digit digit] at numeral
      cases numeral

theorem Stops.head_ne {text : List Char} (stops : Stops text) {c : Char}
    (numeral : isNumeral c = true) : text.head? ≠ some c := by
  cases text with
  | nil => nofun
  | cons d text =>
    intro same
    obtain rfl : d = c := Option.some.inj same
    have stopped : isNumeral d = false := stops
    rw [numeral] at stopped
    cases stopped

theorem stops_of_space {text rest : List Char} (space : Space text rest) (stops : Stops rest) :
    Stops text := by
  cases space with
  | none => exact stops
  | more found _ =>
    cases numeral : isNumeral _ with
    | false => exact numeral
    | true =>
      rw [isSpace_of_isNumeral numeral] at found
      cases found

theorem fraction_exponent_head {text middle rest : List Char} (fraction : Fraction text middle)
    (exponent : Exponent middle rest) (stops : Stops rest) :
    text.head?.any Char.isDigit = false ∧ middle.head?.any Char.isDigit = false ∧
      middle.head? ≠ some '.' := by
  have behind : middle.head?.any Char.isDigit = false ∧ middle.head? ≠ some '.' := by
    cases exponent with
    | absent => exact ⟨stops.not_digit, stops.head_ne rfl⟩
    | present letter _ _ => rcases letter with rfl | rfl <;> exact ⟨rfl, nofun⟩
  refine ⟨?_, behind⟩
  cases fraction with
  | absent => exact behind.1
  | present _ => rfl

theorem integer_head {text rest : List Char} (integer : Integer text rest) :
    ∃ c, text.head? = some c ∧ c.isDigit = true := by
  cases integer with
  | zero => exact ⟨_, rfl, rfl⟩
  | digit digit _ => exact ⟨_, rfl, digit⟩
  | digits digit _ _ => exact ⟨_, rfl, digit⟩

theorem number_head {text rest : List Char} (number : Number text rest) :
    ∃ c, text.head? = some c ∧ (c = '-' ∨ c.isDigit = true) := by
  obtain ⟨minus, integer, -, -⟩ := number
  cases minus with
  | present => exact ⟨_, rfl, .inl rfl⟩
  | absent =>
    obtain ⟨c, head, digit⟩ := integer_head integer
    exact ⟨c, head, .inr digit⟩

theorem value_head {allowed : ℕ → Prop} {text rest : List Char}
    (derives : Derives allowed .value text rest) :
    ∃ c behind, text = c :: behind ∧ isSpace c = false ∧ c ≠ ']' := by
  cases derives with
  | number number =>
    obtain ⟨c, head, mark⟩ := number_head number
    obtain ⟨behind, rfl⟩ := List.head?_eq_some_iff.mp head
    have numeral : isNumeral c = true := by
      rcases mark with rfl | digit
      · rfl
      · exact isNumeral_digit digit
    refine ⟨c, behind, rfl, isSpace_of_isNumeral numeral, ?_⟩
    rintro rfl
    cases numeral
  | _ => exact ⟨_, _, rfl, rfl, by decide⟩

theorem members_head {allowed : ℕ → Prop} {text rest : List Char}
    (derives : Derives allowed .members text rest) : ∃ name, Space text ('"' :: name) := by
  cases derives with
  | lastMember opening _ _ _ _ _ => exact ⟨_, opening⟩
  | member opening _ _ _ _ _ _ => exact ⟨_, opening⟩

theorem elements_head {allowed : ℕ → Prop} {text rest : List Char}
    (derives : Derives allowed .elements text rest) :
    ∃ c behind, Space text (c :: behind) ∧ isSpace c = false ∧ c ≠ ']' := by
  cases derives with
  | lastElement gap value _ | element gap value _ _ =>
    obtain ⟨c, behind, rfl, solid, continues⟩ := value_head value
    exact ⟨c, behind, gap, solid, continues⟩

section Trimming

def trim (text : List Char) : List Char :=
  ((text.dropWhile isSpace).reverse.dropWhile isSpace).reverse

variable {allowed : ℕ → Prop}

def IsValue (allowed : ℕ → Prop) (text : List Char) : Prop := Derives allowed .value text []

theorem space_append {spaces : List Char} (all : ∀ c ∈ spaces, isSpace c = true) (rest : List Char) :
    Space (spaces ++ rest) rest := by
  induction spaces with
  | nil => exact .none
  | cons c spaces ih =>
    obtain ⟨first, others⟩ := List.forall_mem_cons.mp all
    exact .more first (ih others)

theorem IsValue.text {text : List Char} (value : IsValue allowed text) : Text allowed text :=
  ⟨text, [], .none, value, .none⟩

theorem IsValue.before {text : List Char} (value : IsValue allowed text) (more : List Char) :
    Derives allowed .value (text ++ more) more := by
  obtain ⟨taken, same, -, shift⟩ := derives_takes _ _ _ value
  rw [same, List.append_nil]
  exact shift more

theorem IsValue.dropWhile_append {text : List Char} (value : IsValue allowed text)
    (more : List Char) : (text ++ more).dropWhile isSpace = text ++ more := by
  obtain ⟨c, behind, rfl, solid, -⟩ := value_head value
  exact List.dropWhile_cons_of_neg (by simp [solid])

theorem text_trim {text : List Char} (whole : Text allowed text) :
    ∃ front back, text = front ++ (trim text ++ back) ∧ (∀ c ∈ front, isSpace c = true) ∧
      (∀ c ∈ back, isSpace c = true) ∧ IsValue allowed (trim text) := by
  obtain ⟨value, behind, space, derives, space'⟩ := whole
  have skipped := dropWhile_of_space space
  obtain ⟨c, rest, head, solid, -⟩ := value_head derives
  rw [head, List.dropWhile_cons_of_neg (by simp [solid]), ← head] at skipped
  obtain ⟨front, rfl, spaces, -⟩ := space_takes _ _ space
  obtain ⟨back, rfl, spaces', -⟩ := space_takes _ _ space'
  obtain ⟨taken, rfl, ⟨start, last, rfl, solid'⟩, shift⟩ := derives_takes _ _ _ derives
  have all : ∀ c ∈ back.reverse, isSpace c = true := fun c member =>
    spaces' c (List.mem_reverse.mp member)
  have trimmed : trim (front ++ (start ++ [last] ++ (back ++ []))) = start ++ [last] := by
    rw [trim, skipped, List.append_nil, List.reverse_append, List.dropWhile_append_of_pos all,
      List.reverse_append, List.reverse_singleton, List.singleton_append,
      List.dropWhile_cons_of_neg (by simp [solid']), List.reverse_cons, List.reverse_reverse]
  rw [trimmed]
  refine ⟨front, back, by rw [List.append_nil], spaces, spaces', ?_⟩
  have alone := shift []
  rwa [List.append_nil] at alone

theorem IsValue.trim_eq {text : List Char} (value : IsValue allowed text) : trim text = text := by
  have skipped := value.dropWhile_append []
  rw [List.append_nil] at skipped
  obtain ⟨taken, same, ⟨start, last, rfl, solid⟩, -⟩ := derives_takes _ _ _ value
  rw [List.append_nil] at same
  rw [trim, skipped, same, List.reverse_append, List.reverse_singleton, List.singleton_append,
    List.dropWhile_cons_of_neg (by simp [solid]), List.reverse_cons, List.reverse_reverse]

theorem text_before {text : List Char} (whole : Text allowed text) (more : List Char) :
    ∃ behind, Space (text ++ more) (trim text ++ behind) ∧
      Derives allowed .value (trim text ++ behind) behind ∧ Space behind more := by
  obtain ⟨front, back, same, spaces, spaces', value⟩ := text_trim whole
  refine ⟨back ++ more, ?_, value.before _, space_append spaces' more⟩
  have space := space_append spaces (trim text ++ (back ++ more))
  rwa [← List.append_assoc (trim text), ← List.append_assoc front, ← same,
    List.append_assoc (trim text)] at space

end Trimming

section Surrogates

variable {allowed : ℕ → Prop}

def isSurrogate (code : ℕ) : Bool := 0xD800 ≤ code && code ≤ 0xDFFF

def NotSurrogate (code : ℕ) : Prop := isSurrogate code = false

/-- A text has an escape of a surrogate code unit. Outside of strings there are no backslashes. -/
def escapesSurrogate : List Char → Bool
  | '\\' :: 'u' :: a :: b :: c :: d :: text =>
    (hexQuad a b c d).any isSurrogate || escapesSurrogate text
  | '\\' :: _ :: text => escapesSurrogate text
  | _ :: text => escapesSurrogate text
  | [] => false

theorem escapesSurrogate_plain {c : Char} (plain : c ≠ '\\') (text : List Char) :
    escapesSurrogate (c :: text) = escapesSurrogate text := by
  rw [escapesSurrogate.eq_3]
  · rintro a b x d text rfl
    exact (plain rfl).elim
  · rintro x text rfl
    exact (plain rfl).elim

theorem escapesSurrogate_escape {c : Char} (escapable : isEscapable c = true) (text : List Char) :
    escapesSurrogate ('\\' :: c :: text) = escapesSurrogate text := by
  rw [escapesSurrogate.eq_2]
  rintro a b x d text rfl
  exact (Bool.false_ne_true escapable).elim

theorem escapesSurrogate_unicode {a b c d : Char} {code : ℕ} (quad : hexQuad a b c d = some code)
    (text : List Char) : escapesSurrogate ('\\' :: 'u' :: a :: b :: c :: d :: text) =
      (isSurrogate code || escapesSurrogate text) := by
  rw [escapesSurrogate.eq_1, quad]
  rfl

theorem escapesSurrogate_append {taken : List Char} (plain : ∀ c ∈ taken, c ≠ '\\')
    (text : List Char) : escapesSurrogate (taken ++ text) = escapesSurrogate text := by
  induction taken with
  | nil => rfl
  | cons c taken ih =>
    obtain ⟨first, rest⟩ := List.forall_mem_cons.mp plain
    rw [List.cons_append, escapesSurrogate_plain first, ih rest]

theorem escapesSurrogate_space {text rest : List Char} (space : Space text rest) :
    escapesSurrogate text = escapesSurrogate rest := by
  obtain ⟨taken, rfl, spaces, -⟩ := space_takes _ _ space
  apply escapesSurrogate_append
  rintro c member rfl
  exact Bool.false_ne_true (spaces _ member)

theorem escapesSurrogate_solid {text rest : List Char} {c : Char} (space : Space text (c :: rest))
    (plain : c ≠ '\\') : escapesSurrogate text = escapesSurrogate rest := by
  rw [escapesSurrogate_space space, escapesSurrogate_plain plain]

theorem escapesSurrogate_number {text rest : List Char} (number : Number text rest) :
    escapesSurrogate text = escapesSurrogate rest := by
  obtain ⟨taken, rfl, ⟨-, numeric⟩, -⟩ := number_takes _ _ number
  apply escapesSurrogate_append
  rintro c member rfl
  exact Bool.false_ne_true (numeric _ member)

theorem escapesSurrogate_characters {text rest : List Char}
    (characters : Characters NotSurrogate text rest) : escapesSurrogate text = escapesSurrogate rest := by
  induction characters with
  | close => exact escapesSurrogate_plain (by decide) _
  | plain _ _ notEscape _ ih => rw [escapesSurrogate_plain notEscape, ih]
  | escape escapable _ ih => rw [escapesSurrogate_escape escapable, ih]
  | unicode quad fine _ ih => rw [escapesSurrogate_unicode quad, fine, Bool.false_or, ih]

theorem escapesSurrogate_derives {symbol : Symbol} {text rest : List Char}
    (derives : Derives NotSurrogate symbol text rest) : escapesSurrogate text = escapesSurrogate rest := by
  induction derives with
  | string characters =>
    rw [escapesSurrogate_plain (by decide), escapesSurrogate_characters characters]
  | number number => exact escapesSurrogate_number number
  | true =>
    rw [escapesSurrogate_plain (by decide), escapesSurrogate_plain (by decide),
      escapesSurrogate_plain (by decide), escapesSurrogate_plain (by decide)]
  | false =>
    rw [escapesSurrogate_plain (by decide), escapesSurrogate_plain (by decide),
      escapesSurrogate_plain (by decide), escapesSurrogate_plain (by decide),
      escapesSurrogate_plain (by decide)]
  | null =>
    rw [escapesSurrogate_plain (by decide), escapesSurrogate_plain (by decide),
      escapesSurrogate_plain (by decide), escapesSurrogate_plain (by decide)]
  | emptyObject space =>
    rw [escapesSurrogate_plain (by decide), escapesSurrogate_solid space (by decide)]
  | object _ ih => rw [escapesSurrogate_plain (by decide), ih]
  | emptyArray space =>
    rw [escapesSurrogate_plain (by decide), escapesSurrogate_solid space (by decide)]
  | array _ ih => rw [escapesSurrogate_plain (by decide), ih]
  | lastMember space characters colon space' _ behind ih =>
    rw [escapesSurrogate_solid space (by decide), escapesSurrogate_characters characters,
      escapesSurrogate_solid colon (by decide), escapesSurrogate_space space', ih,
      escapesSurrogate_solid behind (by decide)]
  | member space characters colon space' _ behind _ ih more_ih =>
    rw [escapesSurrogate_solid space (by decide), escapesSurrogate_characters characters,
      escapesSurrogate_solid colon (by decide), escapesSurrogate_space space', ih,
      escapesSurrogate_solid behind (by decide), more_ih]
  | lastElement space _ behind ih =>
    rw [escapesSurrogate_space space, ih, escapesSurrogate_solid behind (by decide)]
  | element space _ behind _ ih more_ih =>
    rw [escapesSurrogate_space space, ih, escapesSurrogate_solid behind (by decide), more_ih]

theorem characters_split {text rest : List Char} (characters : Characters allowed text rest) :
    escapesSurrogate text = true ∨ Characters NotSurrogate text rest := by
  induction characters with
  | close => exact .inr .close
  | plain visible notQuote notEscape _ ih =>
    rw [escapesSurrogate_plain notEscape]
    exact ih.imp_right (.plain visible notQuote notEscape)
  | escape escapable _ ih =>
    rw [escapesSurrogate_escape escapable]
    exact ih.imp_right (.escape escapable)
  | @unicode a b c d code text rest quad _ _ ih =>
    rw [escapesSurrogate_unicode quad]
    cases surrogate : isSurrogate code with
    | true => exact .inl rfl
    | false => exact ih.imp_right (.unicode quad surrogate)

theorem derives_split {symbol : Symbol} {text rest : List Char}
    (derives : Derives allowed symbol text rest) :
    escapesSurrogate text = true ∨ Derives NotSurrogate symbol text rest := by
  induction derives with
  | string characters =>
    rw [escapesSurrogate_plain (by decide)]
    exact (characters_split characters).imp_right .string
  | number number => exact .inr (.number number)
  | true => exact .inr .true
  | false => exact .inr .false
  | null => exact .inr .null
  | emptyObject space => exact .inr (.emptyObject space)
  | object _ ih =>
    rw [escapesSurrogate_plain (by decide)]
    exact ih.imp_right .object
  | emptyArray space => exact .inr (.emptyArray space)
  | array _ ih =>
    rw [escapesSurrogate_plain (by decide)]
    exact ih.imp_right .array
  | lastMember space characters colon space' _ behind ih =>
    rw [escapesSurrogate_solid space (by decide)]
    rcases characters_split characters with escapes | name
    · exact .inl escapes
    · rw [escapesSurrogate_characters name, escapesSurrogate_solid colon (by decide),
        escapesSurrogate_space space']
      exact ih.imp_right (.lastMember space name colon space' · behind)
  | member space characters colon space' _ behind _ ih more_ih =>
    rw [escapesSurrogate_solid space (by decide)]
    rcases characters_split characters with escapes | name
    · exact .inl escapes
    · rw [escapesSurrogate_characters name, escapesSurrogate_solid colon (by decide),
        escapesSurrogate_space space']
      rcases ih with escapes | value
      · exact .inl escapes
      · rw [escapesSurrogate_derives value, escapesSurrogate_solid behind (by decide)]
        exact more_ih.imp_right (.member space name colon space' value behind)
  | lastElement space _ behind ih =>
    rw [escapesSurrogate_space space]
    exact ih.imp_right (.lastElement space · behind)
  | element space _ behind _ ih more_ih =>
    rw [escapesSurrogate_space space]
    rcases ih with escapes | value
    · exact .inl escapes
    · rw [escapesSurrogate_derives value, escapesSurrogate_solid behind (by decide)]
      exact more_ih.imp_right (.element space value behind)

theorem Characters.mono {allowed' : ℕ → Prop} (weaker : ∀ code, allowed code → allowed' code)
    {text rest : List Char} (characters : Characters allowed text rest) :
    Characters allowed' text rest := by
  induction characters with
  | close => exact .close
  | plain visible notQuote notEscape _ ih => exact .plain visible notQuote notEscape ih
  | escape escapable _ ih => exact .escape escapable ih
  | unicode quad fine _ ih => exact .unicode quad (weaker _ fine) ih

theorem Derives.mono {allowed' : ℕ → Prop} (weaker : ∀ code, allowed code → allowed' code)
    {symbol : Symbol} {text rest : List Char} (derives : Derives allowed symbol text rest) :
    Derives allowed' symbol text rest := by
  induction derives with
  | string characters => exact .string (characters.mono weaker)
  | number number => exact .number number
  | true => exact .true
  | false => exact .false
  | null => exact .null
  | emptyObject space => exact .emptyObject space
  | object _ ih => exact .object ih
  | emptyArray space => exact .emptyArray space
  | array _ ih => exact .array ih
  | lastMember space characters colon space' _ behind ih =>
    exact .lastMember space (characters.mono weaker) colon space' ih behind
  | member space characters colon space' _ behind _ ih more_ih =>
    exact .member space (characters.mono weaker) colon space' ih behind more_ih
  | lastElement space _ behind ih => exact .lastElement space ih behind
  | element space _ behind _ ih more_ih => exact .element space ih behind more_ih

theorem text_notSurrogate_iff {text : List Char} :
    Text NotSurrogate text ↔ RfcText text ∧ escapesSurrogate text = false := by
  constructor
  · rintro ⟨value, behind, space, derives, space'⟩
    refine ⟨⟨value, behind, space, derives.mono (fun _ _ => trivial), space'⟩, ?_⟩
    rw [escapesSurrogate_space space, escapesSurrogate_derives derives, escapesSurrogate_space space']
    rfl
  · rintro ⟨⟨value, behind, space, derives, space'⟩, none⟩
    rcases derives_split derives with escapes | derives
    · rw [← escapesSurrogate_space space, none] at escapes
      cases escapes
    · exact ⟨value, behind, space, derives, space'⟩

end Surrogates

end JsonGrammar
