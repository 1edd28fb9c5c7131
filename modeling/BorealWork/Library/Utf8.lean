/- Texts in UTF-8, taken byte by byte: an ASCII byte is a character of its own, and the bytes of the
other characters are never ASCII. -/
import Mathlib

namespace Utf8

def encoded (text : List Char) : List UInt8 := text.flatMap String.utf8EncodeChar

@[simp]
theorem encoded_nil : encoded [] = [] := rfl

@[simp]
theorem encoded_cons (c : Char) (text : List Char) :
    encoded (c :: text) = String.utf8EncodeChar c ++ encoded text := rfl

theorem encoded_append (text more : List Char) :
    encoded (text ++ more) = encoded text ++ encoded more := List.flatMap_append

def IsAscii (c : Char) : Prop := c.toNat < 128

instance (c : Char) : Decidable (IsAscii c) := inferInstanceAs (Decidable (c.toNat < 128))

theorem encode_ascii {c : Char} (ascii : IsAscii c) : String.utf8EncodeChar c = [c.toUInt8] := by
  have low : c.val.toNat ≤ 127 := Nat.le_of_lt_succ ascii
  unfold String.utf8EncodeChar
  exact if_pos low

theorem encode_wide {c : Char} (wide : ¬ IsAscii c) :
    ∀ byte ∈ String.utf8EncodeChar c, 128 ≤ byte.toNat := by
  have high : ¬ c.val.toNat ≤ 127 := fun low => wide (Nat.lt_succ_of_le low)
  intro byte member
  have lead : ∀ n : ℕ, 128 ≤ n → n < 256 → 128 ≤ (UInt8.ofNat n).toNat := fun n least most => by
    rwa [UInt8.toNat_ofNat', Nat.mod_eq_of_lt most]
  unfold String.utf8EncodeChar at member
  replace member := (if_neg high ▸ member :)
  split_ifs at member with two three <;>
    simp only [List.mem_cons, List.not_mem_nil, or_false] at member
  · rcases member with rfl | rfl <;> apply lead <;> omega
  · rcases member with rfl | rfl | rfl <;> apply lead <;> omega
  · rcases member with rfl | rfl | rfl | rfl <;> apply lead <;> omega

theorem toNat_toUInt8 {c : Char} (ascii : IsAscii c) : c.toUInt8.toNat = c.toNat := by
  have low : c.toNat < 128 := ascii
  rw [Char.toUInt8, UInt32.toNat_toUInt8]
  exact Nat.mod_eq_of_lt (lt_trans low (by decide))

theorem toUInt8_inj {c d : Char} (ascii : IsAscii c) (ascii' : IsAscii d) :
    c.toUInt8 = d.toUInt8 ↔ c = d := by
  constructor
  · intro same
    apply Char.toNat_inj.mp
    rw [← toNat_toUInt8 ascii, ← toNat_toUInt8 ascii', same]
  · rintro rfl
    rfl

theorem encoded_ascii {c : Char} (ascii : IsAscii c) (text : List Char) :
    encoded (c :: text) = c.toUInt8 :: encoded text := by
  rw [encoded_cons, encode_ascii ascii]
  rfl

theorem encoded_wide {c : Char} (wide : ¬ IsAscii c) (text : List Char) :
    ∃ byte rest, encoded (c :: text) = byte :: rest ∧ 128 ≤ byte.toNat := by
  cases bytes : String.utf8EncodeChar c with
  | nil => exact (String.utf8EncodeChar_ne_nil bytes).elim
  | cons byte rest =>
    refine ⟨byte, rest ++ encoded text, by rw [encoded_cons, bytes]; rfl, ?_⟩
    exact encode_wide wide byte (bytes ▸ List.mem_cons_self)

theorem eq_cons_of_encoded {text : List Char} {byte : UInt8} {rest : List UInt8}
    (starts : encoded text = byte :: rest) (low : byte.toNat < 128) :
    ∃ c behind, text = c :: behind ∧ IsAscii c ∧ c.toUInt8 = byte ∧ encoded behind = rest := by
  cases text with
  | nil => cases starts
  | cons c behind =>
    by_cases ascii : IsAscii c
    · rw [encoded_ascii ascii] at starts
      obtain ⟨first, behind_eq⟩ := List.cons.inj starts
      exact ⟨c, behind, rfl, ascii, first, behind_eq⟩
    · obtain ⟨byte', rest', bytes, high⟩ := encoded_wide ascii behind
      rw [bytes] at starts
      obtain ⟨rfl, -⟩ := List.cons.inj starts
      omega

theorem head?_encoded {c : Char} (ascii : IsAscii c) (text : List Char) :
    (encoded text).head? = some c.toUInt8 ↔ text.head? = some c := by
  cases text with
  | nil => exact ⟨nofun, nofun⟩
  | cons d text =>
    by_cases ascii' : IsAscii d
    · rw [encoded_ascii ascii', List.head?_cons, List.head?_cons, Option.some_inj, Option.some_inj,
        toUInt8_inj ascii' ascii]
    · obtain ⟨byte, rest, bytes, high⟩ := encoded_wide ascii' text
      rw [bytes, List.head?_cons, List.head?_cons, Option.some_inj, Option.some_inj]
      constructor
      · rintro rfl
        rw [toNat_toUInt8 ascii] at high
        exact (Nat.not_lt.mpr high ascii).elim
      · rintro rfl
        exact (ascii' ascii).elim

theorem drop_encoded {c : Char} (ascii : IsAscii c) {text : List Char} (head : text.head? = some c) :
    (encoded text).drop 1 = encoded text.tail := by
  obtain ⟨behind, rfl⟩ := List.head?_eq_some_iff.mp head
  rw [encoded_ascii ascii]
  rfl

theorem eq_append_of_encoded {literal text : List Char} {rest : List UInt8}
    (ascii : ∀ c ∈ literal, IsAscii c) (starts : encoded text = encoded literal ++ rest) :
    ∃ behind, text = literal ++ behind ∧ encoded behind = rest := by
  induction literal generalizing text with
  | nil => exact ⟨text, rfl, starts⟩
  | cons c literal ih =>
    obtain ⟨first, others⟩ := List.forall_mem_cons.mp ascii
    rw [encoded_ascii first] at starts
    obtain ⟨d, text, rfl, ascii', same, bytes⟩ :=
      eq_cons_of_encoded starts (by rw [toNat_toUInt8 first]; exact first)
    obtain rfl := (toUInt8_inj ascii' first).mp same
    obtain ⟨behind, rfl, behindBytes⟩ := ih others bytes
    exact ⟨behind, rfl, behindBytes⟩

theorem encoded_eq_nil {text : List Char} : encoded text = [] ↔ text = [] := by
  constructor
  · intro none
    cases text with
    | nil => rfl
    | cons c text =>
      rw [encoded_cons] at none
      exact (String.utf8EncodeChar_ne_nil (List.append_eq_nil_iff.mp none).1).elim
  · rintro rfl
    rfl

theorem encoded_injective : Function.Injective encoded := by
  intro text text' same
  have bytes (text : List Char) : (encoded text).toByteArray = (String.ofList text).toByteArray := by
    rw [String.toByteArray_ofList, List.utf8Encode, encoded]
  have strings : String.ofList text = String.ofList text' :=
    String.toByteArray_inj.mp (by rw [← bytes, ← bytes, same])
  exact String.ofList_injective strings

section Predicates

/-- A test of bytes that finds the characters of a test of characters, all of them ASCII. -/
structure Mirrors (byte : UInt8 → Bool) (char : Char → Bool) : Prop where
  same : ∀ c, IsAscii c → byte c.toUInt8 = char c
  bytes : ∀ b, byte b = true → b.toNat < 128
  chars : ∀ c, char c = true → IsAscii c

variable {byte : UInt8 → Bool} {char : Char → Bool}

theorem Mirrors.head (mirrors : Mirrors byte char) (text : List Char) :
    (encoded text).head?.any byte = text.head?.any char := by
  cases text with
  | nil => rfl
  | cons c text =>
    by_cases ascii : IsAscii c
    · rw [encoded_ascii ascii]
      exact mirrors.same c ascii
    · obtain ⟨first, rest, bytes, high⟩ := encoded_wide ascii text
      rw [bytes]
      have notByte : ¬ byte first = true := fun found => by have := mirrors.bytes first found; omega
      have notChar : ¬ char c = true := fun found => ascii (mirrors.chars c found)
      exact (Bool.eq_false_iff.mpr notByte).trans (Bool.eq_false_iff.mpr notChar).symm

theorem Mirrors.found (mirrors : Mirrors byte char) {text : List Char}
    (found : (encoded text).head?.any byte = true) :
    ∃ c behind, text = c :: behind ∧ char c = true ∧ (encoded text).drop 1 = encoded behind := by
  rw [mirrors.head] at found
  cases text with
  | nil => cases found
  | cons c behind =>
    refine ⟨c, behind, rfl, found, ?_⟩
    rw [encoded_ascii (mirrors.chars c found)]
    rfl

theorem Mirrors.first (mirrors : Mirrors byte char) {c : Char} (found : char c = true)
    (behind : List Char) : (encoded (c :: behind)).head?.any byte = true ∧
      (encoded (c :: behind)).drop 1 = encoded behind := by
  have head : (encoded (c :: behind)).head?.any byte = true := by
    rw [mirrors.head]
    exact found
  refine ⟨head, ?_⟩
  rw [encoded_ascii (mirrors.chars c found)]
  rfl

theorem Mirrors.dropWhile (mirrors : Mirrors byte char) (text : List Char) :
    (encoded text).dropWhile byte = encoded (text.dropWhile char) := by
  induction text with
  | nil => rfl
  | cons c text ih =>
    cases found : char c with
    | true =>
      have ascii := mirrors.chars c found
      rw [encoded_ascii ascii, List.dropWhile_cons_of_pos ((mirrors.same c ascii).trans found),
        List.dropWhile_cons_of_pos found, ih]
    | false =>
      have head := mirrors.head (c :: text)
      rw [List.dropWhile_cons_of_neg (by simp [found])]
      cases bytes : encoded (c :: text) with
      | nil => rfl
      | cons first rest =>
        rw [bytes] at head
        have notByte : byte first = false := head.trans found
        rw [List.dropWhile_cons_of_neg (by simp [notByte])]

end Predicates

end Utf8
