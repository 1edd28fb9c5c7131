/- Decimal digits as bytes: a text of digits has a value, and every number below a power of ten has one
text of that many digits. -/
import Mathlib

namespace Decimals

def isDigit (byte : UInt8) : Bool := 48 ≤ byte.toNat && byte.toNat ≤ 57

def AllDigits (bytes : List UInt8) : Prop := ∀ byte ∈ bytes, isDigit byte = true

def valueOf (bytes : List UInt8) : ℕ := bytes.foldl (fun value byte => value * 10 + (byte.toNat - 48)) 0

/-- The last digits of a number, as many as asked for. -/
def padded : ℕ → ℕ → List UInt8
  | 0, _ => []
  | width + 1, n => padded width (n / 10) ++ [UInt8.ofNat (48 + n % 10)]

@[simp]
theorem length_padded (width n : ℕ) : (padded width n).length = width := by
  induction width generalizing n with
  | zero => rfl
  | succ width ih => rw [padded, List.length_append, ih, List.length_singleton]

theorem valueOf_concat (bytes : List UInt8) (byte : UInt8) :
    valueOf (bytes ++ [byte]) = valueOf bytes * 10 + (byte.toNat - 48) := by
  rw [valueOf, List.foldl_append]
  rfl

theorem digit_toNat (n : ℕ) : (UInt8.ofNat (48 + n % 10)).toNat = 48 + n % 10 := by
  rw [UInt8.toNat_ofNat']
  omega

theorem allDigits_padded (width n : ℕ) : AllDigits (padded width n) := by
  induction width generalizing n with
  | zero => exact fun byte member => absurd member List.not_mem_nil
  | succ width ih =>
    intro byte member
    rcases List.mem_append.mp member with earlier | last
    · exact ih _ byte earlier
    · rw [List.mem_singleton.mp last, isDigit, digit_toNat, Bool.and_eq_true]
      exact ⟨decide_eq_true (Nat.le_add_right _ _), decide_eq_true (by omega)⟩

theorem valueOf_padded {width n : ℕ} (fits : n < 10 ^ width) : valueOf (padded width n) = n := by
  induction width generalizing n with
  | zero => exact (Nat.lt_one_iff.mp fits).symm
  | succ width ih =>
    rw [pow_succ] at fits
    rw [padded, valueOf_concat, ih (by omega), digit_toNat]
    omega

variable {bytes : List UInt8}

theorem AllDigits.concat {byte : UInt8} (digits : AllDigits (bytes ++ [byte])) :
    AllDigits bytes ∧ 48 ≤ byte.toNat ∧ byte.toNat ≤ 57 := by
  obtain ⟨digits', last⟩ := List.forall_mem_append.mp digits
  have range := last byte (List.mem_singleton_self byte)
  rw [isDigit, Bool.and_eq_true, decide_eq_true_eq, decide_eq_true_eq] at range
  exact ⟨digits', range⟩

theorem valueOf_lt (digits : AllDigits bytes) : valueOf bytes < 10 ^ bytes.length := by
  induction bytes using List.reverseRecOn with
  | nil => exact Nat.one_pos
  | append_singleton bytes byte ih =>
    obtain ⟨digits', least, most⟩ := digits.concat
    have below := ih digits'
    rw [valueOf_concat, List.length_append, List.length_singleton, pow_succ]
    omega

theorem padded_valueOf (digits : AllDigits bytes) : padded bytes.length (valueOf bytes) = bytes := by
  induction bytes using List.reverseRecOn with
  | nil => rfl
  | append_singleton bytes byte ih =>
    obtain ⟨digits', least, most⟩ := digits.concat
    have tens : (valueOf bytes * 10 + (byte.toNat - 48)) / 10 = valueOf bytes := by omega
    have units : 48 + (valueOf bytes * 10 + (byte.toNat - 48)) % 10 = byte.toNat := by omega
    rw [List.length_append, List.length_singleton, valueOf_concat, padded, tens, units, ih digits',
      UInt8.ofNat_toNat]

theorem eq_padded_iff {n : ℕ} :
    AllDigits bytes ∧ valueOf bytes = n ↔ n < 10 ^ bytes.length ∧ padded bytes.length n = bytes := by
  constructor
  · rintro ⟨digits, rfl⟩
    exact ⟨valueOf_lt digits, padded_valueOf digits⟩
  · rintro ⟨fits, text⟩
    have digits := allDigits_padded bytes.length n
    have value := valueOf_padded fits
    rw [text] at digits value
    exact ⟨digits, value⟩

theorem valueOf_append (bytes more : List UInt8) :
    valueOf (bytes ++ more) = valueOf bytes * 10 ^ more.length + valueOf more := by
  induction more using List.reverseRecOn with
  | nil => rw [List.append_nil, List.length_nil, pow_zero, mul_one]; rfl
  | append_singleton more byte ih =>
    rw [← List.append_assoc, valueOf_concat, ih, valueOf_concat, List.length_append,
      List.length_singleton, pow_succ]
    ring

theorem valueOf_take (digits : AllDigits bytes) (kept : ℕ) :
    valueOf (bytes.take kept) = valueOf bytes / 10 ^ (bytes.length - kept) := by
  have rest : AllDigits (bytes.drop kept) := fun byte member => digits byte (List.mem_of_mem_drop member)
  have below := valueOf_lt rest
  have whole := valueOf_append (bytes.take kept) (bytes.drop kept)
  rw [List.take_append_drop] at whole
  rw [List.length_drop] at whole below
  rw [whole, mul_comm, Nat.mul_add_div (Nat.pow_pos (by decide)), Nat.div_eq_of_lt below, add_zero]

end Decimals
