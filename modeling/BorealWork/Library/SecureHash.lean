/- A hash of 256 bits over bit strings and words of 32 bits: functions and constants, padding, message
schedule, rounds and digest, as the published standard defines them. -/
import Mathlib

namespace Boreal.SecureHash

abbrev Word := BitVec 32

/-- The number a bit string stands for, highest bit first. -/
def number (bits : List Bool) : ℕ := bits.foldl (fun number bit => 2 * number + bit.toNat) 0

/-- The lowest `count` bits of a number, highest first. -/
def bitsOf : ℕ → ℕ → List Bool
  | 0, _ => []
  | count + 1, number => number.testBit count :: bitsOf count number

/-- The whole pieces of `size` elements each, in order. -/
def pieces {α : Type} (size : ℕ) (xs : List α) : List (List α) :=
  (List.range (xs.length / size)).map fun index => (xs.drop (size * index)).take size

section Functions

variable (x y z : Word)

def rotateRight (count : ℕ) : Word := (x >>> count) ||| (x <<< (32 - count))

def choose : Word := (x &&& y) ^^^ (~~~x &&& z)

def majority : Word := (x &&& y) ^^^ (x &&& z) ^^^ (y &&& z)

def largeSigma0 : Word := rotateRight x 2 ^^^ rotateRight x 13 ^^^ rotateRight x 22

def largeSigma1 : Word := rotateRight x 6 ^^^ rotateRight x 11 ^^^ rotateRight x 25

def smallSigma0 : Word := rotateRight x 7 ^^^ rotateRight x 18 ^^^ (x >>> 3)

def smallSigma1 : Word := rotateRight x 17 ^^^ rotateRight x 19 ^^^ (x >>> 10)

end Functions

/-- The first 32 bits of the fractional part. -/
noncomputable def fractionWord (x : ℝ) : Word := BitVec.ofNat 32 ⌊Int.fract x * 2 ^ 32⌋₊

noncomputable def roundConstant (index : ℕ) : Word :=
  fractionWord ((Nat.nth Nat.Prime index : ℝ) ^ (3 : ℝ)⁻¹)

noncomputable def initialWord (index : ℕ) : Word :=
  fractionWord ((Nat.nth Nat.Prime index : ℝ) ^ (2 : ℝ)⁻¹)

theorem zeroes_exist (length : ℕ) : ∃ zeroes, (length + 1 + zeroes) % 512 = 448 :=
  ⟨(960 - (length + 1) % 512) % 512, by omega⟩

def zeroes (length : ℕ) : ℕ := Nat.find (zeroes_exist length)

def pad (message : List Bool) : List Bool :=
  message ++ true :: List.replicate (zeroes message.length) false ++ bitsOf 64 message.length

def schedule (block : List Bool) (index : ℕ) : Word :=
  if index < 16 then BitVec.ofNat 32 (number ((pieces 32 block).getD index []))
  else smallSigma1 (schedule block (index - 2)) + schedule block (index - 7) +
    smallSigma0 (schedule block (index - 15)) + schedule block (index - 16)

structure Registers where
  a : Word
  b : Word
  c : Word
  d : Word
  e : Word
  f : Word
  g : Word
  h : Word
  deriving DecidableEq

def Registers.words (registers : Registers) : List Word :=
  [registers.a, registers.b, registers.c, registers.d, registers.e, registers.f, registers.g, registers.h]

def Registers.add (left right : Registers) : Registers :=
  ⟨left.a + right.a, left.b + right.b, left.c + right.c, left.d + right.d, left.e + right.e,
    left.f + right.f, left.g + right.g, left.h + right.h⟩

def Registers.next (registers : Registers) (constant word : Word) : Registers :=
  let t1 := registers.h + largeSigma1 registers.e + choose registers.e registers.f registers.g +
    constant + word
  let t2 := largeSigma0 registers.a + majority registers.a registers.b registers.c
  ⟨t1 + t2, registers.a, registers.b, registers.c, registers.d + t1, registers.e, registers.f, registers.g⟩

noncomputable def rounds (registers : Registers) (block : List Bool) : ℕ → Registers
  | 0 => registers
  | index + 1 => (rounds registers block index).next (roundConstant index) (schedule block index)

noncomputable def compress (registers : Registers) (block : List Bool) : Registers :=
  registers.add (rounds registers block 64)

noncomputable def initial : Registers :=
  ⟨initialWord 0, initialWord 1, initialWord 2, initialWord 3, initialWord 4, initialWord 5,
    initialWord 6, initialWord 7⟩

noncomputable def hash (message : List Bool) : Registers :=
  (pieces 512 (pad message)).foldl compress initial

noncomputable def digest (message : List Bool) : List Bool :=
  (hash message).words.flatMap fun word => bitsOf 32 word.toNat

def hexDigits (bits : List Bool) : List Char := (pieces 4 bits).map fun digit => (number digit).digitChar

@[simp] theorem length_bitsOf (count number : ℕ) : (bitsOf count number).length = count := by
  induction count with
  | zero => rfl
  | succ count ih => rw [bitsOf, List.length_cons, ih]

theorem foldl_bits (bits : List Bool) (start : ℕ) :
    bits.foldl (fun number bit => 2 * number + bit.toNat) start = start * 2 ^ bits.length + number bits := by
  induction bits generalizing start with
  | nil => simp [number]
  | cons bit rest ih =>
    rw [number, List.foldl_cons, List.foldl_cons, ih, ih (2 * 0 + _), List.length_cons]
    ring

theorem number_append (left right : List Bool) :
    number (left ++ right) = number left * 2 ^ right.length + number right := by
  rw [number, List.foldl_append, foldl_bits]
  rfl

theorem number_cons (bit : Bool) (rest : List Bool) :
    number (bit :: rest) = bit.toNat * 2 ^ rest.length + number rest := by
  rw [number, List.foldl_cons, foldl_bits, Nat.mul_zero, Nat.zero_add]

theorem number_bitsOf (count value : ℕ) : number (bitsOf count value) = value % 2 ^ count := by
  induction count with
  | zero => simp [bitsOf, number, Nat.mod_one]
  | succ count ih =>
    rw [bitsOf, number_cons, length_bitsOf, ih, Nat.mod_pow_succ, Nat.toNat_testBit]
    ring

theorem bitsOf_add (high low value : ℕ) :
    bitsOf (high + low) value = bitsOf high (value >>> low) ++ bitsOf low value := by
  induction high with
  | zero => rw [Nat.zero_add, bitsOf, List.nil_append]
  | succ high ih =>
    rw [Nat.succ_add, bitsOf, bitsOf, ih, Nat.testBit_shiftRight, Nat.add_comm low high, List.cons_append]

theorem bitsOf_mul (size count value : ℕ) :
    bitsOf (size * count) value =
      (List.range count).flatMap fun index => bitsOf size (value >>> (size * (count - 1 - index))) := by
  induction count with
  | zero => rfl
  | succ count ih =>
    rw [Nat.mul_succ, Nat.add_comm, bitsOf_add, ih, List.range_succ_eq_map, List.flatMap_cons,
      List.flatMap_map]
    refine congrArg₂ (· ++ ·) (by simp) (congrArg List.flatten (List.map_congr_left fun index _ => ?_))
    rw [Nat.succ_eq_add_one, Nat.add_sub_cancel, Nat.sub_sub, Nat.add_comm 1 index]

theorem bitsOf_mod (count value : ℕ) : bitsOf count (value % 2 ^ count) = bitsOf count value := by
  have below : ∀ size ≤ count, bitsOf size (value % 2 ^ count) = bitsOf size value := by
    intro size
    induction size with
    | zero => intro _; rfl
    | succ size ih =>
      intro le
      rw [bitsOf, bitsOf, ih (Nat.le_of_succ_le le), Nat.testBit_mod_two_pow,
        decide_eq_true (Nat.lt_of_succ_le le), Bool.true_and]
  exact below count le_rfl

section PieceLaws

variable {α β : Type} {each : α → List β} {size : ℕ}

theorem length_flatMap_of_uniform (uniform : ∀ x, (each x).length = size) (xs : List α) :
    (xs.flatMap each).length = size * xs.length := by
  rw [List.length_flatMap, List.map_congr_left fun x _ => uniform x, List.map_const', List.sum_replicate,
    smul_eq_mul, Nat.mul_comm]

theorem drop_flatMap_of_uniform (uniform : ∀ x, (each x).length = size) (count : ℕ) (xs : List α) :
    (xs.flatMap each).drop (size * count) = (xs.drop count).flatMap each := by
  induction count generalizing xs with
  | zero => rfl
  | succ count ih =>
    cases xs with
    | nil => simp
    | cons x rest =>
      rw [List.flatMap_cons, Nat.mul_succ, Nat.add_comm, ← List.drop_drop,
        List.drop_left' (uniform x), ih]
      rfl

theorem take_flatMap_of_uniform (uniform : ∀ x, (each x).length = size) (count : ℕ) (xs : List α) :
    (xs.flatMap each).take (size * count) = (xs.take count).flatMap each := by
  induction count generalizing xs with
  | zero => simp
  | succ count ih =>
    cases xs with
    | nil => simp
    | cons x rest =>
      rw [List.flatMap_cons, Nat.mul_succ, Nat.add_comm, List.take_append, uniform,
        Nat.add_sub_cancel_left, ih, List.take_of_length_le (by rw [uniform]; omega)]
      rfl

theorem pieces_flatMap (uniform : ∀ x, (each x).length = size) (positive : 0 < size) (count : ℕ)
    (xs : List α) : pieces (size * count) (xs.flatMap each) = (pieces count xs).map (·.flatMap each) := by
  rw [pieces, pieces, length_flatMap_of_uniform uniform, Nat.mul_div_mul_left _ _ positive, List.map_map]
  refine List.map_congr_left fun index _ => ?_
  rw [Nat.mul_assoc, drop_flatMap_of_uniform uniform, take_flatMap_of_uniform uniform]
  rfl

theorem pieces_one (xs : List α) : pieces 1 xs = xs.map fun x => [x] := by
  refine List.ext_getElem (by simp [pieces]) fun index low _ => ?_
  have inside : index < xs.length := by simpa [pieces] using low
  have head : (xs.drop index).take 1 = [xs[index]] := by
    rw [List.drop_eq_getElem_cons inside, List.take_succ_cons, List.take_zero]
  simpa [pieces] using head

theorem pieces_images (uniform : ∀ x, (each x).length = size) (positive : 0 < size) (xs : List α) :
    pieces size (xs.flatMap each) = xs.map each := by
  have cut := pieces_flatMap uniform positive 1 xs
  rw [Nat.mul_one, pieces_one, List.map_map] at cut
  rw [cut]
  refine List.map_congr_left fun x _ => ?_
  simp

theorem length_of_mem_pieces {xs piece : List α} (member : piece ∈ pieces size xs) : piece.length = size := by
  obtain ⟨index, bound, rfl⟩ := List.mem_map.mp member
  have le : size * (index + 1) ≤ xs.length :=
    (Nat.mul_le_mul_left size (List.mem_range.mp bound)).trans (Nat.mul_div_le xs.length size)
  rw [List.length_take, List.length_drop, Nat.min_eq_left]
  rw [Nat.mul_succ] at le
  omega

end PieceLaws

theorem zeroes_eq {length count : ℕ} (small : count < 512) (fits : (length + 1 + count) % 512 = 448) :
    zeroes length = count := by
  refine (Nat.find_eq_iff _).mpr ⟨fits, fun fewer less other => ?_⟩
  omega

theorem fractionWord_eq {x : ℝ} (nonneg : 0 ≤ x) : fractionWord x = BitVec.ofNat 32 ⌊x * 2 ^ 32⌋₊ := by
  have split : x * 2 ^ 32 = Int.fract x * 2 ^ 32 + ((⌊x⌋₊ * 2 ^ 32 : ℕ) : ℝ) := by
    have whole : (⌊x⌋₊ : ℝ) + Int.fract x = x := by
      rw [← Int.self_sub_floor, natCast_floor_eq_intCast_floor nonneg]
      ring
    push_cast
    linear_combination (2 : ℝ) ^ 32 * (-whole)
  rw [fractionWord, split, Nat.floor_add_natCast (by positivity)]
  refine BitVec.eq_of_toNat_eq ?_
  rw [BitVec.toNat_ofNat, BitVec.toNat_ofNat, Nat.add_mul_mod_self_right]

theorem fractionWord_root {degree value scaled : ℕ} (positive : 0 < degree)
    (low : scaled ^ degree ≤ value * 2 ^ (32 * degree))
    (high : value * 2 ^ (32 * degree) < (scaled + 1) ^ degree) :
    fractionWord ((value : ℝ) ^ (degree : ℝ)⁻¹) = BitVec.ofNat 32 scaled := by
  have nonneg : (0 : ℝ) ≤ (value : ℝ) ^ (degree : ℝ)⁻¹ := Real.rpow_nonneg (Nat.cast_nonneg value) _
  have power : ((value : ℝ) ^ (degree : ℝ)⁻¹ * 2 ^ 32) ^ degree = (value * 2 ^ (32 * degree) : ℕ) := by
    rw [mul_pow, Real.rpow_inv_natCast_pow (Nat.cast_nonneg value) positive.ne', ← pow_mul]
    push_cast
    rfl
  have floor : ⌊(value : ℝ) ^ (degree : ℝ)⁻¹ * 2 ^ 32⌋₊ = scaled := by
    rw [Nat.floor_eq_iff (by positivity)]
    constructor
    · refine le_of_pow_le_pow_left₀ positive.ne' (by positivity) ?_
      rw [power]
      exact_mod_cast low
    · refine lt_of_pow_lt_pow_left₀ degree (by positivity) ?_
      rw [power]
      exact_mod_cast high
  rw [fractionWord_eq nonneg, floor]

end Boreal.SecureHash
