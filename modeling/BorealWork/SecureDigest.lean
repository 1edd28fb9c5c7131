/- The content address is the standard hash of 256 bits: the tables, the padding, the schedule and the
rounds of the source's own loop against the standard's, and the text of the digest. -/
import BorealWork.ContentDigest
import BorealWork.Library.SecureHash

namespace Boreal.Source
open SecureHash (Word Registers number bitsOf pieces)

def primes : List ℕ :=
  [2, 3, 5, 7, 11, 13, 17, 19, 23, 29, 31, 37, 41, 43, 47, 53, 59, 61, 67, 71, 73, 79, 83, 89, 97, 101, 103,
    107, 109, 113, 127, 131, 137, 139, 149, 151, 157, 163, 167, 173, 179, 181, 191, 193, 197, 199, 211, 223,
    227, 229, 233, 239, 241, 251, 257, 263, 269, 271, 277, 281, 283, 293, 307, 311]

theorem primes_prime : ∀ index < 64, Nat.Prime (primes.getD index 0) := by decide +kernel

/-- Between two primes of the list there is no other. -/
theorem primes_consecutive : ∀ index < 63, primes.getD index 0 < primes.getD (index + 1) 0 ∧
    ∀ k < primes.getD (index + 1) 0, primes.getD index 0 < k → ¬ Nat.Prime k := by
  decide +kernel

theorem count_prime : ∀ index < 64, Nat.count Nat.Prime (primes.getD index 0) = index := by
  intro index
  induction index with
  | zero =>
    intro _
    decide
  | succ index ih =>
    intro small
    obtain ⟨later, between⟩ := primes_consecutive index (by omega)
    have counted := ih (by omega)
    rw [Nat.count_eq_card_filter_range] at counted ⊢
    have filled : (Finset.range (primes.getD (index + 1) 0)).filter Nat.Prime =
        insert (primes.getD index 0) ((Finset.range (primes.getD index 0)).filter Nat.Prime) := by
      ext k
      simp only [Finset.mem_filter, Finset.mem_range, Finset.mem_insert]
      constructor
      · rintro ⟨below, prime⟩
        rcases lt_trichotomy k (primes.getD index 0) with before | rfl | after
        · exact .inr ⟨before, prime⟩
        · exact .inl rfl
        · exact absurd prime (between k below after)
      · rintro (rfl | ⟨below, prime⟩)
        · exact ⟨later, primes_prime index (by omega)⟩
        · exact ⟨below.trans later, prime⟩
    rw [filled, Finset.card_insert_of_notMem (by simp), counted]

theorem nth_prime : ∀ index < 64, Nat.nth Nat.Prime index = primes.getD index 0 := by
  intro index small
  have found := Nat.nth_count (primes_prime index small)
  rwa [count_prime index small] at found

/-- A word is the fraction of a root: with some whole part it is enclosed by powers. -/
def Encloses (degree value : ℕ) (word : UInt32) (whole : ℕ) : Prop :=
  (whole * 2 ^ 32 + word.toNat) ^ degree ≤ value * 2 ^ (32 * degree) ∧
    value * 2 ^ (32 * degree) < (whole * 2 ^ 32 + word.toNat + 1) ^ degree

instance (degree value : ℕ) (word : UInt32) (whole : ℕ) : Decidable (Encloses degree value word whole) :=
  inferInstanceAs (Decidable (_ ∧ _))

theorem fractionWord_of_encloses {degree value whole : ℕ} {word : UInt32} (positive : 0 < degree)
    (enclosed : Encloses degree value word whole) :
    SecureHash.fractionWord ((value : ℝ) ^ (degree : ℝ)⁻¹) = word.toBitVec := by
  rw [SecureHash.fractionWord_root positive enclosed.1 enclosed.2]
  refine BitVec.eq_of_toNat_eq ?_
  rw [BitVec.toNat_ofNat, Nat.mul_add_mod_self_right]
  exact Nat.mod_eq_of_lt word.toNat_lt

theorem roundConstant_eq {index : ℕ} (small : index < 64) :
    SecureHash.roundConstant index = (sha256RoundConstants.getD index 0).toBitVec := by
  have enclosed : ∀ index < 64, ∃ whole < 8,
      Encloses 3 (primes.getD index 0) (sha256RoundConstants.getD index 0) whole := by
    decide
  obtain ⟨whole, -, within⟩ := enclosed index small
  rw [SecureHash.roundConstant, nth_prime index small]
  exact_mod_cast fractionWord_of_encloses (by omega) within

theorem initialWord_eq {index : ℕ} (small : index < 8) :
    SecureHash.initialWord index = (initialState.words.getD index 0).toBitVec := by
  have enclosed : ∀ index < 8, ∃ whole < 8,
      Encloses 2 (primes.getD index 0) (initialState.words.getD index 0) whole := by
    decide
  obtain ⟨whole, -, within⟩ := enclosed index small
  rw [SecureHash.initialWord, nth_prime index (by omega)]
  exact_mod_cast fractionWord_of_encloses (by omega) within

/-- The bits of a byte string, the highest of each byte first. -/
def byteBits (byte : UInt8) : List Bool := bitsOf 8 byte.toNat

def messageBits (bytes : List UInt8) : List Bool := bytes.flatMap byteBits

theorem length_byteBits (byte : UInt8) : (byteBits byte).length = 8 := SecureHash.length_bitsOf 8 byte.toNat

theorem length_messageBits (bytes : List UInt8) : (messageBits bytes).length = 8 * bytes.length :=
  SecureHash.length_flatMap_of_uniform length_byteBits bytes

theorem number_messageBits (bytes : List UInt8) : number (messageBits bytes) = fromBeBytes bytes := by
  induction bytes using List.reverseRecOn with
  | nil => rfl
  | append_singleton rest byte ih =>
    rw [messageBits, List.flatMap_append, SecureHash.number_append, fromBeBytes, List.foldl_append]
    have last : number ([byte].flatMap byteBits) = byte.toNat := by
      rw [List.flatMap_singleton, byteBits, SecureHash.number_bitsOf]
      exact Nat.mod_eq_of_lt byte.toNat_lt
    change number (messageBits rest) * _ + _ = 256 * fromBeBytes rest + byte.toNat
    rw [ih, last, List.flatMap_singleton, length_byteBits, Nat.mul_comm]
    rfl

theorem messageBits_beBytes (count value : ℕ) :
    messageBits (beBytes count value) = bitsOf (8 * count) value := by
  rw [messageBits, beBytes, SecureHash.bitsOf_mul, List.flatMap_map]
  refine congrArg List.flatten (List.map_congr_left fun index _ => ?_)
  rw [byteBits, UInt8.toNat_ofNat', SecureHash.bitsOf_mod]

theorem messageBits_zeroes (count : ℕ) :
    messageBits (List.replicate count 0) = List.replicate (8 * count) false := by
  induction count with
  | zero => rfl
  | succ count ih =>
    rw [List.replicate_succ, messageBits, List.flatMap_cons, ← messageBits, ih, Nat.mul_succ, Nat.add_comm,
      List.replicate_add]
    rfl

theorem messageBits_append (left right : List UInt8) :
    messageBits (left ++ right) = messageBits left ++ messageBits right := List.flatMap_append

def zeroBytes (length : ℕ) : ℕ := paddedLength length - 8 - (length + 1)

theorem zeroes_bytes (length : ℕ) : SecureHash.zeroes (8 * length) = 7 + 8 * zeroBytes length := by
  refine SecureHash.zeroes_eq ?_ ?_ <;>
    · rw [zeroBytes, paddedLength]
      omega

theorem bitLength_exact {bytes : List UInt8} (short : bytes.length < 2 ^ 61) :
    (UInt64.ofNat bytes.length * 8).toNat = 8 * bytes.length := by
  rw [UInt64.toNat_mul, UInt64.toNat_ofNat', Nat.mod_eq_of_lt (by omega : bytes.length < 2 ^ 64),
    Nat.mod_eq_of_lt (by change bytes.length * 8 < 2 ^ 64; omega), Nat.mul_comm]
  rfl

theorem messageBits_padded {bytes : List UInt8} (short : bytes.length < 2 ^ 61) :
    messageBits (padded bytes) = SecureHash.pad (messageBits bytes) := by
  have marker : messageBits [0x80] = true :: List.replicate 7 false := rfl
  rw [padded, SecureHash.pad, messageBits_append, messageBits_append, messageBits_append, marker,
    messageBits_zeroes, messageBits_beBytes, bitLength_exact short, length_messageBits, zeroes_bytes,
    List.replicate_add, zeroBytes]
  simp

theorem length_padded (bytes : List UInt8) : (padded bytes).length = paddedLength bytes.length := by
  simp only [padded, List.length_append, List.length_singleton, List.length_replicate, length_beBytes]
  rw [paddedLength]
  omega

@[simp] theorem toBitVec_rotateRight (word count : UInt32) (positive : 0 < count.toNat)
    (within : count.toNat < 32) :
    (rotateRight word count).toBitVec = SecureHash.rotateRight word.toBitVec count.toNat := by
  have opposite : (32 - count).toNat = 32 - count.toNat :=
    UInt32.toNat_sub_of_le 32 count (UInt32.le_iff_toNat_le.mpr within.le)
  have right : (word >>> count).toBitVec = word.toBitVec >>> count.toNat := by
    rw [UInt32.toBitVec_shiftRight, BitVec.ushiftRight_eq', BitVec.toNat_umod]
    exact congrArg (word.toBitVec >>> ·) (Nat.mod_eq_of_lt within)
  have left : (word <<< (32 - count)).toBitVec = word.toBitVec <<< (32 - count.toNat) := by
    rw [UInt32.toBitVec_shiftLeft, BitVec.shiftLeft_eq', BitVec.toNat_umod, UInt32.toNat_toBitVec, opposite]
    exact congrArg (word.toBitVec <<< ·) (Nat.mod_eq_of_lt (by omega : 32 - count.toNat < 32))
  rw [rotateRight, SecureHash.rotateRight, UInt32.toBitVec_or, right, left]

def Working.registers (working : Working) : Registers :=
  ⟨working.w0.toBitVec, working.w1.toBitVec, working.w2.toBitVec, working.w3.toBitVec, working.w4.toBitVec,
    working.w5.toBitVec, working.w6.toBitVec, working.w7.toBitVec⟩

theorem registers_words (working : Working) :
    working.registers.words = working.words.map UInt32.toBitVec := rfl

theorem registers_round (working : Working) (constant word : UInt32) :
    (round working (constant, word)).registers = working.registers.next constant.toBitVec word.toBitVec := by
  simp [round, Working.registers, Registers.next, SecureHash.largeSigma0, SecureHash.largeSigma1,
    SecureHash.choose, SecureHash.majority]

section Blocks

variable {chunk : List UInt8}

/-- The words listed so far are those of the standard's schedule. -/
def Scheduled (chunk : List UInt8) (words : List UInt32) : Prop :=
  ∀ index < words.length, (words.getD index 0).toBitVec = SecureHash.schedule (messageBits chunk) index

theorem pieces_messageBits (count : ℕ) (bytes : List UInt8) :
    pieces (8 * count) (messageBits bytes) = (pieces count bytes).map messageBits :=
  SecureHash.pieces_flatMap length_byteBits (by omega) count bytes

theorem scheduled_first (whole : chunk.length = 64) :
    Scheduled chunk ((List.range 16).map fun index =>
      UInt32.ofNat (fromBeBytes ((chunk.drop (4 * index)).take 4))) := by
  intro index bound
  have small : index < 16 := by simpa using bound
  rw [SecureHash.schedule, if_pos small, pieces_messageBits 4 chunk, pieces, whole]
  simp only [List.getD_eq_getElem?_getD, List.getElem?_map, List.getElem?_range small, Option.map_some,
    Option.getD_some]
  rw [number_messageBits]
  rfl

theorem scheduled_next {words : List UInt32} (scheduled : Scheduled chunk words)
    (enough : 16 ≤ words.length) : Scheduled chunk (words ++ [nextWord words words.length]) := by
  intro index bound
  rw [List.length_append, List.length_singleton] at bound
  rcases Nat.lt_succ_iff_lt_or_eq.mp bound with before | rfl
  · rw [List.getD_append _ _ _ _ before]
    exact scheduled index before
  · rw [List.getD_append_right _ _ _ _ le_rfl, Nat.sub_self, SecureHash.schedule, if_neg (by omega),
      ← scheduled _ (by omega), ← scheduled _ (by omega), ← scheduled _ (by omega), ← scheduled _ (by omega)]
    simp [nextWord, SecureHash.smallSigma0, SecureHash.smallSigma1]
    ac_rfl

theorem schedule_spec (whole : chunk.length = 64) :
    (schedule chunk).length = 64 ∧ Scheduled chunk (schedule chunk) := by
  have loop : ∀ count, ∀ words, words = (List.range' 16 count).foldl
      (fun words index => words ++ [nextWord words index])
      ((List.range 16).map fun index => UInt32.ofNat (fromBeBytes ((chunk.drop (4 * index)).take 4))) →
      words.length = 16 + count ∧ Scheduled chunk words := by
    intro count
    induction count with
    | zero =>
      rintro words rfl
      exact ⟨by simp, scheduled_first whole⟩
    | succ count ih =>
      rintro words rfl
      obtain ⟨length, scheduled⟩ := ih _ rfl
      rw [List.range'_1_concat, List.foldl_append, List.foldl_cons, List.foldl_nil]
      refine ⟨by rw [List.length_append, length]; rfl, ?_⟩
      have next := scheduled_next scheduled (by omega)
      rwa [length] at next
  exact loop 48 _ rfl

theorem registers_rounds (state : Working) (whole : chunk.length = 64) :
    ∀ count ≤ 64, (((sha256RoundConstants.zip (schedule chunk)).take count).foldl round state).registers =
      SecureHash.rounds state.registers (messageBits chunk) count := by
  obtain ⟨length, scheduled⟩ := schedule_spec whole
  intro count
  induction count with
  | zero => exact fun _ => rfl
  | succ count ih =>
    intro le
    have bound : count < (sha256RoundConstants.zip (schedule chunk)).length := by
      rw [List.length_zip, length]
      exact lt_min le le
    have constant := roundConstant_eq le
    have word := scheduled count (by omega)
    rw [List.take_succ_eq_append_getElem bound, List.foldl_append, List.foldl_cons, List.foldl_nil,
      List.getElem_zip, registers_round, ih (by omega), SecureHash.rounds, constant, ← word,
      List.getD_eq_getElem, List.getD_eq_getElem]

theorem registers_add (left right : Working) :
    Working.registers ⟨left.w0 + right.w0, left.w1 + right.w1, left.w2 + right.w2, left.w3 + right.w3,
        left.w4 + right.w4, left.w5 + right.w5, left.w6 + right.w6, left.w7 + right.w7⟩ =
      left.registers.add right.registers := rfl

theorem registers_compress (state : Working) (whole : chunk.length = 64) :
    (compress state chunk).registers = SecureHash.compress state.registers (messageBits chunk) := by
  have all : ((sha256RoundConstants.zip (schedule chunk)).take 64) =
      sha256RoundConstants.zip (schedule chunk) := by
    refine List.take_of_length_le ?_
    rw [List.length_zip, (schedule_spec whole).1]
    exact min_le_right _ _
  have rounds := registers_rounds state whole 64 le_rfl
  rw [all] at rounds
  rw [SecureHash.compress, ← rounds]
  exact registers_add state _

theorem registers_initialState : initialState.registers = SecureHash.initial := by
  rw [SecureHash.initial, initialWord_eq (by omega), initialWord_eq (by omega), initialWord_eq (by omega),
    initialWord_eq (by omega), initialWord_eq (by omega), initialWord_eq (by omega),
    initialWord_eq (by omega), initialWord_eq (by omega)]
  rfl

theorem registers_foldl {blocks : List (List UInt8)} (whole : ∀ chunk ∈ blocks, chunk.length = 64)
    (state : Working) :
    (blocks.foldl compress state).registers =
      (blocks.map messageBits).foldl SecureHash.compress state.registers := by
  induction blocks generalizing state with
  | nil => rfl
  | cons chunk rest ih =>
    rw [List.foldl_cons, List.map_cons, List.foldl_cons,
      ih (fun other member => whole other (List.mem_cons_of_mem chunk member)),
      registers_compress state (whole chunk List.mem_cons_self)]

theorem registers_hash {bytes : List UInt8} (short : bytes.length < 2 ^ 61) :
    (hash bytes).registers = SecureHash.hash (messageBits bytes) := by
  have blocks : pieces 512 (SecureHash.pad (messageBits bytes)) =
      (chunks (padded bytes)).map messageBits := by
    rw [← messageBits_padded short]
    exact pieces_messageBits 64 (padded bytes)
  have whole : ∀ chunk ∈ chunks (padded bytes), chunk.length = 64 :=
    fun chunk member => SecureHash.length_of_mem_pieces member
  rw [hash, registers_foldl whole, registers_initialState, SecureHash.hash, blocks]

end Blocks

theorem hexDigits_words (words : List UInt32) :
    SecureHash.hexDigits (words.flatMap fun word => bitsOf 32 word.toBitVec.toNat) =
      words.flatMap hexWord := by
  have digits : (words.flatMap fun word => bitsOf 32 word.toBitVec.toNat) =
      (words.flatMap fun word => (List.range 8).map fun index => word.toNat >>> (4 * (7 - index))).flatMap
        (bitsOf 4) := by
    rw [List.flatMap_assoc]
    refine congrArg List.flatten (List.map_congr_left fun word _ => ?_)
    rw [List.flatMap_map]
    exact SecureHash.bitsOf_mul 4 8 word.toNat
  rw [digits, SecureHash.hexDigits, SecureHash.pieces_images (SecureHash.length_bitsOf 4) (by omega),
    List.map_map, List.map_flatMap]
  refine congrArg List.flatten (List.map_congr_left fun word _ => ?_)
  rw [List.map_map]
  refine List.map_congr_left fun index _ => ?_
  exact congrArg Nat.digitChar (SecureHash.number_bitsOf 4 _)

theorem hexWord_lower (word : UInt32) : ∀ c ∈ hexWord word, c ∈ "0123456789abcdef".toList := by
  have digits : ∀ d < 16, Nat.digitChar d ∈ "0123456789abcdef".toList := by decide
  intro c member
  obtain ⟨index, _, rfl⟩ := List.mem_map.mp member
  exact digits _ (Nat.mod_lt _ (by omega))

theorem hexDigits_digest {bytes : List UInt8} (short : bytes.length < 2 ^ 61) :
    SecureHash.hexDigits (SecureHash.digest (messageBits bytes)) = (hash bytes).words.flatMap hexWord := by
  rw [SecureHash.digest, ← registers_hash short, registers_words, List.flatMap_map]
  exact hexDigits_words (hash bytes).words

theorem length_hexDigits (bytes : List UInt8) : ((hash bytes).words.flatMap hexWord).length = 64 :=
  SecureHash.length_flatMap_of_uniform hexWord_length (hash bytes).words

/-- Below `2 ^ 61` bytes the content address is the standard digest of the bits, as 64 lower-case digits
after the name of the algorithm; the padding fills whole blocks and ends with the exact bit length. -/
theorem contentDigest_eq_standard {bytes : List UInt8} (short : bytes.length < 2 ^ 61) :
    contentDigest bytes =
        "sha256:" ++ String.ofList (SecureHash.hexDigits (SecureHash.digest (messageBits bytes))) ∧
      (SecureHash.hexDigits (SecureHash.digest (messageBits bytes))).length = 64 ∧
      (∀ digit ∈ SecureHash.hexDigits (SecureHash.digest (messageBits bytes)),
        digit ∈ "0123456789abcdef".toList) ∧
      messageBits (padded bytes) = SecureHash.pad (messageBits bytes) ∧
      (padded bytes).length % 64 = 0 ∧
      (padded bytes).drop ((padded bytes).length - 8) = beBytes 8 (8 * bytes.length) := by
  rw [hexDigits_digest short]
  refine ⟨?_, length_hexDigits bytes, ?_, messageBits_padded short, ?_, ?_⟩
  · refine String.toList_inj.mp ?_
    rw [contentDigest, String.toList_ofList, String.toList_append, String.toList_ofList, String.toList_ofList]
    rfl
  · intro digit member
    obtain ⟨word, -, inside⟩ := List.mem_flatMap.mp member
    exact hexWord_lower word digit inside
  · rw [length_padded, paddedLength, Nat.mul_mod_left]
  · rw [length_padded, padded, bitLength_exact short]
    refine List.drop_left' ?_
    have length := length_padded bytes
    rw [padded, List.length_append, bitLength_exact short, length_beBytes] at length
    omega

theorem contentDigest_eq_standard_blocks :
    contentDigest (List.replicate 56 0x61) =
      "sha256:" ++ String.ofList (SecureHash.hexDigits (SecureHash.digest
        (messageBits (List.replicate 56 0x61)))) :=
  (contentDigest_eq_standard (by rw [List.length_replicate]; omega)).1

end Boreal.Source
