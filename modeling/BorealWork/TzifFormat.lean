/- Time-zone files as data: how the tables are written, and that the manager's reader takes exactly the
bytes that are written so. -/
import BorealWork.BundleCodec
import BorealWork.TimeZoneReaders
import BorealWork.Library.Fields

namespace Boreal.TimeZones
open Drain Fields
open Source (beBytes fromBeBytes fromBeBytes_beBytes length_beBytes beBytes_succ)

section Numbers

variable {count : ℕ} {bytes : List UInt8} {value : ℤ}

theorem beBytes_add (count k number : ℕ) :
    beBytes count (k * 256 ^ count + number) = beBytes count number := by
  induction count generalizing k with
  | zero => rfl
  | succ count ih =>
    have positive : 0 < 256 ^ count := by positivity
    have shifted : k * 256 ^ (count + 1) + number = k * 256 * 256 ^ count + number := by ring
    rw [shifted, beBytes_succ, beBytes_succ, ih, Nat.shiftRight_eq_div_pow, Nat.shiftRight_eq_div_pow,
      Nat.pow_mul, add_comm, Nat.add_mul_div_right _ _ positive]
    refine congrArg (· :: _) (UInt8.toNat_inj.mp ?_)
    rw [UInt8.toNat_ofNat', UInt8.toNat_ofNat']
    exact Nat.add_mul_mod_self_right _ _ _

theorem exists_beBytes (bytes : List UInt8) :
    ∃ number < 256 ^ bytes.length, beBytes bytes.length number = bytes := by
  induction bytes with
  | nil => exact ⟨0, by decide, rfl⟩
  | cons byte rest ih =>
    obtain ⟨number, small, written⟩ := ih
    have narrow := byte.toNat_lt
    refine ⟨byte.toNat * 256 ^ rest.length + number, ?_, ?_⟩
    · rw [List.length_cons, pow_succ]
      nlinarith
    · have leading : (byte.toNat * 256 ^ rest.length + number) / 256 ^ rest.length = byte.toNat := by
        rw [add_comm, Nat.add_mul_div_right _ _ (by positivity), Nat.div_eq_of_lt small, zero_add]
      rw [List.length_cons, beBytes_succ, beBytes_add, written, Nat.shiftRight_eq_div_pow, Nat.pow_mul,
        leading, UInt8.ofNat_toNat]

/-- Numbers in two's complement. -/
def signedBytes (count : ℕ) (value : ℤ) : List UInt8 := beBytes count (value % 2 ^ (8 * count)).toNat

def Fits (count : ℕ) (value : ℤ) : Prop := -2 ^ (8 * count) ≤ 2 * value ∧ 2 * value < 2 ^ (8 * count)

instance (count : ℕ) (value : ℤ) : Decidable (Fits count value) := inferInstanceAs (Decidable (_ ∧ _))

theorem length_signedBytes (count : ℕ) (value : ℤ) : (signedBytes count value).length = count :=
  length_beBytes _ _

theorem fromBeBytes_spec (length : bytes.length = count) :
    fromBeBytes bytes < 2 ^ (8 * count) ∧ beBytes count (fromBeBytes bytes) = bytes := by
  obtain ⟨number, small, written⟩ := exists_beBytes bytes
  rw [length] at small written
  have read : fromBeBytes bytes = number := by rw [← written, fromBeBytes_beBytes small]
  rw [read, Nat.pow_mul]
  exact ⟨small, written⟩

theorem bmod_signedBytes (fits : Fits count value) :
    Int.bmod (fromBeBytes (signedBytes count value)) (2 ^ (8 * count)) = value := by
  have least := Int.emod_nonneg value (show (2 : ℤ) ^ (8 * count) ≠ 0 by positivity)
  have most := Int.emod_lt_of_pos value (show (0 : ℤ) < 2 ^ (8 * count) by positivity)
  have small : (value % 2 ^ (8 * count)).toNat < 256 ^ count := by
    rw [show 256 = 2 ^ 8 from rfl, ← Nat.pow_mul]
    zify
    omega
  obtain ⟨low, high⟩ := fits
  rw [signedBytes, fromBeBytes_beBytes small, Int.toNat_of_nonneg least]
  have modulus : (2 : ℤ) ^ (8 * count) = ((2 ^ (8 * count) : ℕ) : ℤ) := by push_cast; rfl
  rw [modulus, Int.emod_bmod]
  refine Int.bmod_eq_of_le_mul_two ?_ ?_
  · rw [← modulus]
    omega
  · rw [← modulus]
    omega

theorem signedBytes_bmod (length : bytes.length = count) :
    Fits count (Int.bmod (fromBeBytes bytes) (2 ^ (8 * count))) ∧
      signedBytes count (Int.bmod (fromBeBytes bytes) (2 ^ (8 * count))) = bytes := by
  obtain ⟨small, written⟩ := fromBeBytes_spec length
  have positive : 0 < 2 ^ (8 * count) := by positivity
  have modulus : (2 : ℤ) ^ (8 * count) = ((2 ^ (8 * count) : ℕ) : ℤ) := by push_cast; rfl
  have low := Int.le_bmod (x := fromBeBytes bytes) positive
  have high := Int.bmod_lt (x := fromBeBytes bytes) positive
  constructor
  · rw [Fits, modulus]
    omega
  · rw [signedBytes, modulus, Int.bmod_emod, Int.emod_eq_of_lt (by omega) (by exact_mod_cast small),
      Int.toNat_natCast, written]

end Numbers

section Reads

variable {truncated : String} {bytes field : List UInt8} {offset count n timeSize : ℕ} {value : ℤ}

theorem at?_eq_some : at? bytes offset count = some field ↔
    field.length = count ∧ Stands bytes offset field := by
  rw [at?, stands_iff_slice]
  split_ifs with room
  · rw [Option.some.injEq]
    constructor
    · intro slice
      have length : field.length = count := by
        rw [← slice, List.length_take, List.length_drop]
        omega
      exact ⟨length, length ▸ room, length ▸ slice⟩
    · rintro ⟨length, -, slice⟩
      exact length ▸ slice
  · refine iff_of_false nofun ?_
    rintro ⟨length, inside, -⟩
    exact room (length ▸ inside)

theorem readU32_eq_ok : readU32 truncated bytes offset = .ok n ↔
    n < 2 ^ 32 ∧ Stands bytes offset (beBytes 4 n) := by
  rw [readU32, elim_eq_ok]
  simp only [at?_eq_some, Except.ok.injEq]
  constructor
  · rintro ⟨field, ⟨length, stands⟩, rfl⟩
    obtain ⟨small, written⟩ := fromBeBytes_spec length
    exact ⟨small, written.symm ▸ stands⟩
  · rintro ⟨small, stands⟩
    exact ⟨_, ⟨length_beBytes _ _, stands⟩, fromBeBytes_beBytes small⟩

theorem readI32_eq_ok : readI32 truncated bytes offset = .ok value ↔
    Fits 4 value ∧ Stands bytes offset (signedBytes 4 value) := by
  rw [readI32, bind_eq_ok]
  simp only [readU32_eq_ok]
  constructor
  · rintro ⟨n, ⟨small, stands⟩, made⟩
    obtain ⟨fits, written⟩ := signedBytes_bmod (length_beBytes 4 n)
    rw [fromBeBytes_beBytes small] at fits written
    obtain rfl := Except.ok.inj made
    exact ⟨fits, written.symm ▸ stands⟩
  · rintro ⟨fits, stands⟩
    obtain ⟨small, written⟩ := fromBeBytes_spec (length_signedBytes 4 value)
    exact ⟨_, ⟨small, written.symm ▸ stands⟩, congrArg Except.ok (bmod_signedBytes fits)⟩

theorem readI64_eq_ok : readI64 truncated bytes offset = .ok value ↔
    Fits 8 value ∧ Stands bytes offset (signedBytes 8 value) := by
  rw [readI64, elim_eq_ok]
  simp only [at?_eq_some, Except.ok.injEq]
  constructor
  · rintro ⟨field, ⟨length, stands⟩, rfl⟩
    obtain ⟨fits, written⟩ := signedBytes_bmod length
    exact ⟨fits, written.symm ▸ stands⟩
  · rintro ⟨fits, stands⟩
    exact ⟨_, ⟨length_signedBytes 8 value, stands⟩, bmod_signedBytes fits⟩

theorem readTime_eq_ok (sized : timeSize = 4 ∨ timeSize = 8) :
    readTime truncated bytes timeSize offset = .ok value ↔
      Fits timeSize value ∧ Stands bytes offset (signedBytes timeSize value) := by
  rcases sized with rfl | rfl
  · exact readI32_eq_ok
  · exact readI64_eq_ok

theorem readEach_eq_ok {α β : Type} {read : ℕ → Except String β} {width : ℕ} {encode : α → List UInt8}
    {view : α → β} {valid : α → Prop} (length : ∀ a, (encode a).length = width)
    (each : ∀ cursor b, cursor + width ≤ bytes.length →
      (read cursor = .ok b ↔ ∃ a, view a = b ∧ valid a ∧ Stands bytes cursor (encode a)))
    {cursor : ℕ} (room : cursor + count * width ≤ bytes.length) {l : List β} :
    readEach read width cursor count = .ok l ↔
      ∃ entries : List α, entries.map view = l ∧ entries.length = count ∧ (∀ a ∈ entries, valid a) ∧
        Stands bytes cursor (entries.flatMap encode) := by
  induction count generalizing cursor l with
  | zero =>
    rw [readEach, Except.ok.injEq]
    constructor
    · rintro rfl
      exact ⟨[], rfl, rfl, nofun, stands_nil.mpr (by omega)⟩
    · rintro ⟨entries, rfl, none_, -, -⟩
      rw [List.length_eq_zero_iff.mp none_]
      rfl
  | succ count ih =>
    rw [Nat.add_mul, Nat.one_mul] at room
    rw [readEach, bind_eq_ok]
    constructor
    · rintro ⟨b, first, done⟩
      obtain ⟨rest, later, made⟩ := bind_eq_ok.mp done
      obtain rfl := Except.ok.inj made
      obtain ⟨a, rfl, valid, stands⟩ := (each cursor b (by omega)).mp first
      obtain ⟨entries, rfl, rfl, all, behind⟩ := (ih (by omega)).mp later
      refine ⟨a :: entries, rfl, rfl, List.forall_mem_cons.mpr ⟨valid, all⟩, ?_⟩
      rw [List.flatMap_cons, stands_append, length]
      exact ⟨stands, behind⟩
    · rintro ⟨entries, rfl, counted, all, stands⟩
      cases entries with
      | nil => cases counted
      | cons a entries =>
        rw [List.forall_mem_cons] at all
        rw [List.flatMap_cons, stands_append, length] at stands
        refine ⟨view a, (each cursor _ (by omega)).mpr ⟨a, rfl, all.1, stands.1⟩, ?_⟩
        refine bind_eq_ok.mpr ⟨entries.map view, (ih (by omega)).mpr ?_, rfl⟩
        exact ⟨entries, rfl, Nat.succ.inj counted, all.2, stands.2⟩

end Reads

section Data

structure LocalTimeType where
  offset : ℤ
  isDaylight : UInt8
  designation : UInt8
  deriving DecidableEq

def LocalTimeType.bytes (type : LocalTimeType) : List UInt8 :=
  signedBytes 4 type.offset ++ [type.isDaylight, type.designation]

/-- The data of a block. Of what the readers do not use, leap seconds and designations among it, the
bytes are kept. -/
structure TzifData where
  reserved : List UInt8
  gmt : List UInt8
  standard : List UInt8
  leapCount : ℕ
  leaps : List UInt8
  times : List ℤ
  indices : List UInt8
  types : List LocalTimeType
  designations : List UInt8
  deriving DecidableEq

namespace TzifData

variable (data : TzifData) (version : UInt8) (start timeSize : ℕ)

def counts : Counts :=
  ⟨data.gmt.length, data.standard.length, data.leapCount, data.times.length, data.types.length,
    data.designations.length⟩

def fields : List (List UInt8) :=
  [magic, [version], data.reserved, beBytes 4 data.gmt.length, beBytes 4 data.standard.length,
    beBytes 4 data.leapCount, beBytes 4 data.times.length, beBytes 4 data.types.length,
    beBytes 4 data.designations.length, data.times.flatMap (signedBytes timeSize), data.indices,
    data.types.flatMap LocalTimeType.bytes, data.designations, data.leaps, data.standard, data.gmt]

/-- A block as it is written. -/
def bytes : List UInt8 := (data.fields version timeSize).flatten

/-- What must hold of the data for a block to be written of it. -/
structure Sound : Prop where
  reserved : data.reserved.length = 15
  times : ∀ time ∈ data.times, Fits timeSize time
  indices : data.indices.length = data.times.length
  types : ∀ type ∈ data.types, Fits 4 type.offset
  leaps : data.leaps.length = data.leapCount * (timeSize + 4)
  typeCount : 1 ≤ data.types.length ∧ data.types.length ≤ 256

def length : ℕ := 44 + (data.times.length * timeSize + data.times.length) + (data.types.length * 6 +
  (data.designations.length + data.leapCount * (timeSize + 4) + data.standard.length + data.gmt.length))

def block : TzifBlock where
  stop := start + data.length timeSize
  transitionTimes := data.times
  transitionTypes := data.indices
  offsets := data.types.map LocalTimeType.offset
  leapCount := data.leapCount

end TzifData

variable {data : TzifData} {version : UInt8} {timeSize start : ℕ} {text : List UInt8}

theorem length_magic : magic.length = 4 := by decide +kernel

theorem length_localTimeType (type : LocalTimeType) : type.bytes.length = 6 := by
  rw [LocalTimeType.bytes, List.length_append, length_signedBytes]
  rfl

theorem TzifData.Sound.length_bytes (sound : data.Sound timeSize) :
    (data.bytes version timeSize).length = data.length timeSize := by
  simp only [TzifData.bytes, TzifData.fields, List.flatten_cons, List.flatten_nil, List.length_append,
    List.length_nil, List.length_singleton, sound.reserved, length_beBytes, sound.indices, sound.leaps,
    length_table (length_signedBytes timeSize), length_table length_localTimeType, TzifData.length,
    length_magic]
  ring

structure TzifData.Placed (data : TzifData) (version : UInt8) (text : List UInt8) (start timeSize : ℕ) :
    Prop where
  magic : Stands text start magic
  version : Stands text (start + 4) [version]
  reserved : Stands text (start + 5) data.reserved
  gmtCount : Stands text (start + 20) (beBytes 4 data.gmt.length)
  standardCount : Stands text (start + 24) (beBytes 4 data.standard.length)
  leapCount : Stands text (start + 28) (beBytes 4 data.leapCount)
  timeCount : Stands text (start + 32) (beBytes 4 data.times.length)
  typeCount : Stands text (start + 36) (beBytes 4 data.types.length)
  charCount : Stands text (start + 40) (beBytes 4 data.designations.length)
  times : Stands text (start + 44) (data.times.flatMap (signedBytes timeSize))
  indices : Stands text (start + 44 + data.times.length * timeSize) data.indices
  types : Stands text (start + 44 + data.times.length * timeSize + data.times.length)
    (data.types.flatMap LocalTimeType.bytes)
  designations : Stands text (start + 44 + data.times.length * timeSize + data.times.length +
    data.types.length * 6) data.designations
  leaps : Stands text (start + 44 + data.times.length * timeSize + data.times.length +
    data.types.length * 6 + data.designations.length) data.leaps
  standard : Stands text (start + 44 + data.times.length * timeSize + data.times.length +
    data.types.length * 6 + data.designations.length + data.leapCount * (timeSize + 4)) data.standard
  gmt : Stands text (start + 44 + data.times.length * timeSize + data.times.length +
    data.types.length * 6 + data.designations.length + data.leapCount * (timeSize + 4) +
    data.standard.length) data.gmt

theorem TzifData.Sound.stands_iff (sound : data.Sound timeSize) :
    Stands text start (data.bytes version timeSize) ↔ data.Placed version text start timeSize := by
  rw [TzifData.bytes, stands_flatten]
  simp only [TzifData.fields, Laid, List.length_singleton, sound.reserved, length_beBytes, sound.indices,
    sound.leaps, length_table (length_signedBytes timeSize), length_table length_localTimeType, length_magic]
  constructor
  · rintro ⟨p1, p2, p3, p4, p5, p6, p7, p8, p9, p10, p11, p12, p13, p14, p15, p16, -⟩
    exact ⟨p1, p2, p3, p4, p5, p6, p7, p8, p9, p10, p11, p12, p13, p14, p15, p16⟩
  · intro placed
    have ended := placed.gmt.length_le
    exact ⟨placed.magic, placed.version, placed.reserved, placed.gmtCount, placed.standardCount,
      placed.leapCount, placed.timeCount, placed.typeCount, placed.charCount, placed.times, placed.indices,
      placed.types, placed.designations, placed.leaps, placed.standard, placed.gmt, by omega⟩

theorem TzifData.Sound.counts_le (sound : data.Sound timeSize) (sized : timeSize = 4 ∨ timeSize = 8) :
    data.gmt.length ≤ data.length timeSize ∧ data.standard.length ≤ data.length timeSize ∧
      data.leapCount ≤ data.length timeSize ∧ data.times.length ≤ data.length timeSize ∧
      data.types.length ≤ data.length timeSize ∧ data.designations.length ≤ data.length timeSize := by
  rw [TzifData.length]
  rcases sized with rfl | rfl <;> omega

end Data

section Blocks

variable {truncated indexTable overflow short : String} {data : TzifData} {version : UInt8}
  {bytes : List UInt8} {start timeSize : ℕ} {counts : Counts} {block : TzifBlock}

theorem readCounts_eq_ok : readCounts truncated bytes start = .ok counts ↔
    (counts.gmt < 2 ^ 32 ∧ Stands bytes (start + 20) (beBytes 4 counts.gmt)) ∧
    (counts.standard < 2 ^ 32 ∧ Stands bytes (start + 24) (beBytes 4 counts.standard)) ∧
    (counts.leap < 2 ^ 32 ∧ Stands bytes (start + 28) (beBytes 4 counts.leap)) ∧
    (counts.time < 2 ^ 32 ∧ Stands bytes (start + 32) (beBytes 4 counts.time)) ∧
    (counts.type < 2 ^ 32 ∧ Stands bytes (start + 36) (beBytes 4 counts.type)) ∧
    (counts.char < 2 ^ 32 ∧ Stands bytes (start + 40) (beBytes 4 counts.char)) := by
  simp only [readCounts, bind_eq_ok, readU32_eq_ok, pure, Except.pure, Except.ok.injEq]
  constructor
  · rintro ⟨gmt, first, standard, second, leap, third, time, fourth, type, fifth, char, sixth, rfl⟩
    exact ⟨first, second, third, fourth, fifth, sixth⟩
  · rintro ⟨first, second, third, fourth, fifth, sixth⟩
    exact ⟨_, first, _, second, _, third, _, fourth, _, fifth, _, sixth, rfl⟩

theorem readOffset_eq_ok {cursor : ℕ} {offset : ℤ} (room : cursor + 6 ≤ bytes.length) :
    readI32 truncated bytes cursor = .ok offset ↔
      ∃ type : LocalTimeType, type.offset = offset ∧ Fits 4 type.offset ∧ Stands bytes cursor type.bytes := by
  rw [readI32_eq_ok]
  constructor
  · rintro ⟨fits, stands⟩
    obtain ⟨field, two, behind⟩ := exists_stands (show cursor + 4 + 2 ≤ bytes.length from room)
    obtain ⟨isDaylight, designation, rfl⟩ := List.length_eq_two.mp two
    refine ⟨⟨offset, isDaylight, designation⟩, rfl, fits, ?_⟩
    rw [LocalTimeType.bytes, stands_append, length_signedBytes]
    exact ⟨stands, behind⟩
  · rintro ⟨type, rfl, fits, stands⟩
    rw [LocalTimeType.bytes, stands_append] at stands
    exact ⟨fits, stands.1⟩

theorem readTables_eq_ok (sized : timeSize = 4 ∨ timeSize = 8)
    (room : start + 44 + (counts.time * timeSize + counts.time) +
      (counts.type * 6 + counts.tail timeSize) ≤ bytes.length) (small : bytes.length < 2 ^ 64) :
    readTables truncated bytes indexTable overflow short start timeSize counts = .ok block ↔
      ∃ (times : List ℤ) (indices : List UInt8) (types : List LocalTimeType),
        (times.length = counts.time ∧ (∀ time ∈ times, Fits timeSize time) ∧
          Stands bytes (start + 44) (times.flatMap (signedBytes timeSize))) ∧
        (indices.length = counts.time ∧ Stands bytes (start + 44 + counts.time * timeSize) indices) ∧
        (types.length = counts.type ∧ (∀ type ∈ types, Fits 4 type.offset) ∧
          Stands bytes (start + 44 + counts.time * timeSize + counts.time)
            (types.flatMap LocalTimeType.bytes)) ∧
        block = ⟨start + 44 + counts.time * timeSize + counts.time + counts.type * 6 + counts.tail timeSize,
          times, indices, types.map LocalTimeType.offset, counts.leap⟩ := by
  have times (l : List ℤ) := @readEach_eq_ok bytes counts.time ℤ ℤ (readTime truncated bytes timeSize)
    timeSize (signedBytes timeSize) id (Fits timeSize) (length_signedBytes timeSize)
    (fun cursor b _ => by simp only [readTime_eq_ok sized, id, exists_eq_left]) (start + 44) (by omega) l
  have types (l : List ℤ) := @readEach_eq_ok bytes counts.type LocalTimeType ℤ (readI32 truncated bytes)
    6 LocalTimeType.bytes LocalTimeType.offset (fun type => Fits 4 type.offset) length_localTimeType
    (fun cursor b inside => readOffset_eq_ok inside)
    (start + 44 + counts.time * timeSize + counts.time) (by omega) l
  simp only [readTables, bind_eq_ok, elim_eq_ok, refuse_eq_ok, at?_eq_some, times, types, pure, Except.pure,
    Except.ok.injEq, List.map_id, exists_eq_left]
  constructor
  · rintro ⟨times, first, _, ⟨indices, second, rfl⟩, _, ⟨types, rfl, third⟩, _, -, _, -, rfl⟩
    exact ⟨times, indices, types, first, second, third, rfl⟩
  · rintro ⟨times, indices, types, first, second, third, rfl⟩
    exact ⟨times, first, indices, ⟨_, second, rfl⟩, _, ⟨types, rfl, third⟩, (), by omega, (), by omega, rfl⟩

theorem GlobalTime.parseTzifBlock_eq_ok (sized : timeSize = 4 ∨ timeSize = 8)
    (small : bytes.length ≤ maxTzifBytes) :
    GlobalTime.parseTzifBlock bytes start timeSize = .ok block ↔
      ∃ (version : UInt8) (data : TzifData), data.Sound timeSize ∧
        Stands bytes start (data.bytes version timeSize) ∧ block = data.block start timeSize := by
  have narrow : bytes.length < 2 ^ 64 := small.trans_lt (by decide)
  simp only [GlobalTime.parseTzifBlock, bind_eq_ok, refuse_eq_ok, readCounts_eq_ok]
  constructor
  · rintro ⟨_, header, counts, ⟨gmtCount, standardCount, leapCount, time, type, charCount⟩, _, limited,
      _, -, _, inside, read⟩
    rw [not_or, not_lt, not_not] at header
    rw [not_or, not_or, not_lt] at limited
    rw [not_or, not_lt] at inside
    obtain ⟨times, indices, types, ⟨timeLength, fitting, timesStand⟩, ⟨indexLength, indicesStand⟩,
      ⟨typeLength, fitting', typesStand⟩, rfl⟩ := (readTables_eq_ok sized inside.1 narrow).mp read
    obtain ⟨gmtLength, standardLength, leap, _, _, charLength⟩ := counts
    dsimp only at *
    subst timeLength typeLength
    have room := inside.1
    rw [Counts.tail] at room
    dsimp only at room
    obtain ⟨version, one, versionStands⟩ := exists_stands (show start + 4 + 1 ≤ bytes.length by omega)
    obtain ⟨reserved, fifteen, reservedStands⟩ := exists_stands (show start + 5 + 15 ≤ bytes.length by omega)
    obtain ⟨designations, rfl, designationsStand⟩ := exists_stands (show start + 44 +
      times.length * timeSize + times.length + types.length * 6 + charLength ≤ bytes.length by omega)
    obtain ⟨leaps, leapsLength, leapsStand⟩ := exists_stands (show start + 44 + times.length * timeSize +
      times.length + types.length * 6 + designations.length + leap * (timeSize + 4) ≤ bytes.length by omega)
    obtain ⟨standard, rfl, standardStand⟩ := exists_stands (show start + 44 + times.length * timeSize +
      times.length + types.length * 6 + designations.length + leap * (timeSize + 4) + standardLength ≤
        bytes.length by omega)
    obtain ⟨gmt, rfl, gmtStand⟩ := exists_stands (show start + 44 + times.length * timeSize +
      times.length + types.length * 6 + designations.length + leap * (timeSize + 4) + standard.length +
        gmtLength ≤ bytes.length by omega)
    obtain ⟨letter, rfl⟩ := List.length_eq_one_iff.mp one
    have sound : TzifData.Sound ⟨reserved, gmt, standard, leap, leaps, times, indices, types, designations⟩
        timeSize := ⟨fifteen, fitting, indexLength, fitting', leapsLength, by dsimp only; omega⟩
    have magicStands : Stands bytes start magic :=
      stands_iff_slice.mpr ⟨by rw [length_magic]; omega, by rw [length_magic]; exact header.2⟩
    refine ⟨letter, _, sound, sound.stands_iff.mpr ⟨magicStands, versionStands, reservedStands, gmtCount.2,
      standardCount.2, leapCount.2, time.2, type.2, charCount.2, timesStand, indicesStand, typesStand,
      designationsStand, leapsStand, standardStand, gmtStand⟩, ?_⟩
    rw [TzifData.block, TzifData.length]
    simp only [Counts.tail, Nat.add_assoc]
  · rintro ⟨version, data, sound, stands, rfl⟩
    have room := stands.length_le
    rw [sound.length_bytes] at room
    have counted := sound.counts_le sized
    have placed := sound.stands_iff.mp stands
    have first := (stands_iff_slice.mp placed.magic).2
    rw [length_magic] at first
    have whole : start + 44 + (data.counts.time * timeSize + data.counts.time) +
        (data.counts.type * 6 + data.counts.tail timeSize) = start + data.length timeSize := by
      rw [TzifData.length, TzifData.counts, Counts.tail]
      ring
    have most : maxTzifBytes < 2 ^ 32 := by decide
    have types := sound.typeCount
    refine ⟨(), ?_, data.counts, ?_, (), ?_, (), ?_, (), ?_,
      (readTables_eq_ok sized (whole ▸ room) narrow).mpr ⟨data.times, data.indices, data.types,
        ⟨rfl, sound.times, placed.times⟩, ⟨sound.indices, placed.indices⟩,
        ⟨rfl, sound.types, placed.types⟩, ?_⟩⟩
    · rw [not_or, not_lt, not_not]
      exact ⟨by rw [TzifData.length] at room; omega, first⟩
    · exact ⟨⟨by change data.gmt.length < _; omega, placed.gmtCount⟩,
        ⟨by change data.standard.length < _; omega, placed.standardCount⟩,
        ⟨by change data.leapCount < _; omega, placed.leapCount⟩,
        ⟨by change data.times.length < _; omega, placed.timeCount⟩,
        ⟨by change data.types.length < _; omega, placed.typeCount⟩,
        by change data.designations.length < _; omega, placed.charCount⟩
    · change ¬ (data.types.length = 0 ∨ 256 < data.types.length ∨ maxTzifBytes < data.times.length)
      omega
    · rw [whole]
      omega
    · rw [whole]
      omega
    · rw [TzifData.block, TzifData.length, TzifData.counts, Counts.tail]
      simp only [Nat.add_assoc]

end Blocks

section Files

def FooterRule (version : UInt8) (footer : List UInt8) (rule : Option PosixTimeZone) : Prop :=
  if footer = [] then rule = none
  else ∃ parsed, PosixTimeZone.parse footer (0x33 ≤ version) = .ok parsed ∧ rule = some parsed

inductive TzifFile
  | single (data : TzifData)
  | double (version : UInt8) (first second : TzifData) (footer : List UInt8)
  deriving DecidableEq

namespace TzifFile

def bytes : TzifFile → List UInt8
  | single data => data.bytes 0 4
  | double version first second footer =>
    first.bytes version 4 ++ (second.bytes version 8 ++ (10 :: (footer ++ [10])))

/-- The block that is read. -/
def used : TzifFile → TzifData
  | single data => data
  | double _ _ second _ => second

def Sound : TzifFile → Prop
  | single data => data.Sound 4
  | double version first second footer =>
    isExtended version = true ∧ first.Sound 4 ∧ second.Sound 8 ∧ 10 ∉ footer

def footer : TzifFile → List UInt8
  | single _ => []
  | double _ _ _ footer => footer

def Rules (file : TzifFile) (rule : Option PosixTimeZone) : Prop :=
  match file with
  | single _ => rule = none
  | double version _ _ footer => FooterRule version footer rule

end TzifFile

def TzifData.transitions (data : TzifData) : List (ℤ × ℤ) :=
  (data.times.zip data.indices).map fun (time, index) =>
    (time, (data.types.map LocalTimeType.offset).getD index.toNat 0)

def TzifData.initialOffset (data : TzifData) : ℤ := (data.types.map LocalTimeType.offset).headD 0

structure TzifFile.WellFormed (file : TzifFile) : Prop where
  sound : file.Sound
  noLeaps : file.used.leapCount = 0
  increasing : file.used.times.IsChain (· < ·)
  inRange : ∀ index ∈ file.used.indices, index.toNat < file.used.types.length

structure TzifFile.Decodes (sort : List (ℤ × ℤ) → List (ℤ × ℤ)) (file : TzifFile)
    (zone : GlobalTime.TzifZone) : Prop where
  wellFormed : file.WellFormed
  transitions : zone.transitions = file.used.transitions
  initial : zone.initialOffset = file.used.initialOffset
  rules : file.Rules zone.futureRule
  agrees : ∀ rule ∈ zone.futureRule, ∀ last ∈ zone.transitions.getLast?,
    rule.offsetAt sort last.1 = last.2

variable {sort : List (ℤ × ℤ) → List (ℤ × ℤ)} {bytes footer : List UInt8} {start : ℕ} {data : TzifData}
  {version : UInt8} {zone : GlobalTime.TzifZone}

theorem parseTzifFooter_eq_ok : GlobalTime.parseTzifFooter bytes start = .ok footer ↔
    10 ∉ footer ∧ Stands bytes start (10 :: (footer ++ [10])) ∧
      start + footer.length + 2 = bytes.length := by
  simp only [GlobalTime.parseTzifFooter, check_eq_ok, refuse_eq_ok, pure, Except.pure, Except.ok.injEq, not_not]
  constructor
  · rintro ⟨opened, closed, ended, rfl⟩
    obtain ⟨inside, first⟩ := List.getElem?_eq_some_iff.mp opened
    have line : 10 ∉ (bytes.drop (start + 1)).takeWhile (· ≠ 10) := by
      intro member
      have other := List.mem_takeWhile_imp (p := fun byte : UInt8 => decide (byte ≠ 10)) member
      exact of_decide_eq_true other rfl
    have parts := @List.takeWhile_append_dropWhile _ (· ≠ (10 : UInt8)) (bytes.drop (start + 1))
    have counted := congrArg List.length parts
    rw [List.length_append, List.length_drop] at counted
    obtain ⟨last, single⟩ := List.length_eq_one_iff.mp
      (show ((bytes.drop (start + 1)).dropWhile (· ≠ (10 : UInt8))).length = 1 by omega)
    have feed : last = 10 := by
      have stopped := List.head?_dropWhile_not (· ≠ (10 : UInt8)) (bytes.drop (start + 1))
      rw [single] at stopped
      simpa using stopped
    rw [single, feed] at parts
    refine ⟨line, ⟨bytes.take start, [], ?_, List.length_take_of_le inside.le⟩, by omega⟩
    rw [List.append_nil, parts, ← first, List.getElem_cons_drop, List.take_append_drop]
  · rintro ⟨line, ⟨before, rest, rfl, rfl⟩, ended⟩
    simp only [List.length_append, List.length_cons, List.length_nil] at ended
    obtain rfl := List.length_eq_zero_iff.mp (show rest.length = 0 by omega)
    have behind : (before ++ (10 :: (footer ++ [10]) ++ [])).drop (before.length + 1) = footer ++ [10] := by
      rw [List.append_nil, ← List.drop_drop, List.drop_left]
      rfl
    have taken : (footer ++ [10]).takeWhile (· ≠ (10 : UInt8)) = footer := by
      have other : ∀ byte ∈ footer, decide (byte ≠ 10) = true := fun byte member =>
        decide_eq_true fun same : byte = 10 => line (same ▸ member)
      rw [List.takeWhile_append_of_pos other]
      exact List.append_nil footer
    have opened : (before ++ (10 :: (footer ++ [10]) ++ []))[before.length]? = some 10 := by
      rw [List.getElem?_append_right le_rfl, Nat.sub_self]
      rfl
    rw [behind, taken]
    refine ⟨opened, ?_, ?_, rfl⟩
    · rw [List.length_append]
      exact Nat.succ_ne_self _
    · simp only [List.length_append, List.length_cons, List.length_nil]
      omega

theorem resolveTransitions_eq_ok {outOfRange : String} {timeSize : ℕ} {transitions : List (ℤ × ℤ)}
    (sound : data.Sound timeSize) :
    resolveTransitions outOfRange (data.block start timeSize) = .ok transitions ↔
      (∀ index ∈ data.indices, index.toNat < data.types.length) ∧ transitions = data.transitions := by
  have each (pair : ℤ × UInt8) (transition : ℤ × ℤ) :
      ((data.types.map LocalTimeType.offset)[pair.2.toNat]?.elim (.error outOfRange) fun offset =>
        .ok (pair.1, offset)) = (.ok transition : Except String (ℤ × ℤ)) ↔
      pair.2.toNat < data.types.length ∧
        transition = (pair.1, (data.types.map LocalTimeType.offset).getD pair.2.toNat 0) := by
    rw [elim_eq_ok, List.getD_eq_getElem?_getD]
    by_cases inside : pair.2.toNat < data.types.length
    · rw [List.getElem?_eq_getElem (by rwa [List.length_map])]
      simp [inside, eq_comm]
    · rw [List.getElem?_eq_none (by rw [List.length_map]; omega)]
      exact iff_of_false nofun fun other => inside other.1
  have pairs : (data.times.zip data.indices).map Prod.snd = data.indices :=
    List.map_snd_zip sound.indices.le
  refine (mapM_eq_ok_map each).trans (and_congr_left fun _ => ?_)
  change (∀ pair ∈ data.times.zip data.indices, pair.2.toNat < data.types.length) ↔ _
  rw [← List.forall_mem_map (f := Prod.snd) (P := fun index : UInt8 => index.toNat < data.types.length), pairs]

end Files

end Boreal.TimeZones
