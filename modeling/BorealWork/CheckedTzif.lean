/- The reader of time-zone files as the machine runs it: it never traps, and makes of a file what the
reader over unbounded numbers makes of it. -/
import BorealWork.CheckedFooter
import BorealWork.TzifFormat

namespace Boreal.TimeZones.Machine
open Drain Traps Fields
open GlobalTime (maxTzifBytes)
open Source (fromBeBytes)

section Tables

variable (bytes : List UInt8)

/-- A sum that stops at the largest number. -/
def saturatingAdd (value added : ℕ) : ℕ := min (value + added) (2 ^ 64 - 1)

/-- A conversion to an array traps on a slice of another length. -/
def array (count : ℕ) (value : List UInt8) : Option (List UInt8) :=
  if value.length = count then some value else none

def readNumber (count offset : ℕ) : Trapping String ℕ := do
  let value ← ((slice bytes offset (saturatingAdd offset count)).elim (.error "truncated TZif integer") .ok :
    Except String (List UInt8))
  let value ← liftM (array count value)
  return fromBeBytes value

def readU32 (offset : ℕ) : Trapping String ℕ := readNumber bytes 4 offset

def readI32 (offset : ℕ) : Trapping String ℤ := do
  return Int.bmod (← readU32 bytes offset) (2 ^ 32)

def readI64 (offset : ℕ) : Trapping String ℤ := do
  return Int.bmod (← readNumber bytes 8 offset) (2 ^ 64)

def readTime (timeSize offset : ℕ) : Trapping String ℤ :=
  if timeSize = 8 then readI64 bytes offset else readI32 bytes offset

def readEach {α : Type} (read : ℕ → Trapping String α) (width : ℕ) : ℕ → ℕ → Trapping String (List α × ℕ)
  | cursor, 0 => return ([], cursor)
  | cursor, count + 1 => do
    let value ← read cursor
    let cursor ← liftM (usize (cursor + width))
    let (values, cursor) ← readEach read width cursor count
    return (value :: values, cursor)

def lacksMagic (start : ℕ) : Option Bool :=
  if bytes.length < saturatingAdd start 44 then some true
  else do
    let stop ← usize (start + 4)
    let head ← slice bytes start stop
    return decide (head ≠ magic)

def readCount (start index : ℕ) : Trapping String ℕ := do
  let first ← liftM (usize (start + 20))
  let behind ← liftM (usize (index * 4))
  let offset ← liftM (usize (first + behind))
  readU32 bytes offset

def readCounts (start : ℕ) : Trapping String Counts := do
  let counts ← [0, 1, 2, 3, 4, 5].mapM (readCount bytes start)
  return ⟨← liftM counts[0]?, ← liftM counts[1]?, ← liftM counts[2]?, ← liftM counts[3]?, ← liftM counts[4]?,
    ← liftM counts[5]?⟩

/-- An operation that is checked for its result. -/
def sized (size : Option ℕ) : Except String ℕ := size.elim (.error "TZif block size overflow") .ok

def stopOf (start timeSize : ℕ) (counts : Counts) : Trapping String ℕ := do
  let transitionBytes ← sized (usize (counts.time * timeSize))
  let transitionBytes ← sized (usize (transitionBytes + counts.time))
  let fixedBytes ← sized (usize (counts.type * 6))
  let fixedBytes ← sized (usize (fixedBytes + counts.char))
  let width ← liftM (usize (timeSize + 4))
  let leaps ← sized (usize (counts.leap * width))
  let fixedBytes ← sized (usize (fixedBytes + leaps))
  let fixedBytes ← sized (usize (fixedBytes + counts.standard))
  let fixedBytes ← sized (usize (fixedBytes + counts.gmt))
  let stop ← sized (usize (start + 44))
  let stop ← sized (usize (stop + transitionBytes))
  sized (usize (stop + fixedBytes))

def isOversized (start stop : ℕ) : Option Bool :=
  if bytes.length < stop then some true
  else (minus stop start).map fun size => decide (maxTzifBytes < size)

def behindTail (timeSize cursor : ℕ) (counts : Counts) : Trapping String ℕ := do
  let cursor ← sized (usize (cursor + counts.char))
  let width ← liftM (usize (timeSize + 4))
  let leaps ← liftM (usize (counts.leap * width))
  let cursor ← sized (usize (cursor + leaps))
  let cursor ← sized (usize (cursor + counts.standard))
  sized (usize (cursor + counts.gmt))

def readTables (start timeSize : ℕ) (counts : Counts) : Trapping String TzifBlock := do
  let cursor ← liftM (usize (start + 44))
  let (transitionTimes, cursor) ← readEach (readTime bytes timeSize) timeSize cursor counts.time
  let stop ← liftM (usize (cursor + counts.time))
  let transitionTypes ← ((slice bytes cursor stop).elim (.error "truncated TZif transition index table") .ok :
    Except String (List UInt8))
  let cursor ← liftM (usize (cursor + counts.time))
  let (offsets, cursor) ← readEach (readI32 bytes) 6 cursor counts.type
  let cursor ← behindTail timeSize cursor counts
  refuse (bytes.length < cursor) "truncated TZif data"
  return ⟨cursor, transitionTimes, transitionTypes, offsets, counts.leap⟩

def parseTzifBlock (start timeSize : ℕ) : Trapping String TzifBlock := do
  let invalid ← liftM (lacksMagic bytes start)
  refuse (invalid = true) "invalid TZif block"
  let counts ← readCounts bytes start
  refuse (counts.type = 0 ∨ 256 < counts.type ∨ maxTzifBytes < counts.time)
    "TZif count is outside the supported range"
  let stop ← stopOf start timeSize counts
  let oversized ← liftM (isOversized bytes start stop)
  refuse (oversized = true) "truncated or oversized TZif data"
  readTables bytes start timeSize counts

def parseTzifFooter (start : ℕ) : Trapping String (List UInt8) := do
  refuse (bytes[start]? ≠ some 10) "TZif footer is missing its opening newline"
  let footerStart ← liftM (usize (start + 1))
  let length ← (((slice bytes footerStart bytes.length).bind fun rest => rest.findIdx? (· = 10)).elim
    (.error "TZif footer is missing its closing newline") .ok : Except String ℕ)
  let footerEnd ← liftM (usize (footerStart + length))
  let next ← liftM (usize (footerEnd + 1))
  refuse (next ≠ bytes.length) "unexpected data after TZif footer"
  liftM (slice bytes footerStart footerEnd)

def readBlock (version : UInt8) (first : TzifBlock) :
    Trapping String (TzifBlock × Option PosixTimeZone) :=
  if isExtended version then do
    let place ← liftM (usize (first.stop + 4))
    refuse (bytes[place]? ≠ some version) "TZif extended block version does not match its header"
    let block ← parseTzifBlock bytes first.stop 8
    let footer ← parseTzifFooter bytes block.stop
    if footer = [] then return (block, none)
    else return (block, some (← PosixTimeZone.parse footer (0x33 ≤ version)))
  else return (first, none)

def compare (sort : List (ℤ × ℤ) → List (ℤ × ℤ)) (futureRule : Option PosixTimeZone)
    (transitions : List (ℤ × ℤ)) : Trapping String Unit :=
  match futureRule, transitions.getLast? with
  | some rule, some last => do
    let offset ← liftM (PosixTimeZone.offsetAt sort rule last.1)
    refuse (offset ≠ last.2) "TZif POSIX footer disagrees with the final explicit transition"
  | _, _ => return ()

def TzifZone.parse (sort : List (ℤ × ℤ) → List (ℤ × ℤ)) : Trapping String GlobalTime.TzifZone := do
  let invalid ← liftM (lacksMagic bytes 0)
  refuse (invalid = true) "system timezone file is not TZif data"
  refuse (maxTzifBytes < bytes.length) "system timezone file exceeds the size limit"
  let version ← liftM bytes[4]?
  refuse (version ≠ 0 ∧ isExtended version = false) "unsupported TZif version"
  let first ← parseTzifBlock bytes 0 4
  let (block, futureRule) ← readBlock bytes version first
  refuse (block.offsets = []) "system timezone has no local-time types"
  refuse (block.leapCount ≠ 0)
    "system timezone uses leap-second timestamps that this reader cannot resolve"
  refuse (¬ block.transitionTimes.IsChain (· < ·)) "TZif transitions are not strictly increasing"
  let transitions ← resolveTransitions "TZif transition type is out of range" block
  compare sort futureRule transitions
  let initialOffset ← liftM block.offsets[0]?
  return ⟨transitions, initialOffset, futureRule⟩

end Tables

section Settling

variable {bytes : List UInt8} {start timeSize count offset : ℕ} {counts : Counts}

theorem usize_eq {value : ℕ} (small : value < 2 ^ 64) : usize value = some value := unsigned_of_lt small

theorem slice_eq_at? : slice bytes offset (offset + count) = at? bytes offset count := by
  rw [slice, at?, Nat.add_sub_cancel_left]
  by_cases room : offset + count ≤ bytes.length
  · rw [if_pos room, if_pos ⟨Nat.le_add_right _ _, room⟩]
  · rw [if_neg room, if_neg fun both => room both.2]

theorem readNumber_settles (inside : offset + count < 2 ^ 64) : Settles (readNumber bytes count offset)
    ((at? bytes offset count).elim (.error "truncated TZif integer") fun value => .ok (fromBeBytes value)) := by
  have sum : saturatingAdd offset count = offset + count := min_eq_left (by omega)
  rw [readNumber, sum, slice_eq_at?]
  cases found : at? bytes offset count with
  | none => rfl
  | some value =>
    exact .known (Settles.pure value) (.passes (if_pos (at?_eq_some.mp found).1) rfl)

theorem readU32_settles (inside : offset + 4 < 2 ^ 64) : Settles (readU32 bytes offset)
    (TimeZones.readU32 "truncated TZif integer" bytes offset) := readNumber_settles inside

theorem readTime_settles (sized : timeSize = 4 ∨ timeSize = 8) (inside : offset + 8 < 2 ^ 64) :
    Settles (readTime bytes timeSize offset)
      (TimeZones.readTime "truncated TZif integer" bytes timeSize offset) := by
  rcases sized with rfl | rfl
  · exact (readU32_settles (by omega)).bind fun value _ => .pure _
  · have read : TimeZones.readTime "truncated TZif integer" bytes 8 offset =
        (at? bytes offset 8).elim (.error "truncated TZif integer") (fun value => .ok (fromBeBytes value)) >>=
          fun n => .ok (Int.bmod n (2 ^ 64)) := by
      change TimeZones.readI64 "truncated TZif integer" bytes offset = _
      rw [TimeZones.readI64]
      cases at? bytes offset 8 <;> rfl
    rw [read]
    exact (readNumber_settles (by omega)).bind fun value _ => .pure _

theorem map_bind {α β γ : Type} {first : Except String α} {f : α → Except String β} {h : β → γ} :
    (first >>= f).map h = first >>= fun a => (f a).map h := by
  cases first <;> rfl

theorem readEach_settles {α : Type} {read : ℕ → Trapping String α} {read' : ℕ → Except String α}
    {width cursor : ℕ} (each : ∀ cursor, cursor + 8 < 2 ^ 64 → Settles (read cursor) (read' cursor))
    (room : cursor + count * width + 8 < 2 ^ 64) : Settles (readEach read width cursor count)
      ((TimeZones.readEach read' width cursor count).map fun values => (values, cursor + count * width)) := by
  induction count generalizing cursor with
  | zero =>
    rw [Nat.zero_mul]
    rfl
  | succ count ih =>
    rw [Nat.succ_mul] at room ⊢
    rw [readEach, TimeZones.readEach, map_bind]
    refine (each cursor (by omega)).bind fun value _ => .passes (usize_eq (by omega)) ?_
    rw [map_bind]
    refine (ih (by omega)).bind_map fun values _ => ?_
    exact congrArg (fun n => some (Except.ok (value :: values, n))) (by omega)

theorem readCount_settles {index : ℕ} (few : index < 6) (inside : start + 44 < 2 ^ 64) :
    Settles (readCount bytes start index)
      (TimeZones.readU32 "truncated TZif integer" bytes (start + 20 + index * 4)) :=
  .passes (usize_eq (by omega)) (.passes (usize_eq (by omega)) (.passes (usize_eq (by omega))
    (readU32_settles (by omega))))

theorem readCounts_settles (inside : start + 44 < 2 ^ 64) : Settles (readCounts bytes start)
    (TimeZones.readCounts "truncated TZif integer" bytes start) := by
  simp only [readCounts, List.mapM_cons, List.mapM_nil, bind_assoc, pure_bind]
  refine (readCount_settles (by decide) inside).bind fun gmt _ => ?_
  refine (readCount_settles (by decide) inside).bind fun standard _ => ?_
  refine (readCount_settles (by decide) inside).bind fun leap _ => ?_
  refine (readCount_settles (by decide) inside).bind fun time _ => ?_
  refine (readCount_settles (by decide) inside).bind fun type _ => ?_
  exact (readCount_settles (by decide) inside).bind fun char _ => rfl

theorem settles_sized {α : Type} {size : ℕ} {f : ℕ → Trapping String α} {y : Except String α}
    (fits : size < 2 ^ 64 → Settles (f size) y)
    (overflows : 2 ^ 64 ≤ size → y = .error "TZif block size overflow") :
    Settles ((liftM (sized (usize size)) : Trapping String ℕ) >>= f) y := by
  by_cases small : size < 2 ^ 64
  · rw [usize_eq small]
    exact fits small
  · rw [usize, unsigned, if_neg small, overflows (not_lt.mp small)]
    rfl

theorem stopOf_settles (sized : timeSize = 4 ∨ timeSize = 8) :
    Settles (stopOf start timeSize counts) ((refuse (2 ^ 64 ≤ start + 44 +
      (counts.time * timeSize + counts.time) + (counts.type * 6 + counts.tail timeSize))
        "TZif block size overflow").map fun _ => start + 44 + (counts.time * timeSize + counts.time) +
          (counts.type * 6 + counts.tail timeSize)) := by
  have width : usize (timeSize + 4) = some (timeSize + 4) := usize_eq (by omega)
  rw [Counts.tail]
  generalize same : start + 44 + (counts.time * timeSize + counts.time) + (counts.type * 6 +
    (counts.char + counts.leap * (timeSize + 4) + counts.standard + counts.gmt)) = stop
  have overflow {size : ℕ} (big : 2 ^ 64 ≤ size) (part : size ≤ stop) :
      (refuse (2 ^ 64 ≤ stop) "TZif block size overflow").map (fun _ => stop) =
        .error "TZif block size overflow" := by
    rw [refuse, if_pos (big.trans part)]
    rfl
  refine settles_sized (fun _ => ?_) fun big => overflow big (by omega)
  refine settles_sized (fun _ => ?_) fun big => overflow big (by omega)
  refine settles_sized (fun _ => ?_) fun big => overflow big (by omega)
  refine settles_sized (fun _ => .passes width ?_) fun big => overflow big (by omega)
  refine settles_sized (fun _ => ?_) fun big => overflow big (by omega)
  refine settles_sized (fun _ => ?_) fun big => overflow big (by omega)
  refine settles_sized (fun _ => ?_) fun big => overflow big (by omega)
  refine settles_sized (fun _ => ?_) fun big => overflow big (by omega)
  refine settles_sized (fun _ => ?_) fun big => overflow big (by omega)
  refine settles_sized (fun _ => ?_) fun big => overflow big (by omega)
  have whole : start + 44 + (counts.time * timeSize + counts.time) + (counts.type * 6 + counts.char +
      counts.leap * (timeSize + 4) + counts.standard + counts.gmt) = stop := by omega
  rw [whole]
  by_cases small : stop < 2 ^ 64
  · rw [usize_eq small, refuse_of_not (not_le.mpr small)]
    rfl
  · rw [overflow (not_lt.mp small) le_rfl, usize, unsigned, if_neg small]
    rfl

theorem lacksMagic_eq (inside : start + 44 < 2 ^ 64) : lacksMagic bytes start =
    some (decide (bytes.length < start + 44 ∨ (bytes.drop start).take 4 ≠ magic)) := by
  have sum : saturatingAdd start 44 = start + 44 := min_eq_left (by omega)
  rw [lacksMagic, sum]
  by_cases short : bytes.length < start + 44
  · rw [if_pos short, decide_eq_true (Or.inl short)]
  · rw [if_neg short, usize_eq (by omega)]
    simp only [Option.bind_eq_bind, Option.bind_some]
    rw [slice_of_le (by omega) (by omega), Nat.add_sub_cancel_left]
    simp [short]

theorem isOversized_eq {stop : ℕ} (ordered : start ≤ stop) : isOversized bytes start stop =
    some (decide (bytes.length < stop ∨ maxTzifBytes < stop - start)) := by
  rw [isOversized]
  by_cases short : bytes.length < stop
  · rw [if_pos short, decide_eq_true (Or.inl short)]
  · rw [if_neg short, minus_of_le ordered]
    simp [short]

theorem refuse_decide {c : Prop} [Decidable c] {message : String} :
    refuse (decide c = true) message = refuse c message := by
  simp only [refuse, decide_eq_true_eq]

theorem behindTail_settles {cursor : ℕ} (sized : timeSize = 4 ∨ timeSize = 8)
    (inside : cursor + counts.tail timeSize < 2 ^ 64) :
    Settles (behindTail timeSize cursor counts) (.ok (cursor + counts.tail timeSize)) := by
  rw [Counts.tail] at inside ⊢
  have fits {size : ℕ} (small : size < 2 ^ 64) : Settles (liftM (Machine.sized (usize size)) :
      Trapping String ℕ) (.ok size) := by
    rw [usize_eq small]
    rfl
  refine (fits (by omega)).known (.passes (usize_eq (by omega)) (.passes (usize_eq (by omega)) ?_))
  refine (fits (by omega)).known ((fits (by omega)).known ?_)
  rw [show cursor + (counts.char + counts.leap * (timeSize + 4) + counts.standard + counts.gmt) =
    cursor + counts.char + counts.leap * (timeSize + 4) + counts.standard + counts.gmt by omega]
  exact fits (by omega)

theorem readTables_settles (sized : timeSize = 4 ∨ timeSize = 8)
    (room : start + 44 + (counts.time * timeSize + counts.time) +
      (counts.type * 6 + counts.tail timeSize) ≤ bytes.length) (small : bytes.length + 64 < 2 ^ 64) :
    Settles (readTables bytes start timeSize counts) (TimeZones.readTables "truncated TZif integer" bytes
      "truncated TZif transition index table" "TZif block size overflow" "truncated TZif data" start timeSize
        counts) := by
  rw [readTables, TimeZones.readTables]
  refine .passes (usize_eq (by omega)) ?_
  refine (readEach_settles (fun cursor inside => readTime_settles sized inside) (by omega)).bind_map
    fun times _ => .passes (usize_eq (by omega)) ?_
  rw [slice_eq_at?]
  refine .step fun types _ => .passes (usize_eq (by omega)) ?_
  refine (readEach_settles (fun cursor inside => ?_) (by omega)).bind_map fun offsets _ => ?_
  · exact readTime_settles (.inl rfl) inside
  · refine (behindTail_settles sized (by omega)).known ?_
    have fits : ¬ 2 ^ 64 ≤ start + 44 + counts.time * timeSize + counts.time + counts.type * 6 +
      counts.tail timeSize := by omega
    dsimp only
    rw [refuse_of_not fits, ok_bind]
    exact .step fun _ _ => .pure _

theorem parseTzifBlock_settles (sized : timeSize = 4 ∨ timeSize = 8) (begun : start ≤ bytes.length)
    (small : bytes.length + 64 < 2 ^ 64) : Settles (parseTzifBlock bytes start timeSize)
      (GlobalTime.parseTzifBlock bytes start timeSize) := by
  rw [parseTzifBlock, GlobalTime.parseTzifBlock]
  refine .passes (lacksMagic_eq (by omega)) ?_
  rw [refuse_decide]
  refine .step fun _ _ => (readCounts_settles (by omega)).bind fun counts _ => .step fun _ _ => ?_
  refine (stopOf_settles sized).bind_map fun _ _ => .passes (isOversized_eq (by omega)) ?_
  rw [refuse_decide]
  refine .step fun _ inside => ?_
  rw [refuse_eq_ok, not_or, not_lt] at inside
  exact readTables_settles sized inside.1 small

theorem findIdx?_feed (rest : List UInt8) : rest.findIdx? (· = 10) =
    if rest.length = (rest.takeWhile (· ≠ 10)).length then none
    else some (rest.takeWhile (· ≠ 10)).length := by
  induction rest with
  | nil => rfl
  | cons byte rest ih =>
    by_cases feed : byte = 10
    · rw [List.findIdx?_cons, List.takeWhile_cons]
      simp [feed]
    · rw [List.findIdx?_cons, List.takeWhile_cons]
      rw [ih]
      simp [feed, apply_ite]

theorem parseTzifFooter_settles (small : bytes.length + 64 < 2 ^ 64) :
    Settles (parseTzifFooter bytes start) (GlobalTime.parseTzifFooter bytes start) := by
  rw [parseTzifFooter, GlobalTime.parseTzifFooter]
  refine .step fun _ opened => ?_
  rw [refuse_eq_ok, not_not] at opened
  obtain ⟨inside, -⟩ := List.getElem?_eq_some_iff.mp opened
  refine .passes (usize_eq (by omega)) ?_
  have rest : slice bytes (start + 1) bytes.length = some (bytes.drop (start + 1)) := by
    rw [slice_of_le inside le_rfl, List.take_of_length_le (by rw [List.length_drop])]
  rw [rest, Option.bind_some, findIdx?_feed]
  dsimp only
  by_cases closed : (bytes.drop (start + 1)).length =
      ((bytes.drop (start + 1)).takeWhile (· ≠ 10)).length
  · rw [if_pos closed, refuse, if_pos closed]
    rfl
  · have within := (List.takeWhile_prefix (· ≠ (10 : UInt8)) (l := bytes.drop (start + 1))).length_le
    rw [List.length_drop] at within
    rw [if_neg closed, refuse_of_not closed, ok_bind]
    refine .known (Settles.pure _) (.passes (usize_eq (by omega)) (.passes (usize_eq (by omega)) ?_))
    refine .step fun _ ended => ?_
    rw [refuse_eq_ok, not_not] at ended
    have taken : ((bytes.drop (start + 1)).take ((bytes.drop (start + 1)).takeWhile (· ≠ 10)).length) =
        (bytes.drop (start + 1)).takeWhile (· ≠ 10) :=
      (List.prefix_iff_eq_take.mp (List.takeWhile_prefix _)).symm
    refine .operation ?_
    rw [slice_of_le (by omega) (by omega), Nat.add_sub_cancel_left, taken]

/-- What is known of a block that was read: it ends in the file, and its times are in 64 bits. -/
structure Bounded (bytes : List UInt8) (block : TzifBlock) : Prop where
  stop : block.stop ≤ bytes.length
  times : ∀ time ∈ block.transitionTimes, -2 ^ 63 ≤ time ∧ time < 2 ^ 63

theorem bounded_of_read {block : TzifBlock} (sized : timeSize = 4 ∨ timeSize = 8)
    (small : bytes.length ≤ maxTzifBytes)
    (read : GlobalTime.parseTzifBlock bytes start timeSize = .ok block) : Bounded bytes block := by
  obtain ⟨version, data, sound, stands, rfl⟩ := (GlobalTime.parseTzifBlock_eq_ok sized small).mp read
  have inside := stands.length_le
  rw [sound.length_bytes] at inside
  refine ⟨inside, fun time member => ?_⟩
  obtain ⟨low, high⟩ := sound.times time member
  rcases sized with rfl | rfl <;> omega

theorem readBlock_settles {version : UInt8} {first : TzifBlock} (small : bytes.length ≤ maxTzifBytes)
    (bounded : Bounded bytes first) :
    Settles (readBlock bytes version first) (GlobalTime.readBlock bytes version first) := by
  have most : maxTzifBytes < 2 ^ 32 := by decide
  have inside := bounded.stop
  rw [readBlock, GlobalTime.readBlock]
  refine .ite (fun _ => .passes (usize_eq (by omega)) (.step fun _ _ => ?_)) fun _ => .pure _
  refine (parseTzifBlock_settles (.inr rfl) inside (by omega)).bind fun block _ => ?_
  refine (parseTzifFooter_settles (by omega)).bind fun footer read => ?_
  obtain ⟨-, -, ended⟩ := parseTzifFooter_eq_ok.mp read
  refine .ite (fun _ => .pure _) fun _ => ?_
  exact (PosixTimeZone.parse_settles (by omega) _).bind fun rule _ => .pure _

theorem bounded_of_readBlock {version : UInt8} {first block : TzifBlock} {futureRule : Option PosixTimeZone}
    (small : bytes.length ≤ maxTzifBytes) (bounded : Bounded bytes first)
    (read : GlobalTime.readBlock bytes version first = .ok (block, futureRule)) : Bounded bytes block ∧
      ∀ rule ∈ futureRule, ∀ daylight, rule.daylight = some daylight → rule.Sound daylight := by
  rw [GlobalTime.readBlock] at read
  split at read
  · simp only [bind_eq_ok] at read
    obtain ⟨_, -, second, blockRead, footer, -, made⟩ := read
    have secondBounded := bounded_of_read (.inr rfl) small blockRead
    split at made
    · cases made
      exact ⟨secondBounded, fun _ ruled => absurd ruled (Option.not_mem_none _)⟩
    · obtain ⟨rule, parsed, made⟩ := bind_eq_ok.mp made
      cases made
      refine ⟨secondBounded, ?_⟩
      rintro _ ⟨⟩ daylight ruled
      exact PosixTimeZone.sound parsed ruled
  · cases read
    exact ⟨bounded, fun _ ruled => absurd ruled (Option.not_mem_none _)⟩

theorem compare_settles {sort : List (ℤ × ℤ) → List (ℤ × ℤ)} {futureRule : Option PosixTimeZone}
    {transitions : List (ℤ × ℤ)}
    (sound : ∀ rule ∈ futureRule, ∀ daylight, rule.daylight = some daylight → rule.Sound daylight)
    (fits : ∀ last ∈ transitions.getLast?, -2 ^ 63 ≤ last.1 ∧ last.1 < 2 ^ 63) :
    Settles (compare sort futureRule transitions)
      (futureRule.forM fun rule => transitions.getLast?.forM fun last =>
        refuse (rule.offsetAt sort last.1 ≠ last.2)
          "TZif POSIX footer disagrees with the final explicit transition") := by
  unfold compare
  cases futureRule with
  | none => rfl
  | some rule =>
    cases final : transitions.getLast? with
    | none => rfl
    | some last =>
      exact .passes (PosixTimeZone.offsetAt_settled (fits last final) (sound rule rfl)) rfl

theorem times_of_resolved {block : TzifBlock} {transitions : List (ℤ × ℤ)} {outOfRange : String}
    (resolved : resolveTransitions outOfRange block = .ok transitions) {transition : ℤ × ℤ}
    (member : transition ∈ transitions) : transition.1 ∈ block.transitionTimes := by
  rw [resolveTransitions, mapM_eq_ok] at resolved
  have kept : ∀ (pair : ℤ × UInt8) (transition : ℤ × ℤ),
      (block.offsets[pair.2.toNat]?.elim (.error outOfRange) fun offset => .ok (pair.1, offset)) = (.ok transition : Except String (ℤ × ℤ)) → pair.1 = transition.1 := by
    intro pair transition made
    obtain ⟨offset, -, same⟩ := elim_eq_ok.mp made
    cases same
    rfl
  have times := List.forall₂_map_left_iff.mpr (List.forall₂_map_right_iff.mpr (resolved.imp kept))
  rw [List.forall₂_eq_eq_eq] at times
  have listed := List.mem_map_of_mem (f := Prod.fst) member
  rw [← times, List.mem_map] at listed
  obtain ⟨pair, paired, same⟩ := listed
  exact same ▸ (List.of_mem_zip paired).1

theorem TzifZone.parse_settles (sort : List (ℤ × ℤ) → List (ℤ × ℤ)) (bytes : List UInt8) :
    Settles (TzifZone.parse bytes sort) (GlobalTime.TzifZone.parse sort bytes) := by
  have most : maxTzifBytes < 2 ^ 32 := by decide
  rw [TzifZone.parse, GlobalTime.TzifZone.parse]
  refine .passes (lacksMagic_eq (by decide)) ?_
  rw [refuse_decide]
  refine .step fun _ headed => .step fun _ limited => ?_
  rw [refuse_eq_ok, not_or, not_lt] at headed
  rw [refuse_eq_ok, not_lt] at limited
  have versioned : bytes[4]? = some (bytes.getD 4 0) := by
    rw [List.getD_eq_getElem?_getD, List.getElem?_eq_getElem (by omega)]
    rfl
  refine .passes versioned (.step fun _ _ => ?_)
  refine (parseTzifBlock_settles (.inl rfl) (Nat.zero_le _) (by omega)).bind fun first firstRead => ?_
  have bounded := bounded_of_read (.inl rfl) limited firstRead
  refine (readBlock_settles limited bounded).bind fun chosen blockRead => ?_
  obtain ⟨block, futureRule⟩ := chosen
  obtain ⟨used, ruled⟩ := bounded_of_readBlock limited bounded blockRead
  refine .step fun _ typed => .step fun _ _ => .step fun _ _ => .step fun transitions resolved => ?_
  rw [refuse_eq_ok] at typed
  have fits : ∀ last ∈ transitions.getLast?, -2 ^ 63 ≤ last.1 ∧ last.1 < 2 ^ 63 := fun last final =>
    used.times _ (times_of_resolved resolved (List.mem_of_getLast? final))
  refine (compare_settles ruled fits).bind fun _ _ => ?_
  obtain ⟨initial, rest, same⟩ := List.exists_cons_of_ne_nil typed
  rw [same]
  rfl

end Settling

end Boreal.TimeZones.Machine
