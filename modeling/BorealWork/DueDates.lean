/- Due dates as texts: which texts are read, without a panic, and as which instant. -/
import BorealWork.CivilCalendar
import BorealWork.SourceParser
import BorealWork.Library.Decimals

namespace Boreal.WorkModel
open Drain Decimals Calendar
open Source (utf8)

/-- A parse that does not succeed returns an error of the model, or panics on an index. -/
inductive Fault
  | panic
  | model (error : ModelError)
  deriving DecidableEq

def byte (c : Char) : UInt8 := c.toUInt8

def index (bytes : List UInt8) (i : ℕ) : Except Fault UInt8 := bytes[i]?.elim (.error .panic) .ok

def slice (bytes : List UInt8) (start stop : ℕ) : Except Fault (List UInt8) :=
  if start ≤ stop ∧ stop ≤ bytes.length then .ok ((bytes.drop start).take (stop - start))
  else .error .panic

def isAscii (bytes : List UInt8) : Bool := bytes.all (·.toNat < 128)

def expect (bytes : List UInt8) (i : ℕ) (allowed : List UInt8) (error : ModelError) : Except Fault Unit := do
  let found ← index bytes i
  refuse (found ∉ allowed) (.model error)

/-- One more digit, within 32 bits. -/
def accumulateDigit (value : ℕ) (found : UInt8) : Except Fault ℕ :=
  if value * 10 < 2 ^ 32 ∧ value * 10 + (found.toNat - 48) < 2 ^ 32 then .ok (value * 10 + (found.toNat - 48))
  else .error (.model (.invalidSchedule "legacy due numeric field is outside the supported range"))

def parseAsciiDigits (bytes : List UInt8) : Except Fault ℕ := do
  refuse (bytes = [] ∨ bytes.all isDigit = false)
    (.model (.invalidSchedule "legacy due value contains invalid numeric fields"))
  bytes.foldlM accumulateDigit 0

def parseIsoDate (bytes : List UInt8) : Except Fault LocalDate := do
  let invalid : ModelError :=
    .invalidSchedule "legacy due date must be YYYY-MM-DD or an explicitly zoned timestamp"
  refuse (isAscii bytes = false ∨ bytes.length ≠ 10) (.model invalid)
  expect bytes 4 [byte '-'] invalid
  expect bytes 7 [byte '-'] invalid
  let year ← slice bytes 0 4 >>= parseAsciiDigits
  let month ← slice bytes 5 7 >>= parseAsciiDigits
  let day ← slice bytes 8 10 >>= parseAsciiDigits
  let date : LocalDate := ⟨(year : ℤ).bmod (2 ^ 32), month % 2 ^ 8, day % 2 ^ 8⟩
  date.validate.mapError .model
  return date

def invalidTimestamp : ModelError :=
  .invalidSchedule "legacy due timestamp must include Z or an explicit numeric UTC offset"

def lastSign (bytes : List UInt8) : Option ℕ :=
  ((List.range bytes.length).drop 19).reverse.find? fun i =>
    bytes[i]? = some (byte '+') || bytes[i]? = some (byte '-')

def zoneStart (bytes : List UInt8) : Except Fault ℕ :=
  match bytes.getLast? with
  | none => .error (.model invalidTimestamp)
  | some last =>
    if last = byte 'Z' ∨ last = byte 'z' then .ok (bytes.length - 1)
    else if isDigit last then (lastSign bytes).elim (.error (.model invalidTimestamp)) .ok
    else .error (.model invalidTimestamp)

def retainedMillis (fraction : List UInt8) : Except Fault ℕ := do
  let retained := min fraction.length 3
  let millis ← slice fraction 0 retained >>= parseAsciiDigits
  return if retained = 1 then millis * 100 else if retained = 2 then millis * 10 else millis

def fractionMillis (bytes : List UInt8) (zone : ℕ) : Except Fault ℕ :=
  if zone = 19 then .ok 0
  else do
    expect bytes 19 [byte '.'] invalidTimestamp
    refuse (zone ≤ 20) (.model invalidTimestamp)
    let fraction ← slice bytes 20 zone
    refuse (fraction = [] ∨ fraction.all isDigit = false) (.model invalidTimestamp)
    retainedMillis fraction

def offsetSign (found : UInt8) : Except Fault ℤ :=
  if found = byte '+' then .ok 1
  else if found = byte '-' then .ok (-1)
  else .error (.model invalidTimestamp)

def signedOffset (bytes : List UInt8) (zone : ℕ) : Except Fault ℤ := do
  let sign ← index bytes zone >>= offsetSign
  refuse (zone + 6 ≠ bytes.length) (.model invalidTimestamp)
  expect bytes (zone + 3) [byte ':'] invalidTimestamp
  let hours ← slice bytes (zone + 1) (zone + 3) >>= parseAsciiDigits
  let minutes ← slice bytes (zone + 4) (zone + 6) >>= parseAsciiDigits
  refuse (23 < hours ∨ 59 < minutes) (.model invalidTimestamp)
  return sign * (hours * 3600 + minutes * 60)

def offsetSeconds (bytes : List UInt8) (zone : ℕ) : Except Fault ℤ :=
  if zone = bytes.length - 1 then do
    expect bytes zone [byte 'Z', byte 'z'] invalidTimestamp
    return 0
  else signedOffset bytes zone

/-- The result of a checked operation on 64 bits. -/
def checked (n : ℤ) : Except Fault ℤ :=
  if -2 ^ 63 ≤ n ∧ n < 2 ^ 63 then .ok n else .error (.model invalidTimestamp)

def utcMillis (date : LocalDate) (time : LocalTime) (millis : ℕ) (offset : ℤ) : Except Fault TimestampMs := do
  let days ← checked (daysFromCivil date.year date.month date.day * 86400)
  let hours ← checked (days + time.hour * 3600)
  let minutes ← checked (hours + time.minute * 60)
  let localSeconds ← checked (minutes + time.second)
  let utcSeconds ← checked (localSeconds - offset)
  let whole ← checked (utcSeconds * 1000)
  let utcMillis ← checked (whole + millis)
  refuse (utcMillis < 0) (.model invalidTimestamp)
  return ⟨utcMillis.toNat⟩

def parseExplicitTimestamp (bytes : List UInt8) : Except Fault TimestampMs := do
  refuse (isAscii bytes = false ∨ bytes.length < 20) (.model invalidTimestamp)
  expect bytes 4 [byte '-'] invalidTimestamp
  expect bytes 7 [byte '-'] invalidTimestamp
  expect bytes 10 [byte 'T', byte 't'] invalidTimestamp
  expect bytes 13 [byte ':'] invalidTimestamp
  expect bytes 16 [byte ':'] invalidTimestamp
  let date ← slice bytes 0 10 >>= parseIsoDate
  let hour ← slice bytes 11 13 >>= parseAsciiDigits
  let minute ← slice bytes 14 16 >>= parseAsciiDigits
  let second ← slice bytes 17 19 >>= parseAsciiDigits
  let time : LocalTime := ⟨hour % 2 ^ 8, minute % 2 ^ 8, second % 2 ^ 8⟩
  time.validate.mapError .model
  let zone ← zoneStart bytes
  let millis ← fractionMillis bytes zone
  let offset ← offsetSeconds bytes zone
  utcMillis date time millis offset

def BusinessDate.parseLegacyDue (value : String) : Except Fault BusinessDate :=
  let bytes := utf8 value
  let scheme := utf8 "unix-ms:"
  if bytes.take scheme.length = scheme then do
    let digits := bytes.drop scheme.length
    refuse (digits = [] ∨ digits.all isDigit = false)
      (.model (.invalidSchedule "legacy due timestamp must be canonical unix milliseconds"))
    refuse (2 ^ 64 ≤ valueOf digits)
      (.model (.invalidSchedule "legacy due timestamp is outside the supported range"))
    return .instant ⟨valueOf digits⟩
  else if bytes.length = 10 then .localDate <$> parseIsoDate bytes
  else .instant <$> parseExplicitTimestamp bytes

example : (BusinessDate.parseLegacyDue "2025-12-31T19:00:00.5-05:00").toOption =
    some (.instant ⟨1767225600500⟩) := by decide +kernel

section Grammar

/-- `Z`, or a signed offset of hours and minutes. -/
inductive Zone
  | utc (lower : Bool)
  | offset (west : Bool) (hours minutes : ℕ)

def Zone.text : Zone → List UInt8
  | .utc lower => [if lower then byte 'z' else byte 'Z']
  | .offset west hours minutes =>
    (if west then byte '-' else byte '+') :: padded 2 hours ++ byte ':' :: padded 2 minutes

/-- How far the local clock is ahead of UTC. -/
def Zone.seconds : Zone → ℤ
  | .utc _ => 0
  | .offset west hours minutes => (if west then -1 else 1) * (hours * 3600 + minutes * 60)

def Zone.Valid : Zone → Prop
  | .utc _ => True
  | .offset _ hours minutes => hours ≤ 23 ∧ minutes ≤ 59

def dateText (date : LocalDate) : List UInt8 :=
  padded 4 date.year.toNat ++ byte '-' :: padded 2 date.month ++ byte '-' :: padded 2 date.day

structure DateValid (date : LocalDate) : Prop where
  year : 0 ≤ date.year ∧ date.year < 10 ^ 4
  onCalendar : date.OnCalendar

structure Stamp where
  date : LocalDate
  lower : Bool
  time : LocalTime
  fraction : List UInt8
  zone : Zone

namespace Stamp

variable (stamp : Stamp)

def fractionText (fraction : List UInt8) : List UInt8 := if fraction = [] then [] else byte '.' :: fraction

def timeText (time : LocalTime) : List UInt8 :=
  padded 2 time.hour ++ byte ':' :: padded 2 time.minute ++ byte ':' :: padded 2 time.second

def text : List UInt8 :=
  dateText stamp.date ++ (if stamp.lower then byte 't' else byte 'T') :: timeText stamp.time ++
    fractionText stamp.fraction ++ stamp.zone.text

structure Valid : Prop where
  date : DateValid stamp.date
  time : stamp.time.validate = .ok ()
  fraction : AllDigits stamp.fraction
  zone : stamp.zone.Valid

def instant : ℚ :=
  (stamp.date.dayNumber * 86400 + stamp.time.hour * 3600 + stamp.time.minute * 60 + stamp.time.second -
    stamp.zone.seconds : ℤ) + (valueOf stamp.fraction : ℚ) / 10 ^ stamp.fraction.length

end Stamp

end Grammar

section Fields

variable {bytes : List UInt8}

theorem allDigits_iff : bytes.all isDigit = true ↔ AllDigits bytes := List.all_eq_true

theorem le_accumulated (start : ℕ) :
    start ≤ bytes.foldl (fun value found => value * 10 + (found.toNat - 48)) start := by
  induction bytes generalizing start with
  | nil => exact le_rfl
  | cons found rest ih =>
    have grows : start ≤ start * 10 + (found.toNat - 48) := by omega
    exact grows.trans (ih _)

theorem accumulate_eq_ok {start n : ℕ} (small : start < 2 ^ 32) : bytes.foldlM accumulateDigit start = .ok n ↔
    bytes.foldl (fun value found => value * 10 + (found.toNat - 48)) start = n ∧ n < 2 ^ 32 := by
  induction bytes generalizing start with
  | nil =>
    constructor
    · intro same
      cases same
      exact ⟨rfl, small⟩
    · rintro ⟨rfl, -⟩
      rfl
  | cons found rest ih =>
    rw [List.foldlM_cons, List.foldl_cons]
    by_cases fits : start * 10 + (found.toNat - 48) < 2 ^ 32
    · have next : accumulateDigit start found = .ok (start * 10 + (found.toNat - 48)) :=
        if_pos ⟨by omega, fits⟩
      rw [next, ok_bind]
      exact ih fits
    · have stopped : accumulateDigit start found = .error (.model (.invalidSchedule
          "legacy due numeric field is outside the supported range")) := if_neg fun both => fits both.2
      rw [stopped]
      refine iff_of_false nofun ?_
      rintro ⟨rfl, small'⟩
      have := @le_accumulated rest (start * 10 + (found.toNat - 48))
      omega

theorem parseAsciiDigits_eq_ok {n : ℕ} : parseAsciiDigits bytes = .ok n ↔
    bytes ≠ [] ∧ n < 2 ^ 32 ∧ n < 10 ^ bytes.length ∧ padded bytes.length n = bytes := by
  rw [parseAsciiDigits, check_eq_ok, refuse_eq_ok, accumulate_eq_ok (by decide), not_or, Bool.not_eq_false,
    allDigits_iff, ← eq_padded_iff, valueOf]
  tauto

theorem parse_pair {a b : UInt8} {n : ℕ} :
    parseAsciiDigits [a, b] = .ok n ↔ n < 100 ∧ padded 2 n = [a, b] := by
  rw [parseAsciiDigits_eq_ok]
  constructor
  · rintro ⟨-, -, fits, text⟩
    exact ⟨fits, text⟩
  · rintro ⟨fits, text⟩
    exact ⟨List.cons_ne_nil _ _, by omega, fits, text⟩

theorem slice_eq_ok {start stop : ℕ} {part : List UInt8} : slice bytes start stop = .ok part ↔
    (start ≤ stop ∧ stop ≤ bytes.length) ∧ (bytes.drop start).take (stop - start) = part := by
  rw [slice]
  split
  · rename_i inside
    rw [Except.ok.injEq, and_iff_right inside]
  · rename_i outside
    exact iff_of_false nofun fun both => outside both.1

theorem index_eq_ok {i : ℕ} {found : UInt8} : index bytes i = .ok found ↔ bytes[i]? = some found := by
  rw [index]
  cases bytes[i]? with
  | none => exact iff_of_false nofun nofun
  | some here => exact (Except.ok.injEq _ _).to_iff.trans (Option.some.injEq _ _).to_iff.symm

theorem expect_eq_ok {i : ℕ} {allowed : List UInt8} {error : ModelError} {u : Unit} :
    expect bytes i allowed error = .ok u ↔ ∃ found ∈ allowed, bytes[i]? = some found := by
  rw [expect, bind_eq_ok]
  constructor
  · rintro ⟨found, here, passed⟩
    exact ⟨found, not_not.mp (refuse_eq_ok.mp passed), index_eq_ok.mp here⟩
  · rintro ⟨found, member, here⟩
    exact ⟨found, index_eq_ok.mpr here, refuse_eq_ok.mpr (not_not.mpr member)⟩

theorem isAscii_append {more : List UInt8} : isAscii (bytes ++ more) = (isAscii bytes && isAscii more) :=
  List.all_append

theorem isAscii_of_digits (digits : AllDigits bytes) : isAscii bytes = true := by
  refine List.all_eq_true.mpr fun found member => ?_
  have range := digits found member
  rw [isDigit, Bool.and_eq_true, decide_eq_true_eq, decide_eq_true_eq] at range
  exact decide_eq_true (by omega)

end Fields

theorem isAscii_dateText (date : LocalDate) : isAscii (dateText date) = true := by
  have minus : ∀ rest, isAscii (byte '-' :: rest) = isAscii rest := fun rest => Bool.true_and _
  rw [dateText, isAscii_append, minus, isAscii_append, minus, isAscii_of_digits (allDigits_padded _ _),
    isAscii_of_digits (allDigits_padded _ _), isAscii_of_digits (allDigits_padded _ _)]
  rfl

theorem length_dateText (date : LocalDate) : (dateText date).length = 10 := rfl

variable {date : LocalDate}

theorem dateText_eq_iff {a b c d s e f s' g h : UInt8} :
    dateText date = [a, b, c, d, s, e, f, s', g, h] ↔
      padded 4 date.year.toNat = [a, b, c, d] ∧ byte '-' = s ∧ padded 2 date.month = [e, f] ∧
        byte '-' = s' ∧ padded 2 date.day = [g, h] := by
  simp only [dateText, padded, List.nil_append, List.cons_append, List.cons.injEq]
  tauto

variable {bytes : List UInt8}

theorem parseIsoDate_eq_ok : parseIsoDate bytes = .ok date ↔ DateValid date ∧ dateText date = bytes := by
  constructor
  · intro parsed
    rw [parseIsoDate, check_eq_ok, refuse_eq_ok, not_or, not_not, check_eq_ok, expect_eq_ok, check_eq_ok,
      expect_eq_ok, bind_eq_ok] at parsed
    obtain ⟨⟨-, length⟩, ⟨dash, isDash, first⟩, ⟨dash', isDash', second⟩, year, ofYear, parsed⟩ := parsed
    obtain ⟨a, b, c, d, s, e, f, s', g, h, rfl⟩ : ∃ a b c d s e f s' g h,
        bytes = [a, b, c, d, s, e, f, s', g, h] := by
      match bytes, length with
      | [a, b, c, d, s, e, f, s', g, h], _ => exact ⟨a, b, c, d, s, e, f, s', g, h, rfl⟩
    cases first
    cases second
    obtain rfl := List.mem_singleton.mp isDash
    obtain rfl := List.mem_singleton.mp isDash'
    change parseAsciiDigits [a, b, c, d] = .ok year at ofYear
    obtain ⟨month, ofMonth, parsed⟩ := bind_eq_ok.mp parsed
    change parseAsciiDigits [e, f] = .ok month at ofMonth
    obtain ⟨day, ofDay, parsed⟩ := bind_eq_ok.mp parsed
    change parseAsciiDigits [g, h] = .ok day at ofDay
    obtain ⟨valid, done⟩ := check_eq_ok.mp parsed
    obtain ⟨-, -, small, text⟩ := parseAsciiDigits_eq_ok.mp ofYear
    change year < 10 ^ 4 at small
    obtain ⟨small', text'⟩ := parse_pair.mp ofMonth
    obtain ⟨small'', text''⟩ := parse_pair.mp ofDay
    have inYears : (year : ℤ).bmod (2 ^ 32) = year := Int.bmod_eq_of_le (by omega) (by omega)
    have onCalendar := LocalDate.validate_eq_ok.mp (mapError_eq_ok.mp valid)
    rw [← Except.ok.inj done]
    rw [inYears, Nat.mod_eq_of_lt (show month < 2 ^ 8 by omega),
      Nat.mod_eq_of_lt (show day < 2 ^ 8 by omega)] at onCalendar ⊢
    refine ⟨⟨⟨Int.natCast_nonneg year, Int.ofNat_lt.mpr small⟩, onCalendar⟩, ?_⟩
    exact dateText_eq_iff.mpr ⟨text, rfl, text', rfl, text''⟩
  · rintro ⟨⟨⟨positive, small⟩, onCalendar⟩, rfl⟩
    have month : date.month < 100 := by have := onCalendar.month; omega
    have day : date.day < 100 := by
      have := onCalendar.day
      have := daysInMonth_le date.year date.month
      omega
    have ofYear : parseAsciiDigits (padded 4 date.year.toNat) = .ok date.year.toNat := by
      refine parseAsciiDigits_eq_ok.mpr ⟨List.cons_ne_nil _ _, by omega, ?_, rfl⟩
      change date.year.toNat < 10 ^ 4
      omega
    have ofMonth : parseAsciiDigits (padded 2 date.month) = .ok date.month := parse_pair.mpr ⟨month, rfl⟩
    have ofDay : parseAsciiDigits (padded 2 date.day) = .ok date.day := parse_pair.mpr ⟨day, rfl⟩
    have same : (⟨((date.year.toNat : ℕ) : ℤ).bmod (2 ^ 32), date.month % 2 ^ 8, date.day % 2 ^ 8⟩ : LocalDate) =
        date := by
      rw [Int.toNat_of_nonneg positive, Int.bmod_eq_of_le (by omega) (by omega),
        Nat.mod_eq_of_lt (by omega), Nat.mod_eq_of_lt (by omega)]
    rw [parseIsoDate, check_eq_ok, refuse_eq_ok, isAscii_dateText, check_eq_ok, expect_eq_ok, check_eq_ok,
      expect_eq_ok, bind_eq_ok]
    refine ⟨by simp [length_dateText], ⟨_, List.mem_singleton_self _, rfl⟩,
      ⟨_, List.mem_singleton_self _, rfl⟩, _, ofYear, bind_eq_ok.mpr ⟨_, ofMonth, bind_eq_ok.mpr ⟨_, ofDay, ?_⟩⟩⟩
    rw [same]
    exact check_eq_ok.mpr ⟨mapError_eq_ok.mpr (LocalDate.validate_eq_ok.mpr onCalendar), rfl⟩

section Zones

variable {pre rest : List UInt8}

theorem behind (pre rest : List UInt8) (i : ℕ) : (pre ++ rest)[pre.length + i]? = rest[i]? := by
  rw [List.getElem?_append_right (Nat.le_add_right _ _), Nat.add_sub_cancel_left]

theorem slice_middle {mid post : List UInt8} {start stop : ℕ} (begun : pre.length = start)
    (ended : start + mid.length = stop) : slice (pre ++ (mid ++ post)) start stop = .ok mid := by
  refine slice_eq_ok.mpr ⟨⟨by omega, ?_⟩, ?_⟩
  · rw [List.length_append, List.length_append]
    omega
  · rw [← begun, List.drop_append_length, ← ended, begun, Nat.add_sub_cancel_left, List.take_left']
    rfl

theorem offsetSign_eq_ok {found : UInt8} {sign : ℤ} : offsetSign found = .ok sign ↔
    ∃ west : Bool, found = (if west then byte '-' else byte '+') ∧ sign = if west then -1 else 1 := by
  rw [offsetSign]
  constructor
  · intro passed
    split at passed
    · rename_i plus
      exact ⟨false, plus, (Except.ok.inj passed).symm⟩
    · split at passed
      · rename_i minus
        exact ⟨true, minus, (Except.ok.inj passed).symm⟩
      · exact absurd passed nofun
  · rintro ⟨west, rfl, rfl⟩
    cases west <;> rfl

theorem signedOffset_eq_ok {offset : ℤ} (nonempty : rest ≠ []) :
    signedOffset (pre ++ rest) pre.length = .ok offset ↔ ∃ west hours minutes,
      (Zone.offset west hours minutes).Valid ∧ (Zone.offset west hours minutes).text = rest ∧
        (Zone.offset west hours minutes).seconds = offset := by
  constructor
  · intro parsed
    obtain ⟨sign, signed, parsed⟩ := bind_eq_ok.mp parsed
    obtain ⟨found, here, isSign⟩ := bind_eq_ok.mp signed
    obtain ⟨length, parsed⟩ := check_eq_ok.mp parsed
    rw [refuse_eq_ok, not_not, List.length_append, Nat.add_left_cancel_iff] at length
    obtain ⟨a, b, c, d, e, f, rfl⟩ : ∃ a b c d e f, rest = [a, b, c, d, e, f] := by
      match rest, length with
      | [a, b, c, d, e, f], _ => exact ⟨a, b, c, d, e, f, rfl⟩
    obtain ⟨colon, parsed⟩ := check_eq_ok.mp parsed
    obtain ⟨dots, isColon, colon⟩ := expect_eq_ok.mp colon
    rw [index_eq_ok, ← Nat.add_zero pre.length, behind] at here
    rw [behind] at colon
    obtain rfl : a = found := Option.some.inj here
    obtain rfl : d = dots := Option.some.inj colon
    rw [List.mem_singleton] at isColon
    obtain ⟨hours, ofHours, parsed⟩ := bind_eq_ok.mp parsed
    obtain ⟨minutes, ofMinutes, parsed⟩ := bind_eq_ok.mp parsed
    obtain ⟨range, done⟩ := check_eq_ok.mp parsed
    rw [refuse_eq_ok, not_or, not_lt, not_lt] at range
    have hoursPart : slice (pre ++ [a, b, c, d, e, f]) (pre.length + 1) (pre.length + 3) = .ok [b, c] := by
      have split : pre ++ [a, b, c, d, e, f] = (pre ++ [a]) ++ ([b, c] ++ [d, e, f]) := by simp
      rw [split, slice_middle (by simp) (by simp)]
    have minutesPart : slice (pre ++ [a, b, c, d, e, f]) (pre.length + 4) (pre.length + 6) = .ok [e, f] := by
      have split : pre ++ [a, b, c, d, e, f] = (pre ++ [a, b, c, d]) ++ ([e, f] ++ []) := by simp
      rw [split, slice_middle (by simp) (by simp)]
    rw [hoursPart, ok_bind, parse_pair] at ofHours
    rw [minutesPart, ok_bind, parse_pair] at ofMinutes
    obtain ⟨west, rfl, rfl⟩ := offsetSign_eq_ok.mp isSign
    refine ⟨west, hours, minutes, range, ?_, Except.ok.inj done⟩
    rw [Zone.text, ofHours.2, ofMinutes.2, isColon]
    rfl
  · rintro ⟨west, hours, minutes, ⟨hour, minute⟩, rfl, rfl⟩
    have hoursPart : slice (pre ++ (Zone.offset west hours minutes).text) (pre.length + 1) (pre.length + 3) =
        .ok (padded 2 hours) := by
      have split : pre ++ (Zone.offset west hours minutes).text =
          (pre ++ [if west then byte '-' else byte '+']) ++ (padded 2 hours ++ byte ':' :: padded 2 minutes) := by
        simp [Zone.text]
      rw [split, slice_middle (by simp) (by simp)]
    have minutesPart : slice (pre ++ (Zone.offset west hours minutes).text) (pre.length + 4) (pre.length + 6) =
        .ok (padded 2 minutes) := by
      have split : pre ++ (Zone.offset west hours minutes).text =
          (pre ++ (if west then byte '-' else byte '+') :: padded 2 hours ++ [byte ':']) ++
            (padded 2 minutes ++ []) := by
        simp [Zone.text]
      rw [split, slice_middle (by simp) (by simp)]
    have ofHours : parseAsciiDigits (padded 2 hours) = .ok hours := parse_pair.mpr ⟨by omega, rfl⟩
    have ofMinutes : parseAsciiDigits (padded 2 minutes) = .ok minutes := parse_pair.mpr ⟨by omega, rfl⟩
    have first : index (pre ++ (Zone.offset west hours minutes).text) pre.length =
        .ok (if west then byte '-' else byte '+') := by
      rw [index_eq_ok]
      exact behind pre (Zone.offset west hours minutes).text 0
    have colon : (pre ++ (Zone.offset west hours minutes).text)[pre.length + 3]? = some (byte ':') :=
      behind pre (Zone.offset west hours minutes).text 3
    rw [signedOffset, first, ok_bind, offsetSign_eq_ok.mpr ⟨west, rfl, rfl⟩, ok_bind, hoursPart, ok_bind,
      ofHours, ok_bind, minutesPart, ok_bind, ofMinutes, ok_bind, check_eq_ok, refuse_eq_ok, check_eq_ok,
      expect_eq_ok, check_eq_ok, refuse_eq_ok, colon]
    refine ⟨?_, ⟨_, List.mem_singleton_self _, rfl⟩, by omega, rfl⟩
    rw [not_not, List.length_append]
    rfl

theorem offsetSeconds_eq_ok {offset : ℤ} (nonempty : rest ≠ []) :
    offsetSeconds (pre ++ rest) pre.length = .ok offset ↔
      ∃ zone : Zone, zone.Valid ∧ zone.text = rest ∧ zone.seconds = offset := by
  obtain ⟨first, more, rfl⟩ := List.exists_cons_of_ne_nil nonempty
  have here : (pre ++ first :: more)[pre.length]? = some first := behind pre (first :: more) 0
  rw [offsetSeconds, List.length_append, List.length_cons]
  cases more with
  | nil =>
    rw [if_pos (by simp), check_eq_ok, expect_eq_ok, here]
    constructor
    · rintro ⟨⟨found, allowed, same⟩, done⟩
      cases same
      rcases List.mem_pair.mp allowed with rfl | rfl
      · exact ⟨.utc false, trivial, rfl, Except.ok.inj done⟩
      · exact ⟨.utc true, trivial, rfl, Except.ok.inj done⟩
    · rintro ⟨zone, -, text, rfl⟩
      cases zone with
      | offset west hours minutes => exact absurd (congrArg List.length text) (by simp [Zone.text])
      | utc lower =>
        refine ⟨⟨first, ?_, rfl⟩, rfl⟩
        have own : (if lower then byte 'z' else byte 'Z') = first := List.head_eq_of_cons_eq text
        rw [← own]
        cases lower with
        | false => exact List.mem_pair.mpr (.inl rfl)
        | true => exact List.mem_pair.mpr (.inr rfl)
  | cons second more =>
    rw [if_neg (by rw [List.length_cons]; omega), signedOffset_eq_ok nonempty]
    constructor
    · rintro ⟨west, hours, minutes, valid, text, seconds⟩
      exact ⟨_, valid, text, seconds⟩
    · rintro ⟨zone, valid, text, seconds⟩
      cases zone with
      | utc lower => exact absurd (congrArg List.length text) (by simp [Zone.text])
      | offset west hours minutes => exact ⟨west, hours, minutes, valid, text, seconds⟩

theorem retainedMillis_eq {fraction : List UInt8} (nonempty : fraction ≠ []) (digits : AllDigits fraction) :
    retainedMillis fraction = .ok (valueOf fraction * 1000 / 10 ^ fraction.length) := by
  have positive : 0 < fraction.length := List.length_pos_of_ne_nil nonempty
  have kept : ∀ n, 0 < n → n ≤ 3 → n ≤ fraction.length →
      slice fraction 0 n >>= parseAsciiDigits = .ok (valueOf fraction / 10 ^ (fraction.length - n)) := by
    intro n some few inside
    have length : (fraction.take n).length = n := List.length_take_of_le inside
    have part : slice fraction 0 n = .ok (fraction.take n) :=
      slice_eq_ok.mpr ⟨⟨Nat.zero_le _, inside⟩, by rw [List.drop_zero, Nat.sub_zero]⟩
    obtain ⟨below, text⟩ := eq_padded_iff.mp
      ⟨fun found member => digits found (List.mem_of_mem_take member), valueOf_take digits n⟩
    have small : 10 ^ (fraction.take n).length ≤ 10 ^ 3 := Nat.pow_le_pow_right (by decide) (by omega)
    rw [part, ok_bind]
    exact parseAsciiDigits_eq_ok.mpr ⟨List.ne_nil_of_length_pos (by omega), by omega, below, text⟩
  rw [retainedMillis, kept _ (by omega) (Nat.min_le_right _ _) (Nat.min_le_left _ _), ok_bind]
  apply congrArg Except.ok
  by_cases one : fraction.length = 1
  · rw [one, min_eq_left (by decide), if_pos rfl, Nat.sub_self, pow_zero, Nat.div_one]
    omega
  · by_cases two : fraction.length = 2
    · rw [two, min_eq_left (by decide), if_neg (by decide), if_pos rfl, Nat.sub_self, pow_zero, Nat.div_one]
      omega
    · rw [min_eq_right (by omega), if_neg (by decide), if_neg (by decide)]
      have scaled : 10 ^ fraction.length = 10 ^ (fraction.length - 3) * 1000 := by
        rw [show 1000 = 10 ^ 3 from rfl, ← pow_add, Nat.sub_add_cancel (by omega)]
      rw [scaled, Nat.mul_div_mul_right _ _ (by decide)]

theorem fractionMillis_eq_ok {head part : List UInt8} {millis : ℕ} (seconds : head.length = 19) :
    fractionMillis (head ++ (part ++ rest)) (19 + part.length) = .ok millis ↔
      ∃ fraction, AllDigits fraction ∧ Stamp.fractionText fraction = part ∧
        valueOf fraction * 1000 / 10 ^ fraction.length = millis := by
  rw [fractionMillis]
  cases part with
  | nil =>
    have none : 19 + ([] : List UInt8).length = 19 := rfl
    rw [if_pos none, Except.ok.injEq]
    constructor
    · rintro rfl
      exact ⟨[], List.forall_mem_nil _, rfl, rfl⟩
    · rintro ⟨fraction, -, text, rfl⟩
      cases fraction with
      | nil => rfl
      | cons digit more => exact absurd text (List.cons_ne_nil _ _)
  | cons point digits =>
    have here : (head ++ (point :: digits ++ rest))[19]? = some point := by
      have shifted := behind head (point :: digits ++ rest) 0
      rwa [seconds] at shifted
    have part : slice (head ++ (point :: digits ++ rest)) 20 (19 + (point :: digits).length) = .ok digits := by
      have split : head ++ (point :: digits ++ rest) = (head ++ [point]) ++ (digits ++ rest) := by simp
      rw [split, slice_middle (by simp [seconds]) (by rw [List.length_cons]; omega)]
    rw [if_neg (by rw [List.length_cons]; omega), check_eq_ok, expect_eq_ok, here, check_eq_ok, refuse_eq_ok,
      part, ok_bind, check_eq_ok, refuse_eq_ok, not_or, Bool.not_eq_false, allDigits_iff]
    constructor
    · rintro ⟨⟨dot, isDot, same⟩, -, ⟨nonempty, allDigits⟩, retained⟩
      rw [retainedMillis_eq nonempty allDigits, Except.ok.injEq] at retained
      rw [← Option.some.inj same, List.mem_singleton] at isDot
      refine ⟨digits, allDigits, ?_, retained⟩
      rw [Stamp.fractionText, if_neg nonempty, isDot]
    · rintro ⟨fraction, allDigits, text, rfl⟩
      rw [Stamp.fractionText] at text
      split at text
      · exact absurd text.symm (List.cons_ne_nil _ _)
      · rename_i nonempty
        obtain ⟨rfl, rfl⟩ := List.cons.inj text
        have positive : 0 < fraction.length := List.length_pos_of_ne_nil nonempty
        refine ⟨⟨_, List.mem_singleton_self _, rfl⟩, ?_, ⟨nonempty, allDigits⟩,
          retainedMillis_eq nonempty allDigits⟩
        rw [List.length_cons]
        omega

def SignAt (bytes : List UInt8) (i : ℕ) : Prop :=
  bytes[i]? = some (byte '+') ∨ bytes[i]? = some (byte '-')

theorem lastSign_eq_some {bytes : List UInt8} {i : ℕ} : lastSign bytes = some i ↔
    19 ≤ i ∧ SignAt bytes i ∧ ∀ j, i < j → ¬ SignAt bytes j := by
  have isSign : ∀ j, (bytes[j]? = some (byte '+') || bytes[j]? = some (byte '-') : Bool) = true ↔
      SignAt bytes j := fun j => by rw [Bool.or_eq_true, decide_eq_true_eq, decide_eq_true_eq, SignAt]
  have inside : ∀ j, SignAt bytes j → j < bytes.length := by
    rintro j (found | found) <;> exact (List.getElem?_eq_some_iff.mp found).1
  have listed : ∀ j, j ∈ ((List.range bytes.length).drop 19).reverse ↔ 19 ≤ j ∧ j < bytes.length := by
    intro j
    rw [List.mem_reverse, List.range_eq_range', List.drop_range', List.mem_range'_1]
    omega
  have descending : ((List.range bytes.length).drop 19).reverse.Pairwise (· > ·) :=
    List.pairwise_reverse.mpr (List.pairwise_lt_range.sublist (List.drop_sublist 19 _))
  have sound : ∀ k, lastSign bytes = some k → 19 ≤ k ∧ SignAt bytes k ∧ ∀ j, k < j → ¬ SignAt bytes j := by
    intro k found
    obtain ⟨sign, before, after, split, none⟩ := List.find?_eq_some_iff_append.mp found
    have member : k ∈ ((List.range bytes.length).drop 19).reverse := by
      rw [split]
      exact List.mem_append_right _ List.mem_cons_self
    refine ⟨((listed k).mp member).1, (isSign k).mp sign, ?_⟩
    intro j later sign'
    have member' := (listed j).mpr ⟨by have := ((listed k).mp member).1; omega, inside j sign'⟩
    rw [split] at member' descending
    rcases List.mem_append.mp member' with early | rest
    · exact absurd ((isSign j).mpr sign') (by simpa using none j early)
    · rcases List.mem_cons.mp rest with rfl | late
      · omega
      · have order := (List.pairwise_cons.mp (List.pairwise_append.mp descending).2.1).1 j late
        omega
  constructor
  · exact sound i
  · rintro ⟨late, sign, last⟩
    have member := (listed i).mpr ⟨late, inside i sign⟩
    have exists' : (lastSign bytes).isSome := List.find?_isSome.mpr ⟨i, member, (isSign i).mpr sign⟩
    obtain ⟨k, found⟩ := Option.isSome_iff_exists.mp exists'
    obtain ⟨-, sign', last'⟩ := sound k found
    have same : i = k := by
      by_contra other
      rcases Nat.lt_or_gt_of_ne other with below | above
      · exact last k below sign'
      · exact last' i above sign
    rw [found, same]

theorem zoneStart_bound {head tail : List UInt8} {zone : ℕ} (seconds : head.length = 19) (nonempty : tail ≠ [])
    (found : zoneStart (head ++ tail) = .ok zone) :
    ∃ part rest, rest ≠ [] ∧ part ++ rest = tail ∧ 19 + part.length = zone := by
  have positive := List.length_pos_of_ne_nil nonempty
  suffices bounds : 19 ≤ zone ∧ zone < 19 + tail.length by
    refine ⟨tail.take (zone - 19), tail.drop (zone - 19), ?_, List.take_append_drop _ _, ?_⟩
    · exact List.ne_nil_of_length_pos (by rw [List.length_drop]; omega)
    · rw [List.length_take_of_le (by omega)]
      omega
  rw [zoneStart] at found
  split at found
  · exact absurd found nofun
  · split at found
    · have last : (head ++ tail).length - 1 = zone := Except.ok.inj found
      rw [List.length_append] at last
      omega
    · split at found
      · cases sign : lastSign (head ++ tail) with
        | none =>
          rw [sign] at found
          exact absurd found nofun
        | some i =>
          rw [sign] at found
          obtain rfl : i = zone := Except.ok.inj found
          obtain ⟨late, here | here, -⟩ := lastSign_eq_some.mp sign
          all_goals
            have inside := (List.getElem?_eq_some_iff.mp here).1
            rw [List.length_append] at inside
            omega
      · exact absurd found nofun

theorem zoneStart_text {head part : List UInt8} (zone : Zone) (seconds : head.length = 19) :
    zoneStart (head ++ (part ++ zone.text)) = .ok (19 + part.length) := by
  rw [zoneStart, ← List.append_assoc]
  cases zone with
  | utc lower =>
    rw [Zone.text, List.getLast?_concat]
    dsimp only
    rw [if_pos (by cases lower <;> simp), List.length_append, List.length_append, seconds]
    rfl
  | offset west hours minutes =>
    have digits : ∀ width n, ∀ found ∈ padded width n, found ≠ byte '+' ∧ found ≠ byte '-' := by
      intro width n found member
      have digit := allDigits_padded width n found member
      constructor <;> rintro rfl <;> exact absurd digit (by decide)
    have unsigned : ∀ found ∈ padded 2 hours ++ byte ':' :: padded 2 minutes,
        found ≠ byte '+' ∧ found ≠ byte '-' := by
      intro found member
      rcases List.mem_append.mp member with early | rest
      · exact digits _ _ found early
      · rcases List.mem_cons.mp rest with rfl | late
        · decide
        · exact digits _ _ found late
    have sign : lastSign (head ++ part ++ (Zone.offset west hours minutes).text) = some (19 + part.length) := by
      have length : (head ++ part).length = 19 + part.length := by rw [List.length_append, seconds]
      refine lastSign_eq_some.mpr ⟨Nat.le_add_right _ _, ?_, ?_⟩
      · have here := behind (head ++ part) (Zone.offset west hours minutes).text 0
        rw [length, Nat.add_zero] at here
        rw [SignAt, here]
        cases west
        · exact .inl rfl
        · exact .inr rfl
      · intro j later
        obtain ⟨k, rfl⟩ : ∃ k, j = (head ++ part).length + (k + 1) := ⟨j - (head ++ part).length - 1, by omega⟩
        rw [SignAt, behind, Zone.text, List.cons_append, List.getElem?_cons_succ]
        rintro (found | found)
        · exact (unsigned _ (List.mem_of_getElem? found)).1 rfl
        · exact (unsigned _ (List.mem_of_getElem? found)).2 rfl
    have last : (head ++ part ++ (Zone.offset west hours minutes).text).getLast? =
        some (UInt8.ofNat (48 + minutes % 10)) := by
      rw [List.getLast?_append]
      rfl
    have digit : isDigit (UInt8.ofNat (48 + minutes % 10)) = true :=
      allDigits_padded 1 minutes _ (List.mem_singleton_self _)
    rw [last, sign]
    dsimp only
    rw [if_neg ?_, if_pos digit]
    · rfl
    · rintro (same | same) <;> exact absurd (same ▸ digit) (by decide)

end Zones

theorem dayNumber_bounds (valid : DateValid date) :
    -719528 ≤ date.dayNumber ∧ date.dayNumber ≤ 2932896 := by
  obtain ⟨⟨positive, small⟩, onCalendar⟩ := valid
  have first : LocalDate.OnCalendar ⟨0, 1, 1⟩ := ⟨by decide, by decide⟩
  have last : LocalDate.OnCalendar ⟨9999, 12, 31⟩ := ⟨by decide, by decide⟩
  have least := (dayNumber_le_iff first onCalendar).mpr
  have most := (dayNumber_le_iff onCalendar last).mpr
  obtain ⟨⟨low, high⟩, day, most'⟩ := onCalendar
  have short := daysInMonth_le date.year date.month
  rw [← not_lt, LocalDate.lt_iff] at least most
  dsimp only at least most
  exact ⟨least (by omega), most (by omega)⟩

theorem checked_eq {n : ℤ} (fits : -2 ^ 63 ≤ n ∧ n < 2 ^ 63) : checked n = .ok n := if_pos fits

theorem validTime_iff {time : LocalTime} :
    time.validate = .ok () ↔ time.hour ≤ 23 ∧ time.minute ≤ 59 ∧ time.second ≤ 59 := by
  rw [LocalTime.validate]
  split
  · refine iff_of_false nofun ?_
    omega
  · refine iff_of_true rfl ?_
    omega

theorem zone_seconds_bounds {zone : Zone} (valid : zone.Valid) :
    -86400 < zone.seconds ∧ zone.seconds < 86400 := by
  cases zone with
  | utc lower =>
    rw [Zone.seconds]
    exact ⟨by decide, by decide⟩
  | offset west hours minutes =>
    obtain ⟨hour, minute⟩ := valid
    rw [Zone.seconds]
    split <;> constructor <;> omega

variable {moment : TimestampMs}

theorem utcMillis_eq_ok {time : LocalTime} {millis : ℕ} {offset : ℤ}
    (valid : DateValid date) (inDay : time.validate = .ok ()) (short : millis < 1000)
    (near : -86400 < offset ∧ offset < 86400) : utcMillis date time millis offset = .ok moment ↔
      0 ≤ (moment.value : ℤ) ∧ (moment.value : ℤ) = (date.dayNumber * 86400 + time.hour * 3600 +
        time.minute * 60 + time.second - offset) * 1000 + millis := by
  obtain ⟨least, most⟩ := dayNumber_bounds valid
  obtain ⟨hour, minute, second⟩ := validTime_iff.mp inDay
  rw [utcMillis, ← LocalDate.dayNumber, checked_eq (by omega), ok_bind, checked_eq (by omega), ok_bind,
    checked_eq (by omega), ok_bind, checked_eq (by omega), ok_bind, checked_eq (by omega), ok_bind,
    checked_eq (by omega), ok_bind, checked_eq (by omega), ok_bind, check_eq_ok, refuse_eq_ok]
  generalize (date.dayNumber * 86400 + time.hour * 3600 + time.minute * 60 + time.second - offset) * 1000 +
    (millis : ℤ) = total
  constructor
  · rintro ⟨nonneg, done⟩
    rw [← Except.ok.inj done]
    refine ⟨Int.natCast_nonneg _, Int.toNat_of_nonneg (not_lt.mp nonneg)⟩
  · rintro ⟨nonneg, same⟩
    refine ⟨by omega, ?_⟩
    rw [← same, Int.toNat_natCast]
    rfl

theorem Stamp.floor_instant (stamp : Stamp) : ⌊1000 * stamp.instant⌋ =
    (stamp.date.dayNumber * 86400 + stamp.time.hour * 3600 + stamp.time.minute * 60 + stamp.time.second -
      stamp.zone.seconds) * 1000 + (valueOf stamp.fraction * 1000 / 10 ^ stamp.fraction.length : ℕ) := by
  rw [Stamp.instant]
  generalize (stamp.date.dayNumber * 86400 + stamp.time.hour * 3600 + stamp.time.minute * 60 +
    stamp.time.second - stamp.zone.seconds : ℤ) = seconds
  have scaled : (1000 : ℚ) * (seconds + (valueOf stamp.fraction : ℚ) / 10 ^ stamp.fraction.length) =
      ((seconds * 1000 : ℤ) : ℚ) +
        ((valueOf stamp.fraction * 1000 : ℕ) : ℚ) / ((10 ^ stamp.fraction.length : ℕ) : ℚ) := by
    push_cast
    ring
  rw [scaled, Int.floor_intCast_add, Rat.floor_natCast_div_natCast]
  norm_cast

/-- The text up to the end of the seconds. -/
def Stamp.head (stamp : Stamp) : List UInt8 :=
  dateText stamp.date ++ (if stamp.lower then byte 't' else byte 'T') :: timeText stamp.time

theorem Stamp.text_eq (stamp : Stamp) :
    stamp.text = stamp.head ++ (fractionText stamp.fraction ++ stamp.zone.text) := by
  rw [Stamp.text, List.append_assoc]
  rfl

theorem Stamp.Valid.isAscii {stamp : Stamp} (valid : stamp.Valid) : isAscii stamp.text = true := by
  have digits : ∀ width n, WorkModel.isAscii (padded width n) = true :=
    fun width n => isAscii_of_digits (allDigits_padded width n)
  have colon : ∀ rest, WorkModel.isAscii (byte ':' :: rest) = WorkModel.isAscii rest := fun rest => Bool.true_and _
  have point : ∀ rest, WorkModel.isAscii (byte '.' :: rest) = WorkModel.isAscii rest := fun rest => Bool.true_and _
  have fraction : WorkModel.isAscii (fractionText stamp.fraction) = true := by
    rw [fractionText]
    split
    · rfl
    · rw [point, isAscii_of_digits valid.fraction]
  have zone : WorkModel.isAscii stamp.zone.text = true := by
    cases stamp.zone with
    | utc lower => cases lower <;> rfl
    | offset west hours minutes =>
      have sign : ∀ rest, WorkModel.isAscii ((if west then byte '-' else byte '+') :: rest) =
          WorkModel.isAscii rest := by
        intro rest
        cases west <;> exact Bool.true_and _
      rw [Zone.text, List.cons_append, sign, isAscii_append, colon, digits, digits]
      rfl
  have separator : ∀ rest, WorkModel.isAscii ((if stamp.lower then byte 't' else byte 'T') :: rest) =
      WorkModel.isAscii rest := by
    intro rest
    cases stamp.lower <;> exact Bool.true_and _
  rw [Stamp.text_eq, Stamp.head, isAscii_append, isAscii_append, isAscii_append, isAscii_dateText, separator,
    timeText, isAscii_append, colon, isAscii_append, colon, digits, digits, digits, fraction, zone]
  rfl

theorem head_eq_iff {stamp : Stamp} {a : List UInt8} {t b0 b1 c d0 d1 c' e0 e1 : UInt8}
    (date : dateText stamp.date = a) : stamp.head = a ++ [t, b0, b1, c, d0, d1, c', e0, e1] ↔
      (if stamp.lower then byte 't' else byte 'T') = t ∧ padded 2 stamp.time.hour = [b0, b1] ∧ byte ':' = c ∧
        padded 2 stamp.time.minute = [d0, d1] ∧ byte ':' = c' ∧ padded 2 stamp.time.second = [e0, e1] := by
  rw [Stamp.head, date, List.append_cancel_left_eq, Stamp.timeText]
  simp only [padded, List.nil_append, List.cons_append, List.cons.injEq]
  tauto

theorem parse_fixed {a tail : List UInt8} {t b0 b1 c d0 d1 c' e0 e1 : UInt8}
    (ten : a.length = 10) (nonempty : tail ≠ []) :
    parseExplicitTimestamp (a ++ ([t, b0, b1, c, d0, d1, c', e0, e1] ++ tail)) = .ok moment ↔
      isAscii (a ++ ([t, b0, b1, c, d0, d1, c', e0, e1] ++ tail)) = true ∧
      (a[4]? = some (byte '-') ∧ a[7]? = some (byte '-') ∧ (t = byte 'T' ∨ t = byte 't') ∧
        c = byte ':' ∧ c' = byte ':') ∧
      ∃ date, parseIsoDate a = .ok date ∧ ∃ hour, parseAsciiDigits [b0, b1] = .ok hour ∧
      ∃ minute, parseAsciiDigits [d0, d1] = .ok minute ∧ ∃ second, parseAsciiDigits [e0, e1] = .ok second ∧
      (LocalTime.mk (hour % 2 ^ 8) (minute % 2 ^ 8) (second % 2 ^ 8)).validate = .ok () ∧
      ∃ zone, zoneStart (a ++ [t, b0, b1, c, d0, d1, c', e0, e1] ++ tail) = .ok zone ∧
      ∃ millis, fractionMillis (a ++ [t, b0, b1, c, d0, d1, c', e0, e1] ++ tail) zone = .ok millis ∧
      ∃ offset, offsetSeconds (a ++ [t, b0, b1, c, d0, d1, c', e0, e1] ++ tail) zone = .ok offset ∧
        utcMillis date ⟨hour % 2 ^ 8, minute % 2 ^ 8, second % 2 ^ 8⟩ millis offset = .ok moment := by
  have early : ∀ i rest, i < 10 → (a ++ rest)[i]? = a[i]? :=
    fun i rest inside => List.getElem?_append_left (by omega)
  have late : ∀ i rest, (a ++ rest)[10 + i]? = rest[i]? := by
    intro i rest
    have shifted := behind a rest i
    rwa [ten] at shifted
  have tail' := List.length_pos_of_ne_nil nonempty
  have parts : ∀ before mid after : List UInt8, before ++ (mid ++ after) =
      [t, b0, b1, c, d0, d1, c', e0, e1] ++ tail →
      slice (a ++ ([t, b0, b1, c, d0, d1, c', e0, e1] ++ tail)) (10 + before.length)
        (10 + before.length + mid.length) = .ok mid := by
    rintro before mid after split
    rw [← split, ← List.append_assoc]
    exact slice_middle (by rw [List.length_append, ten]) rfl
  have date : slice (a ++ ([t, b0, b1, c, d0, d1, c', e0, e1] ++ tail)) 0 10 = .ok a :=
    @slice_middle [] a _ 0 10 rfl (by omega)
  have hour : slice (a ++ ([t, b0, b1, c, d0, d1, c', e0, e1] ++ tail)) 11 13 = .ok [b0, b1] :=
    parts [t] [b0, b1] _ rfl
  have minute : slice (a ++ ([t, b0, b1, c, d0, d1, c', e0, e1] ++ tail)) 14 16 = .ok [d0, d1] :=
    parts [t, b0, b1, c] [d0, d1] _ rfl
  have second : slice (a ++ ([t, b0, b1, c, d0, d1, c', e0, e1] ++ tail)) 17 19 = .ok [e0, e1] :=
    parts [t, b0, b1, c, d0, d1, c'] [e0, e1] _ rfl
  have single : ∀ (found : Option UInt8) (allowed : UInt8),
      (∃ b ∈ [allowed], found = some b) ↔ found = some allowed := by
    intro found allowed
    simp only [List.mem_singleton, exists_eq_left]
  have separator : (∃ b ∈ [byte 'T', byte 't'], ([t, b0, b1, c, d0, d1, c', e0, e1] ++ tail)[0]? = some b) ↔
      t = byte 'T' ∨ t = byte 't' := by
    simp
  have colons : ([t, b0, b1, c, d0, d1, c', e0, e1] ++ tail)[3]? = some c ∧
      ([t, b0, b1, c, d0, d1, c', e0, e1] ++ tail)[6]? = some c' := ⟨rfl, rfl⟩
  have enough : ¬ (a ++ ([t, b0, b1, c, d0, d1, c', e0, e1] ++ tail)).length < 20 := by
    rw [List.length_append, List.length_append, ten, not_lt]
    exact Nat.add_le_add_left (Nat.add_le_add_left tail' 9) 10
  rw [parseExplicitTimestamp, check_eq_ok, refuse_eq_ok, not_or, Bool.not_eq_false, and_iff_left enough,
    check_eq_ok, expect_eq_ok, early 4 _ (by decide), single, check_eq_ok, expect_eq_ok,
    early 7 _ (by decide), single, check_eq_ok, expect_eq_ok, late 0, separator, check_eq_ok, expect_eq_ok,
    late 3, colons.1, single, check_eq_ok, expect_eq_ok, late 6, colons.2, single, date, ok_bind,
    Option.some.injEq, Option.some.injEq, hour, minute, second, List.append_assoc a]
  refine and_congr_right fun _ => ?_
  rw [and_assoc, and_assoc, and_assoc, and_assoc]
  refine and_congr_right fun _ => and_congr_right fun _ => and_congr_right fun _ => and_congr_right fun _ =>
    and_congr_right fun _ => ?_
  refine bind_eq_ok.trans (exists_congr fun date => and_congr_right fun _ => ?_)
  refine bind_eq_ok.trans (exists_congr fun hour => and_congr_right fun _ => ?_)
  refine bind_eq_ok.trans (exists_congr fun minute => and_congr_right fun _ => ?_)
  refine bind_eq_ok.trans (exists_congr fun second => and_congr_right fun _ => ?_)
  refine check_eq_ok.trans (and_congr mapError_eq_ok ?_)
  refine bind_eq_ok.trans (exists_congr fun zone => and_congr_right fun _ => ?_)
  refine bind_eq_ok.trans (exists_congr fun millis => and_congr_right fun _ => ?_)
  exact bind_eq_ok

theorem floor_nonneg_iff (stamp : Stamp) : 0 ≤ stamp.instant ↔ 0 ≤ ⌊1000 * stamp.instant⌋ := by
  rw [Int.floor_nonneg]
  exact (mul_nonneg_iff_of_pos_left (by norm_num)).symm

theorem fraction_short {digits : List UInt8} (allDigits : AllDigits digits) :
    valueOf digits * 1000 / 10 ^ digits.length < 1000 := by
  rw [Nat.div_lt_iff_lt_mul (Nat.pow_pos (by decide)), mul_comm]
  exact Nat.mul_lt_mul_of_pos_left (valueOf_lt allDigits) (by decide)

theorem stamp_of_parsed
    (whole : parseExplicitTimestamp bytes = .ok moment) : ∃ stamp : Stamp, stamp.Valid ∧ stamp.text = bytes ∧
      0 ≤ stamp.instant ∧ (moment.value : ℤ) = ⌊1000 * stamp.instant⌋ := by
  have parsed := whole
  rw [parseExplicitTimestamp, check_eq_ok, refuse_eq_ok, not_or, not_lt] at parsed
  obtain ⟨⟨-, length⟩, -⟩ := parsed
  obtain ⟨head, tail, seconds, nonempty, rfl⟩ : ∃ head tail, head.length = 19 ∧ tail ≠ [] ∧
      head ++ tail = bytes := by
    refine ⟨bytes.take 19, bytes.drop 19, List.length_take_of_le (by omega), ?_, List.take_append_drop _ _⟩
    exact List.ne_nil_of_length_pos (by rw [List.length_drop]; omega)
  obtain ⟨a, t, b0, b1, c, d0, d1, c', e0, e1, ten, rfl⟩ : ∃ a t b0 b1 c d0 d1 c' e0 e1, a.length = 10 ∧
      head = a ++ [t, b0, b1, c, d0, d1, c', e0, e1] := by
    refine ⟨head.take 10, ?_⟩
    have rest : (head.drop 10).length = 9 := by rw [List.length_drop, seconds]
    match split : head.drop 10, rest with
    | [t, b0, b1, c, d0, d1, c', e0, e1], _ =>
      refine ⟨t, b0, b1, c, d0, d1, c', e0, e1, List.length_take_of_le (by omega), ?_⟩
      rw [← split, List.take_append_drop]
  rw [List.append_assoc, parse_fixed ten nonempty] at whole
  obtain ⟨-, ⟨-, -, separator, rfl, rfl⟩, date, ofDate, hour, ofHour, minute, ofMinute, second, ofSecond,
    inDay, zoneAt, ofZone, millis, ofMillis, offset, ofOffset, total⟩ := whole
  obtain ⟨valid, text⟩ := parseIsoDate_eq_ok.mp ofDate
  obtain ⟨small, hours⟩ := parse_pair.mp ofHour
  obtain ⟨small', minutes⟩ := parse_pair.mp ofMinute
  obtain ⟨small'', seconds'⟩ := parse_pair.mp ofSecond
  rw [Nat.mod_eq_of_lt (show hour < 2 ^ 8 by omega), Nat.mod_eq_of_lt (show minute < 2 ^ 8 by omega),
    Nat.mod_eq_of_lt (show second < 2 ^ 8 by omega)] at inDay total
  obtain ⟨part, rest, nonempty', rfl, rfl⟩ := zoneStart_bound seconds nonempty ofZone
  obtain ⟨fraction, digits, fractionPart, ofFraction⟩ := (fractionMillis_eq_ok seconds).mp ofMillis
  have place : (a ++ [t, b0, b1, byte ':', d0, d1, byte ':', e0, e1] ++ part).length = 19 + part.length := by
    rw [List.length_append, seconds]
  rw [← List.append_assoc, ← place, offsetSeconds_eq_ok nonempty'] at ofOffset
  obtain ⟨zone, zoneValid, zoneText, ofZone'⟩ := ofOffset
  have letter : (if (t == byte 't') = true then byte 't' else byte 'T') = t := by
    rcases separator with rfl | rfl <;> rfl
  have stampHead := (@head_eq_iff ⟨date, t == byte 't', ⟨hour, minute, second⟩, fraction, zone⟩ a t b0 b1
    (byte ':') d0 d1 (byte ':') e0 e1 text).mpr ⟨letter, hours, rfl, minutes, rfl, seconds'⟩
  rw [← ofFraction, ← ofZone', utcMillis_eq_ok valid inDay (fraction_short digits)
    (zone_seconds_bounds zoneValid)] at total
  have floor := Stamp.floor_instant ⟨date, t == byte 't', ⟨hour, minute, second⟩, fraction, zone⟩
  refine ⟨⟨date, t == byte 't', ⟨hour, minute, second⟩, fraction, zone⟩,
    ⟨valid, inDay, digits, zoneValid⟩, ?_, ?_, ?_⟩
  · rw [Stamp.text_eq, stampHead, fractionPart, zoneText]
  · rw [floor_nonneg_iff, floor, ← total.2]
    exact total.1
  · rw [floor, total.2]

theorem Stamp.length_head (stamp : Stamp) : stamp.head.length = 19 := by
  rw [Stamp.head, Stamp.timeText, List.length_append, length_dateText]
  simp only [List.length_cons, List.length_append, length_padded]

theorem Stamp.head_eq (stamp : Stamp) : ∃ b0 b1 d0 d1 e0 e1,
    stamp.head = dateText stamp.date ++ [if stamp.lower then byte 't' else byte 'T', b0, b1, byte ':', d0, d1,
      byte ':', e0, e1] ∧
    padded 2 stamp.time.hour = [b0, b1] ∧ padded 2 stamp.time.minute = [d0, d1] ∧
    padded 2 stamp.time.second = [e0, e1] := by
  have pair : ∀ n, padded 2 n = [UInt8.ofNat (48 + n / 10 % 10), UInt8.ofNat (48 + n % 10)] := fun n => rfl
  refine ⟨_, _, _, _, _, _, ?_, pair _, pair _, pair _⟩
  rw [Stamp.head, timeText, pair, pair, pair]
  rfl

theorem exists_ok {α : Type} {x : Except Fault α} {a : α} (found : x = .ok a) {p : α → Prop} :
    (∃ b, x = .ok b ∧ p b) ↔ p a := by
  constructor
  · rintro ⟨b, same, holds⟩
    exact Except.ok.inj (found.symm.trans same) ▸ holds
  · exact fun holds => ⟨a, found, holds⟩

theorem parse_text {stamp : Stamp} (valid : stamp.Valid) :
    parseExplicitTimestamp stamp.text = .ok moment ↔ (moment.value : ℤ) = ⌊1000 * stamp.instant⌋ := by
  obtain ⟨hour, minute, second⟩ := validTime_iff.mp valid.time
  obtain ⟨b0, b1, d0, d1, e0, e1, head, hours, minutes, seconds⟩ := stamp.head_eq
  have zoneNonempty : stamp.zone.text ≠ [] := by
    cases stamp.zone <;> exact List.cons_ne_nil _ _
  have tailNonempty : Stamp.fractionText stamp.fraction ++ stamp.zone.text ≠ [] :=
    List.append_ne_nil_of_right_ne_nil _ zoneNonempty
  have ascii := valid.isAscii
  have place : (stamp.head ++ Stamp.fractionText stamp.fraction).length =
      19 + (Stamp.fractionText stamp.fraction).length := by
    rw [List.length_append, stamp.length_head]
  have zoneAt := @zoneStart_text stamp.head (Stamp.fractionText stamp.fraction) stamp.zone stamp.length_head
  have millis := (@fractionMillis_eq_ok stamp.zone.text stamp.head (Stamp.fractionText stamp.fraction) _
    stamp.length_head).mpr ⟨stamp.fraction, valid.fraction, rfl, rfl⟩
  have offset := (@offsetSeconds_eq_ok (stamp.head ++ Stamp.fractionText stamp.fraction) stamp.zone.text _
    zoneNonempty).mpr ⟨stamp.zone, valid.zone, rfl, rfl⟩
  rw [place, List.append_assoc] at offset
  rw [Stamp.text_eq] at ascii ⊢
  rw [head, List.append_assoc] at ascii zoneAt millis offset ⊢
  have letter : (if stamp.lower then byte 't' else byte 'T') = byte 'T' ∨
      (if stamp.lower then byte 't' else byte 'T') = byte 't' := by
    cases stamp.lower
    · exact .inl rfl
    · exact .inr rfl
  have narrowed : LocalTime.mk (stamp.time.hour % 2 ^ 8) (stamp.time.minute % 2 ^ 8)
      (stamp.time.second % 2 ^ 8) = stamp.time := by
    rw [Nat.mod_eq_of_lt (by omega), Nat.mod_eq_of_lt (by omega), Nat.mod_eq_of_lt (by omega)]
  have dashes : (dateText stamp.date)[4]? = some (byte '-') ∧ (dateText stamp.date)[7]? = some (byte '-') :=
    ⟨rfl, rfl⟩
  have ofDate : parseIsoDate (dateText stamp.date) = .ok stamp.date := parseIsoDate_eq_ok.mpr ⟨valid.date, rfl⟩
  have ofHour := parse_pair.mpr ⟨(by omega : stamp.time.hour < 100), hours⟩
  have ofMinute := parse_pair.mpr ⟨(by omega : stamp.time.minute < 100), minutes⟩
  have ofSecond := parse_pair.mpr ⟨(by omega : stamp.time.second < 100), seconds⟩
  rw [parse_fixed (length_dateText _) tailNonempty, and_iff_right ascii,
    and_iff_right ⟨dashes.1, dashes.2, letter, rfl, rfl⟩, exists_ok ofDate, exists_ok ofHour,
    exists_ok ofMinute, exists_ok ofSecond, narrowed, and_iff_right valid.time, List.append_assoc,
    exists_ok zoneAt, exists_ok millis, exists_ok offset,
    utcMillis_eq_ok valid.date valid.time (fraction_short valid.fraction) (zone_seconds_bounds valid.zone),
    ← stamp.floor_instant]
  exact and_iff_right (Int.natCast_nonneg _)

theorem parseExplicitTimestamp_eq_ok :
    parseExplicitTimestamp bytes = .ok moment ↔ ∃ stamp : Stamp, stamp.Valid ∧ stamp.text = bytes ∧
      0 ≤ stamp.instant ∧ (moment.value : ℤ) = ⌊1000 * stamp.instant⌋ := by
  constructor
  · exact stamp_of_parsed
  · rintro ⟨stamp, valid, rfl, -, value⟩
    exact (parse_text valid).mpr value

section Panics

variable {α β : Type} {bytes : List UInt8}

def Calm (x : Except Fault α) : Prop := x ≠ .error .panic

theorem calm_bind {x : Except Fault α} {f : α → Except Fault β} (first : Calm x)
    (next : ∀ a, x = .ok a → Calm (f a)) : Calm (x >>= f) := by
  cases x with
  | error fault => exact fun panics => first (congrArg Except.error (Except.error.inj panics))
  | ok a => exact next a rfl

theorem calm_refuse {c : Prop} [Decidable c] {error : ModelError} : Calm (refuse c (Fault.model error)) := by
  rw [refuse]
  split
  · intro fault
    cases fault
  · intro fault
    cases fault

theorem calm_mapError {x : Except ModelError α} : Calm (x.mapError Fault.model) := by
  cases x <;> exact nofun

theorem calm_slice {start stop : ℕ} (inside : start ≤ stop ∧ stop ≤ bytes.length) :
    Calm (slice bytes start stop) := by
  rw [slice, if_pos inside]
  exact nofun

theorem calm_index {i : ℕ} (inside : i < bytes.length) : Calm (index bytes i) := by
  rw [index, List.getElem?_eq_getElem inside]
  exact nofun

theorem calm_expect {i : ℕ} {allowed : List UInt8} {error : ModelError} (inside : i < bytes.length) :
    Calm (expect bytes i allowed error) :=
  calm_bind (calm_index inside) fun _ _ => calm_refuse

theorem calm_accumulate (start : ℕ) : Calm (bytes.foldlM accumulateDigit start) := by
  induction bytes generalizing start with
  | nil => exact nofun
  | cons found rest ih =>
    rw [List.foldlM_cons]
    refine calm_bind ?_ fun next _ => ih next
    rw [accumulateDigit]
    split <;> exact nofun

theorem calm_digits : Calm (parseAsciiDigits bytes) := calm_bind calm_refuse fun _ _ => calm_accumulate 0

theorem calm_part {start stop : ℕ} (inside : start ≤ stop ∧ stop ≤ bytes.length) :
    Calm (slice bytes start stop >>= parseAsciiDigits) :=
  calm_bind (calm_slice inside) fun _ _ => calm_digits

theorem calm_date : Calm (parseIsoDate bytes) := by
  refine calm_bind calm_refuse fun _ checked => ?_
  obtain ⟨-, length⟩ := not_or.mp (refuse_eq_ok.mp checked)
  rw [not_not] at length
  refine calm_bind (calm_expect (by omega)) fun _ _ => calm_bind (calm_expect (by omega)) fun _ _ => ?_
  refine calm_bind (calm_part (by omega)) fun _ _ => calm_bind (calm_part (by omega)) fun _ _ => ?_
  exact calm_bind (calm_part (by omega)) fun _ _ => calm_bind calm_mapError fun _ _ => nofun

theorem calm_zoneStart : Calm (zoneStart bytes) := by
  rw [zoneStart]
  split
  · exact nofun
  · split
    · exact nofun
    · split
      · cases lastSign bytes <;> exact nofun
      · exact nofun

theorem calm_fraction {zone : ℕ} (enough : 20 ≤ bytes.length) (inside : zone < bytes.length) :
    Calm (fractionMillis bytes zone) := by
  rw [fractionMillis]
  split
  · exact nofun
  · refine calm_bind (calm_expect (by omega)) fun _ _ => calm_bind calm_refuse fun _ late => ?_
    have behindPoint := refuse_eq_ok.mp late
    refine calm_bind (calm_slice (by omega)) fun fraction _ => calm_bind calm_refuse fun _ _ => ?_
    exact calm_bind (calm_part ⟨Nat.zero_le _, Nat.min_le_left _ _⟩) fun _ _ => nofun

theorem calm_offset {zone : ℕ} (inside : zone < bytes.length) : Calm (offsetSeconds bytes zone) := by
  rw [offsetSeconds]
  split
  · exact calm_bind (calm_expect inside) fun _ _ => nofun
  · refine calm_bind (calm_bind (calm_index inside) fun found _ => ?_) fun _ _ => ?_
    · rw [offsetSign]
      split
      · exact nofun
      · split <;> exact nofun
    · refine calm_bind calm_refuse fun _ ended => ?_
      have length := not_not.mp (refuse_eq_ok.mp ended)
      refine calm_bind (calm_expect (by omega)) fun _ _ => calm_bind (calm_part (by omega)) fun _ _ => ?_
      exact calm_bind (calm_part (by omega)) fun _ _ => calm_bind calm_refuse fun _ _ => nofun

theorem calm_checked {n : ℤ} : Calm (checked n) := by
  rw [checked]
  split <;> exact nofun

theorem calm_total {date : LocalDate} {time : LocalTime} {millis : ℕ} {offset : ℤ} :
    Calm (utcMillis date time millis offset) := by
  refine calm_bind calm_checked fun _ _ => calm_bind calm_checked fun _ _ => ?_
  refine calm_bind calm_checked fun _ _ => calm_bind calm_checked fun _ _ => ?_
  refine calm_bind calm_checked fun _ _ => calm_bind calm_checked fun _ _ => ?_
  exact calm_bind calm_checked fun _ _ => calm_bind calm_refuse fun _ _ => nofun

theorem calm_timestamp : Calm (parseExplicitTimestamp bytes) := by
  refine calm_bind calm_refuse fun _ passed => ?_
  obtain ⟨-, enough⟩ := not_or.mp (refuse_eq_ok.mp passed)
  rw [not_lt] at enough
  refine calm_bind (calm_expect (by omega)) fun _ _ => calm_bind (calm_expect (by omega)) fun _ _ => ?_
  refine calm_bind (calm_expect (by omega)) fun _ _ => calm_bind (calm_expect (by omega)) fun _ _ => ?_
  refine calm_bind (calm_expect (by omega)) fun _ _ => ?_
  refine calm_bind (calm_bind (calm_slice (by omega)) fun _ _ => calm_date) fun _ _ => ?_
  refine calm_bind (calm_part (by omega)) fun _ _ => calm_bind (calm_part (by omega)) fun _ _ => ?_
  refine calm_bind (calm_part (by omega)) fun _ _ => calm_bind calm_mapError fun _ _ => ?_
  refine calm_bind calm_zoneStart fun zone found => ?_
  obtain ⟨part, rest, nonempty, split, rfl⟩ := @zoneStart_bound (bytes.take 19) (bytes.drop 19) zone
    (List.length_take_of_le (by omega)) (List.ne_nil_of_length_pos (by rw [List.length_drop]; omega))
    (by rwa [List.take_append_drop])
  have positive := List.length_pos_of_ne_nil nonempty
  have length := congrArg List.length split
  rw [List.length_append, List.length_drop] at length
  refine calm_bind (calm_fraction enough (by omega)) fun _ _ => ?_
  exact calm_bind (calm_offset (by omega)) fun _ _ => calm_total

end Panics

section Legacy

def Denotes (bytes : List UInt8) (instant : ℚ) : Prop :=
  (∃ digits, digits ≠ [] ∧ AllDigits digits ∧ utf8 "unix-ms:" ++ digits = bytes ∧
    (valueOf digits : ℚ) / 1000 = instant) ∨
  ∃ stamp : Stamp, stamp.Valid ∧ stamp.text = bytes ∧ stamp.instant = instant

theorem calm_map {α β : Type} {x : Except Fault α} {f : α → β} (calm : Calm x) : Calm (f <$> x) := by
  cases x with
  | error fault => exact fun panics => calm (congrArg Except.error (Except.error.inj panics))
  | ok a => exact nofun

theorem calm_legacy (value : String) : Calm (BusinessDate.parseLegacyDue value) := by
  rw [BusinessDate.parseLegacyDue]
  dsimp only
  split
  · exact calm_bind calm_refuse fun _ _ => calm_bind calm_refuse fun _ _ => nofun
  · split
    · exact calm_map calm_date
    · exact calm_map calm_timestamp

theorem map_eq_ok' {α β : Type} {x : Except Fault α} {f : α → β} {b : β} :
    f <$> x = .ok b ↔ ∃ a, x = .ok a ∧ f a = b := Drain.map_eq_ok

variable {value : String} {due : BusinessDate}

theorem parse_scheme {digits : List UInt8} (text : utf8 value = utf8 "unix-ms:" ++ digits) :
    BusinessDate.parseLegacyDue value = .ok due ↔ digits ≠ [] ∧ AllDigits digits ∧ valueOf digits < 2 ^ 64 ∧
      .instant ⟨valueOf digits⟩ = due := by
  have scheme : (utf8 value).take (utf8 "unix-ms:").length = utf8 "unix-ms:" := by
    rw [text, List.take_left']
    rfl
  have rest : (utf8 value).drop (utf8 "unix-ms:").length = digits := by
    rw [text, List.drop_left']
    rfl
  rw [BusinessDate.parseLegacyDue]
  dsimp only
  rw [if_pos scheme, rest, check_eq_ok, refuse_eq_ok, not_or, Bool.not_eq_false, allDigits_iff, check_eq_ok,
    refuse_eq_ok, not_le, and_assoc]
  exact and_congr_right fun _ => and_congr_right fun _ => and_congr_right fun _ => (Except.ok.injEq _ _).to_iff

theorem parse_other (other : ∀ digits, utf8 value ≠ utf8 "unix-ms:" ++ digits) :
    BusinessDate.parseLegacyDue value = .ok due ↔
      (utf8 value).length = 10 ∧ (∃ date, parseIsoDate (utf8 value) = .ok date ∧ .localDate date = due) ∨
      (utf8 value).length ≠ 10 ∧
        ∃ moment, parseExplicitTimestamp (utf8 value) = .ok moment ∧ .instant moment = due := by
  have unscheme : ¬ (utf8 value).take (utf8 "unix-ms:").length = utf8 "unix-ms:" := by
    intro same
    have split := List.take_append_drop (utf8 "unix-ms:").length (utf8 value)
    rw [same] at split
    exact other _ split.symm
  rw [BusinessDate.parseLegacyDue]
  dsimp only
  rw [if_neg unscheme]
  by_cases ten : (utf8 value).length = 10
  · rw [if_pos ten, map_eq_ok']
    simp only [ten, ne_eq, not_true_eq_false, false_and, or_false, true_and]
  · rw [if_neg ten, map_eq_ok']
    simp only [ten, ne_eq, not_false_eq_true, false_and, false_or, true_and]

theorem scheme_ne {width n : ℕ} {digits rest : List UInt8} :
    padded (width + 1) n ++ rest ≠ utf8 "unix-ms:" ++ digits := by
  intro same
  obtain ⟨first, more, split⟩ := List.exists_cons_of_ne_nil
    (List.ne_nil_of_length_pos (by rw [length_padded]; omega : 0 < (padded (width + 1) n).length))
  have digit := allDigits_padded (width + 1) n first (split ▸ List.mem_cons_self)
  have scheme : utf8 "unix-ms:" = byte 'u' :: utf8 "nix-ms:" := by decide
  rw [split, scheme] at same
  rw [List.head_eq_of_cons_eq same] at digit
  exact absurd digit (by decide)

theorem dateText_ne_scheme {date : LocalDate} {digits rest : List UInt8} :
    dateText date ++ rest ≠ utf8 "unix-ms:" ++ digits := by
  rw [dateText, List.append_assoc, List.append_assoc]
  exact scheme_ne

theorem stampText_ne_scheme {stamp : Stamp} {digits : List UInt8} : stamp.text ≠ utf8 "unix-ms:" ++ digits := by
  rw [Stamp.text_eq, Stamp.head, List.append_assoc]
  exact dateText_ne_scheme

theorem stampText_length (stamp : Stamp) : stamp.text.length ≠ 10 := by
  rw [Stamp.text_eq, List.length_append, stamp.length_head]
  omega

theorem floor_small {stamp : Stamp} (valid : stamp.Valid) : ⌊1000 * stamp.instant⌋ < 2 ^ 64 := by
  obtain ⟨-, most⟩ := dayNumber_bounds valid.date
  obtain ⟨hour, minute, second⟩ := validTime_iff.mp valid.time
  have short := fraction_short valid.fraction
  obtain ⟨west, -⟩ := zone_seconds_bounds valid.zone
  rw [stamp.floor_instant]
  omega

theorem parseLegacyDue_eq_ok : BusinessDate.parseLegacyDue value = .ok due ↔
    (∃ date, DateValid date ∧ dateText date = utf8 value ∧ .localDate date = due) ∨
    ∃ instant, ∃ moment : TimestampMs, Denotes (utf8 value) instant ∧ 0 ≤ instant ∧
      (moment.value : ℤ) = ⌊1000 * instant⌋ ∧ moment.value < 2 ^ 64 ∧ .instant moment = due := by
  have whole : ∀ n : ℕ, ⌊(1000 : ℚ) * (n / 1000)⌋ = n := by
    intro n
    rw [mul_div_cancel₀ _ (by norm_num)]
    exact Int.floor_natCast n
  by_cases scheme : ∃ digits, utf8 value = utf8 "unix-ms:" ++ digits
  · obtain ⟨digits, text⟩ := scheme
    rw [parse_scheme text, text]
    constructor
    · rintro ⟨nonempty, allDigits, small, rfl⟩
      exact .inr ⟨_, ⟨valueOf digits⟩, .inl ⟨digits, nonempty, allDigits, rfl, rfl⟩, by positivity,
        (whole _).symm, small, rfl⟩
    · rintro (⟨date, -, same, -⟩ | ⟨_, moment, ⟨digits', nonempty, allDigits, same, rfl⟩ | ⟨stamp, -, same, -⟩,
        -, value, small, rfl⟩)
      · exact absurd ((List.append_nil _).trans same) dateText_ne_scheme
      · obtain rfl := List.append_cancel_left same
        rw [whole, Int.natCast_inj] at value
        refine ⟨nonempty, allDigits, value ▸ small, ?_⟩
        rw [← value]
      · exact absurd same stampText_ne_scheme
  · have other : ∀ digits, utf8 value ≠ utf8 "unix-ms:" ++ digits := fun digits text => scheme ⟨digits, text⟩
    rw [parse_other other]
    constructor
    · rintro (⟨-, date, parsed, rfl⟩ | ⟨-, moment, parsed, rfl⟩)
      · obtain ⟨valid, text⟩ := parseIsoDate_eq_ok.mp parsed
        exact .inl ⟨date, valid, text, rfl⟩
      · obtain ⟨stamp, valid, text, nonneg, floor⟩ := stamp_of_parsed parsed
        have small := floor_small valid
        exact .inr ⟨_, moment, .inr ⟨stamp, valid, text, rfl⟩, nonneg, floor, by omega, rfl⟩
    · rintro (⟨date, valid, text, rfl⟩ | ⟨_, moment, ⟨digits, -, -, text, -⟩ | ⟨stamp, valid, text, rfl⟩,
        -, floor, -, rfl⟩)
      · exact .inl ⟨text ▸ length_dateText date, date, parseIsoDate_eq_ok.mpr ⟨valid, text⟩, rfl⟩
      · exact absurd text.symm (other digits)
      · refine .inr ⟨text ▸ stampText_length stamp, moment, ?_, rfl⟩
        rw [← text]
        exact (parse_text valid).mpr floor

theorem denoted_value {instant : ℚ} (denotes : Denotes (utf8 value) instant)
    (parsed : BusinessDate.parseLegacyDue value = .ok due) :
    ∃ moment : TimestampMs, due = .instant moment ∧ (moment.value : ℤ) = ⌊1000 * instant⌋ := by
  rcases denotes with ⟨digits, -, -, text, rfl⟩ | ⟨stamp, valid, text, rfl⟩
  · obtain ⟨-, -, -, rfl⟩ := (parse_scheme text.symm).mp parsed
    refine ⟨_, rfl, ?_⟩
    rw [mul_div_cancel₀ _ (by norm_num)]
    exact (Int.floor_natCast _).symm
  · have other : ∀ digits, utf8 value ≠ utf8 "unix-ms:" ++ digits :=
      fun digits same => stampText_ne_scheme (text.trans same)
    rcases (parse_other other).mp parsed with ⟨ten, -⟩ | ⟨-, moment, parsed', rfl⟩
    · exact absurd (text ▸ ten) (stampText_length stamp)
    · rw [← text, parse_text valid] at parsed'
      exact ⟨moment, rfl, parsed'⟩

/-- Due dates are read without a panic, exactly from the texts of the documented forms and as the exact
instant in whole milliseconds, so the same instant gives the same value. -/
theorem due_texts_exact :
    (∀ value, BusinessDate.parseLegacyDue value ≠ .error .panic ∧
      parseExplicitTimestamp (utf8 value) ≠ .error .panic) ∧
    (∀ value moment, parseExplicitTimestamp (utf8 value) = .ok moment ↔ ∃ stamp : Stamp, stamp.Valid ∧
      stamp.text = utf8 value ∧ 0 ≤ stamp.instant ∧ (moment.value : ℤ) = ⌊1000 * stamp.instant⌋) ∧
    (∀ value due, BusinessDate.parseLegacyDue value = .ok due ↔
      (∃ date, DateValid date ∧ dateText date = utf8 value ∧ .localDate date = due) ∨
      ∃ instant, ∃ moment : TimestampMs, Denotes (utf8 value) instant ∧ 0 ≤ instant ∧
        (moment.value : ℤ) = ⌊1000 * instant⌋ ∧ moment.value < 2 ^ 64 ∧ .instant moment = due) ∧
    ∀ value value' instant due due', Denotes (utf8 value) instant → Denotes (utf8 value') instant →
      BusinessDate.parseLegacyDue value = .ok due → BusinessDate.parseLegacyDue value' = .ok due' →
        due = due' := by
  refine ⟨fun value => ⟨calm_legacy value, calm_timestamp⟩, fun _ _ => parseExplicitTimestamp_eq_ok,
    fun _ _ => parseLegacyDue_eq_ok, ?_⟩
  intro value value' instant due due' denotes denotes' parsed parsed'
  obtain ⟨⟨moment⟩, rfl, floor⟩ := denoted_value denotes parsed
  obtain ⟨⟨moment'⟩, rfl, floor'⟩ := denoted_value denotes' parsed'
  have same : moment = moment' := Int.natCast_inj.mp (floor.trans floor'.symm)
  rw [same]

end Legacy

end Boreal.WorkModel
