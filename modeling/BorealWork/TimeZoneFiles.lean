/- Time-zone files: the reader of the project planner, which takes the table of transitions, and that
of the manager's clock, which checks more and follows the rule of the footer too. -/
import BorealWork.BusinessTime
import BorealWork.SourceParser

namespace Boreal.TimeZones
open Drain
open Source (beBytes fromBeBytes utf8)
open WorkModel (daysFromCivil daysInMonth isLeapYear)

-- Both readers wrap their texts in one error of their own, which is left out here.

section Fields

def magic : List UInt8 := utf8 "TZif"

def at? (bytes : List UInt8) (start count : ℕ) : Option (List UInt8) :=
  if start + count ≤ bytes.length then some ((bytes.drop start).take count) else none

variable (truncated : String) (bytes : List UInt8)

def readU32 (offset : ℕ) : Except String ℕ :=
  (at? bytes offset 4).elim (.error truncated) fun value => .ok (fromBeBytes value)

def readI32 (offset : ℕ) : Except String ℤ := do
  return Int.bmod (← readU32 truncated bytes offset) (2 ^ 32)

def readI64 (offset : ℕ) : Except String ℤ :=
  (at? bytes offset 8).elim (.error truncated) fun value => .ok (Int.bmod (fromBeBytes value) (2 ^ 64))

def readTime (timeSize offset : ℕ) : Except String ℤ :=
  if timeSize = 8 then readI64 truncated bytes offset else readI32 truncated bytes offset

def readEach {α : Type} (read : ℕ → Except String α) (width : ℕ) : ℕ → ℕ → Except String (List α)
  | _, 0 => .ok []
  | cursor, count + 1 => do
    let value ← read cursor
    return value :: (← readEach read width (cursor + width) count)

/-- The six counts of a header, in the order of the file. -/
structure Counts where
  gmt : ℕ
  standard : ℕ
  leap : ℕ
  time : ℕ
  type : ℕ
  char : ℕ

def readCounts (start : ℕ) : Except String Counts := do
  return ⟨← readU32 truncated bytes (start + 20), ← readU32 truncated bytes (start + 24),
    ← readU32 truncated bytes (start + 28), ← readU32 truncated bytes (start + 32),
    ← readU32 truncated bytes (start + 36), ← readU32 truncated bytes (start + 40)⟩

/-- The length of what stands behind the local time types. -/
def Counts.tail (counts : Counts) (timeSize : ℕ) : ℕ :=
  counts.char + counts.leap * (timeSize + 4) + counts.standard + counts.gmt

structure TzifBlock where
  stop : ℕ
  transitionTimes : List ℤ
  transitionTypes : List UInt8
  offsets : List ℤ
  leapCount : ℕ
  deriving DecidableEq

/-- The tables behind the header at `start`. -/
def readTables (indexTable overflow short : String) (start timeSize : ℕ) (counts : Counts) :
    Except String TzifBlock := do
  let cursor := start + 44
  let transitionTimes ← readEach (readTime truncated bytes timeSize) timeSize cursor counts.time
  let cursor := cursor + counts.time * timeSize
  let transitionTypes ← (at? bytes cursor counts.time).elim (.error indexTable) .ok
  let cursor := cursor + counts.time
  let offsets ← readEach (readI32 truncated bytes) 6 cursor counts.type
  let cursor := cursor + counts.type * 6 + counts.tail timeSize
  refuse (2 ^ 64 ≤ cursor) overflow
  refuse (bytes.length < cursor) short
  return ⟨cursor, transitionTimes, transitionTypes, offsets, counts.leap⟩

def resolveTransitions (outOfRange : String) (block : TzifBlock) : Except String (List (ℤ × ℤ)) :=
  (block.transitionTimes.zip block.transitionTypes).mapM fun (time, index) =>
    block.offsets[index.toNat]?.elim (.error outOfRange) fun offset => .ok (time, offset)

/-- The offset of the last transition that is not later. -/
def latestOffset (transitions : List (ℤ × ℤ)) (instant : ℤ) : Option ℤ :=
  (transitions.reverse.find? (·.1 ≤ instant)).map Prod.snd

def isExtended (version : UInt8) : Bool := version = 0x32 || version = 0x33 || version = 0x34

end Fields

namespace Planning

structure TzifZone where
  transitions : List (ℤ × ℤ)
  offsets : List ℤ
  deriving DecidableEq

def parseTzifBlock (bytes : List UInt8) (start timeSize : ℕ) : Except String TzifBlock := do
  refuse (bytes.length < start + 44 ∨ (bytes.drop start).take 4 ≠ magic) "invalid TZif block"
  let counts ← readCounts "truncated TZif integer" bytes start
  readTables "truncated TZif integer" bytes "truncated transition index table"
    "TZif block size overflow" "truncated TZif data" start timeSize counts

namespace TzifZone

def parse (bytes : List UInt8) : Except String TzifZone := do
  refuse (bytes.length < 44 ∨ bytes.take 4 ≠ magic) "missing TZif header"
  let first ← parseTzifBlock bytes 0 4
  let block ← if isExtended (bytes.getD 4 0) then parseTzifBlock bytes first.stop 8 else .ok first
  let transitions ← resolveTransitions "transition type index out of range" block
  refuse (block.offsets = []) "timezone has no local types"
  return ⟨transitions, block.offsets⟩

def offsetAt (zone : TzifZone) (utcSeconds : ℤ) : ℤ :=
  (latestOffset zone.transitions utcSeconds).getD (zone.offsets.headD 0)

end TzifZone

end Planning

inductive PosixTransitionDay
  | julianNoLeap (day : ℕ)
  | julian (day : ℕ)
  | monthWeekday (month week weekday : ℕ)
  deriving DecidableEq

structure PosixTransitionRule where
  day : PosixTransitionDay
  transitionSeconds : ℤ
  deriving DecidableEq

/-- The days on which daylight time begins and ends. -/
structure PosixDaylight where
  offset : ℤ
  start : PosixTransitionRule
  stop : PosixTransitionRule
  deriving DecidableEq

structure PosixTimeZone where
  standardOffset : ℤ
  daylight : Option PosixDaylight
  deriving DecidableEq

/-- Arithmetic in 64 bits that fails where a result does not fit. -/
def checked (value : ℤ) : Option ℤ := if -2 ^ 63 ≤ value ∧ value < 2 ^ 63 then some value else none

def PosixTransitionDay.dayOf (year : ℤ) : PosixTransitionDay → Option ℤ
  | .julianNoLeap day =>
    checked (daysFromCivil year 1 1 + (day - 1 + if isLeapYear year ∧ 60 ≤ day then 1 else 0))
  | .julian day => checked (daysFromCivil year 1 1 + day)
  | .monthWeekday month week weekday =>
    let firstWeekday := ((daysFromCivil year month 1 + 4) % 7).toNat
    let last := daysInMonth year month
    let lastWeekday := ((daysFromCivil year month last + 4) % 7).toNat
    let monthDay := if week = 5 then last - (lastWeekday + 7 - weekday) % 7
      else 1 + (weekday + 7 - firstWeekday) % 7 + (week - 1) * 7
    some (daysFromCivil year month monthDay)

def PosixTransitionRule.atUtc (rule : PosixTransitionRule) (year offsetBefore : ℤ) : Option ℤ := do
  let day ← rule.day.dayOf year
  let midnight ← checked (day * 86400)
  let localTime ← checked (midnight + rule.transitionSeconds)
  checked (localTime - offsetBefore)

/-- The year of a day; quotients round towards zero. -/
def civilYear (days : ℤ) : ℤ :=
  let z := days + 719468
  let era := (if 0 ≤ z then z else z - 146096).tdiv 146097
  let dayOfEra := z - era * 146097
  let yearOfEra := (dayOfEra - dayOfEra.tdiv 1460 + dayOfEra.tdiv 36524 - dayOfEra.tdiv 146096).tdiv 365
  let dayOfYear := dayOfEra - (365 * yearOfEra + yearOfEra.tdiv 4 - yearOfEra.tdiv 100)
  let monthPrime := (5 * dayOfYear + 2).tdiv 153
  let month := monthPrime + if monthPrime < 10 then 3 else -9
  yearOfEra + era * 400 + if month ≤ 2 then 1 else 0

def PosixTimeZone.changes (rule : PosixTimeZone) (daylight : PosixDaylight) (year : ℤ) :
    List (ℤ × ℤ) :=
  [year - 2, year - 1, year, year + 1, year + 2].flatMap fun candidate =>
    ((daylight.start.atUtc candidate rule.standardOffset).map fun at_ => (at_, daylight.offset)).toList ++
      ((daylight.stop.atUtc candidate daylight.offset).map fun at_ =>
        (at_, rule.standardOffset)).toList

/-- `sort` orders changes by their time; which of two changes at one time comes first is its own. -/
def PosixTimeZone.offsetAt (sort : List (ℤ × ℤ) → List (ℤ × ℤ)) (rule : PosixTimeZone) (instant : ℤ) :
    ℤ :=
  match rule.daylight with
  | none => rule.standardOffset
  | some daylight =>
    if daylight.offset < rule.standardOffset then daylight.offset
    else (latestOffset (sort (rule.changes daylight (civilYear (instant / 86400)))) instant).getD
      rule.standardOffset

abbrev PosixParser : Type → Type := StateT (List UInt8) (Except String)

def isAsciiDigit (byte : UInt8) : Bool := 0x30 ≤ byte && byte ≤ 0x39

def isAsciiAlphabetic (byte : UInt8) : Bool :=
  (0x41 ≤ byte && byte ≤ 0x5A) || (0x61 ≤ byte && byte ≤ 0x7A)

def isAsciiGraphic (byte : UInt8) : Bool := 0x21 ≤ byte && byte ≤ 0x7E

def peek : PosixParser (Option UInt8) := do
  return (← get).head?

def advance : PosixParser Unit := modify List.tail

def fail {α : Type} (message : String) : PosixParser α := fun _ => .error message

def refuseFooter (c : Prop) [Decidable c] (message : String) : PosixParser Unit :=
  fun rest => (refuse c message).map fun u => (u, rest)

def expect (expected : Char) : PosixParser Unit := do
  refuseFooter ((← peek) ≠ some expected.toUInt8) "invalid TZif POSIX footer syntax"
  advance

def quotedName : List UInt8 → Except String (ℕ × List UInt8)
  | [] => .ok (0, [])
  | byte :: rest => do
    if byte = '>'.toUInt8 then return (0, byte :: rest)
    else
      refuse (isAsciiGraphic byte = false ∨ byte = ','.toUInt8 ∨ byte = '<'.toUInt8)
        "invalid quoted name in TZif POSIX footer"
      let (length, rest) ← quotedName rest
      return (length + 1, rest)

def name : PosixParser Unit := do
  let length ← (if (← peek) = some '<'.toUInt8 then do
      advance
      let length ← quotedName
      expect '>'
      return length
    else modifyGet fun rest =>
      ((rest.takeWhile isAsciiAlphabetic).length, rest.dropWhile isAsciiAlphabetic) : PosixParser ℕ)
  refuseFooter (length < 3) "TZif POSIX timezone names must have at least three characters"

/-- At most three digits are asked for, which no sum below overflows. -/
def number (maxDigits : ℕ) : PosixParser ℕ := do
  let digits ← modifyGet fun rest =>
    let digits := (rest.take maxDigits).takeWhile isAsciiDigit
    (digits, rest.drop digits.length)
  refuseFooter (digits = []) "expected a number in TZif POSIX footer"
  return digits.foldl (fun value byte => value * 10 + (byte.toNat - 48)) 0

/-- The number behind a colon, if there is one. -/
def sexagesimal : PosixParser ℕ := do
  if (← peek) = some ':'.toUInt8 then
    advance
    number 2
  else return 0

def clockValue (extended transition : Bool) : PosixParser ℤ := do
  let (sign, explicitSign) ← (do
    if (← peek) = some '+'.toUInt8 then
      advance
      return (1, true)
    else if (← peek) = some '-'.toUInt8 then
      advance
      return (-1, true)
    else return (1, false) : PosixParser (ℤ × Bool))
  let hours ← number 3
  refuseFooter ((if transition && extended then 167 else 24) < hours)
    "TZif POSIX clock hour is outside the supported range"
  let minutes ← sexagesimal
  let seconds ← sexagesimal
  refuseFooter (59 < minutes ∨ 59 < seconds ∨
      ((transition && extended) = false ∧ hours = 24 ∧ (minutes ≠ 0 ∨ seconds ≠ 0)) ∨
      (transition = true ∧ extended = false ∧ explicitSign = true))
    "invalid TZif POSIX clock value"
  return sign * (hours * 3600 + minutes * 60 + seconds : ℕ)

def transitionDay : PosixParser PosixTransitionDay := do
  match ← peek with
  | none => fail "invalid TZif POSIX transition rule"
  | some byte =>
    if byte = 'J'.toUInt8 then
      advance
      let day ← number 3
      refuseFooter (¬ (1 ≤ day ∧ day ≤ 365)) "invalid Julian TZ rule day"
      return .julianNoLeap day
    else if byte = 'M'.toUInt8 then
      advance
      let month ← number 2
      expect '.'
      let week ← number 1
      expect '.'
      let weekday ← number 1
      refuseFooter (¬ (1 ≤ month ∧ month ≤ 12) ∨ ¬ (1 ≤ week ∧ week ≤ 5) ∨ 6 < weekday)
        "invalid month-weekday TZ rule"
      return .monthWeekday month week weekday
    else if isAsciiDigit byte then
      let day ← number 3
      refuseFooter (365 < day) "invalid Julian TZ rule day"
      return .julian day
    else fail "invalid TZif POSIX transition rule"

def transitionRule (extended : Bool) : PosixParser PosixTransitionRule := do
  let day ← transitionDay
  if (← peek) = some '/'.toUInt8 then
    advance
    return ⟨day, ← clockValue extended true⟩
  else return ⟨day, 7200⟩

def posixTimeZone (extended : Bool) : PosixParser PosixTimeZone := do
  name
  let standardOffset := -(← clockValue extended false)
  if (← get) = [] then return ⟨standardOffset, none⟩
  else
    name
    let daylightOffset ← (if (← peek) = some ','.toUInt8 then return standardOffset + 3600
      else return -(← clockValue extended false) : PosixParser ℤ)
    refuseFooter (¬ (-86400 ≤ standardOffset ∧ standardOffset ≤ 86400) ∨
        ¬ (-86400 ≤ daylightOffset ∧ daylightOffset ≤ 86400))
      "TZif POSIX offset is outside the supported range"
    expect ','
    let start ← transitionRule extended
    expect ','
    let stop ← transitionRule extended
    refuseFooter ((← get) ≠ []) "unexpected data in TZif POSIX footer"
    return ⟨standardOffset, some ⟨daylightOffset, start, stop⟩⟩

def PosixTimeZone.parse (value : List UInt8) (allowExtendedTransitionHours : Bool) :
    Except String PosixTimeZone := do
  refuse (value.any (128 ≤ ·) = true ∨ 0 ∈ value) "TZif POSIX footer must contain non-NUL ASCII"
  return (← posixTimeZone allowExtendedTransitionHours value).1

namespace GlobalTime

def maxTzifBytes : ℕ := 4 * 1024 * 1024

structure TzifZone where
  transitions : List (ℤ × ℤ)
  initialOffset : ℤ
  futureRule : Option PosixTimeZone
  deriving DecidableEq

def parseTzifFooter (bytes : List UInt8) (start : ℕ) : Except String (List UInt8) := do
  refuse (bytes[start]? ≠ some 10) "TZif footer is missing its opening newline"
  let rest := bytes.drop (start + 1)
  let footer := rest.takeWhile (· ≠ 10)
  refuse (rest.length = footer.length) "TZif footer is missing its closing newline"
  refuse (start + 1 + footer.length + 1 ≠ bytes.length) "unexpected data after TZif footer"
  return footer

def parseTzifBlock (bytes : List UInt8) (start timeSize : ℕ) : Except String TzifBlock := do
  refuse (bytes.length < start + 44 ∨ (bytes.drop start).take 4 ≠ magic) "invalid TZif block"
  let counts ← readCounts "truncated TZif integer" bytes start
  refuse (counts.type = 0 ∨ 256 < counts.type ∨ maxTzifBytes < counts.time)
    "TZif count is outside the supported range"
  let stop := start + 44 + (counts.time * timeSize + counts.time) +
    (counts.type * 6 + counts.tail timeSize)
  refuse (2 ^ 64 ≤ stop) "TZif block size overflow"
  refuse (bytes.length < stop ∨ maxTzifBytes < stop - start) "truncated or oversized TZif data"
  readTables "truncated TZif integer" bytes "truncated TZif transition index table"
    "TZif block size overflow" "truncated TZif data" start timeSize counts

def readBlock (bytes : List UInt8) (version : UInt8) (first : TzifBlock) :
    Except String (TzifBlock × Option PosixTimeZone) :=
  if isExtended version then do
    refuse (bytes[first.stop + 4]? ≠ some version)
      "TZif extended block version does not match its header"
    let block ← parseTzifBlock bytes first.stop 8
    let footer ← parseTzifFooter bytes block.stop
    if footer = [] then return (block, none)
    else return (block, some (← PosixTimeZone.parse footer (0x33 ≤ version)))
  else return (first, none)

variable (sort : List (ℤ × ℤ) → List (ℤ × ℤ))

namespace TzifZone

def parse (bytes : List UInt8) : Except String TzifZone := do
  refuse (bytes.length < 44 ∨ bytes.take 4 ≠ magic) "system timezone file is not TZif data"
  refuse (maxTzifBytes < bytes.length) "system timezone file exceeds the size limit"
  let version := bytes.getD 4 0
  refuse (version ≠ 0 ∧ isExtended version = false) "unsupported TZif version"
  let first ← parseTzifBlock bytes 0 4
  let (block, futureRule) ← readBlock bytes version first
  refuse (block.offsets = []) "system timezone has no local-time types"
  refuse (block.leapCount ≠ 0)
    "system timezone uses leap-second timestamps that this reader cannot resolve"
  refuse (¬ block.transitionTimes.IsChain (· < ·)) "TZif transitions are not strictly increasing"
  let transitions ← resolveTransitions "TZif transition type is out of range" block
  futureRule.forM fun rule => transitions.getLast?.forM fun last =>
    refuse (rule.offsetAt sort last.1 ≠ last.2)
      "TZif POSIX footer disagrees with the final explicit transition"
  return ⟨transitions, block.offsets.headD 0, futureRule⟩

def offsetAt (zone : TzifZone) (instant : ℤ) : Option ℤ :=
  match zone.transitions.getLast? with
  | none => some (zone.futureRule.elim zone.initialOffset (·.offsetAt sort instant))
  | some last =>
    if last.1 < instant then zone.futureRule.map (·.offsetAt sort instant)
    else some ((latestOffset zone.transitions instant).getD zone.initialOffset)

end TzifZone

end GlobalTime

end Boreal.TimeZones
