/- The due values of the manager's calendar: which texts have a civil day in the system's zone, and the
fields in which a sign is read. -/
import BorealWork.DueDates
import BorealWork.TimeZoneFiles

namespace Boreal.TimeZones.GlobalTime
open WorkModel (LocalDate LocalTime Zone Stamp byte dateText DateValid daysInMonth civilDate)
open Decimals
open Source (utf8)

section Code

def digitsValue (text : List UInt8) : Option ℤ :=
  if text ≠ [] ∧ text.all isDigit = true then some (valueOf text) else none

/-- The general parser of an integer type with these bounds: a sign is part of its grammar. -/
def parseInteger (least most : ℤ) (text : List UInt8) : Option ℤ :=
  let value := match text with
    | [] => none
    | first :: rest =>
      if first = byte '+' then digitsValue rest
      else if first = byte '-' ∧ least < 0 then (digitsValue rest).map Neg.neg
      else digitsValue (first :: rest)
  value.filter fun n => least ≤ n ∧ n ≤ most

def isCharBoundary (text : List UInt8) (i : ℕ) : Bool :=
  i = 0 || i = text.length || text[i]?.any fun found => found.toNat < 0x80 || 0xC0 ≤ found.toNat

/-- A range of a text, when its ends are no bytes within a character. -/
def getRange (text : List UInt8) (start stop : ℕ) : Option (List UInt8) :=
  if start ≤ stop ∧ isCharBoundary text start = true ∧ isCharBoundary text stop = true then
    some ((text.drop start).take (stop - start))
  else none

def monthDays (year : ℤ) (month : ℕ) : Option ℕ :=
  if month ∈ [1, 3, 5, 7, 8, 10, 12] then some 31
  else if month ∈ [4, 6, 9, 11] then some 30
  else if month = 2 then
    some (if year.tmod 4 = 0 ∧ (year.tmod 100 ≠ 0 ∨ year.tmod 400 = 0) then 29 else 28)
  else none

def parseDate (value : List UInt8) : Option LocalDate := do
  guard (value.length = 10 ∧ value[4]? = some (byte '-') ∧ value[7]? = some (byte '-'))
  let year ← (← getRange value 0 4) |> parseInteger (-2 ^ 63) (2 ^ 63 - 1)
  let month ← (← getRange value 5 7) |> parseInteger 0 255
  let day ← (← getRange value 8 10) |> parseInteger 0 255
  let longest ← monthDays year month.toNat
  guard (1 ≤ day ∧ day ≤ longest)
  return ⟨year, month.toNat, day.toNat⟩

def parseTwo (bytes : List UInt8) (start : ℕ) : Option ℕ := do
  let tens ← bytes[start]?
  let ones ← bytes[start + 1]?
  guard (isDigit tens = true ∧ isDigit ones = true)
  return (tens.toNat - 48) * 10 + (ones.toNat - 48)

def fractionEnd (bytes : List UInt8) : Option ℕ :=
  if bytes[19]? = some (byte '.') then
    let digits := (bytes.drop 20).takeWhile isDigit
    if digits = [] then none else some (20 + digits.length)
  else some 19

def offsetSeconds (bytes : List UInt8) (suffix : ℕ) : Option ℤ := do
  let sign ← bytes[suffix]?
  if (sign = byte 'Z' ∨ sign = byte 'z') ∧ suffix + 1 = bytes.length then some 0
  else if (sign = byte '+' ∨ sign = byte '-') ∧ suffix + 6 = bytes.length ∧
      bytes[suffix + 3]? = some (byte ':') then do
    let hour ← parseTwo bytes (suffix + 1)
    let minute ← parseTwo bytes (suffix + 4)
    guard (hour ≤ 23 ∧ minute ≤ 59)
    let magnitude : ℤ := hour * 3600 + minute * 60
    return if sign = byte '+' then magnitude else -magnitude
  else none

def daysFromCivil (date : LocalDate) : ℤ :=
  let year := date.year - if date.month ≤ 2 then 1 else 0
  let era := (if 0 ≤ year then year else year - 399).tdiv 400
  let yearOfEra := year - era * 400
  let dayOfYear := (153 * (date.month + if 2 < date.month then -3 else 9) + 2 : ℤ).tdiv 5 + date.day - 1
  let dayOfEra := yearOfEra * 365 + yearOfEra.tdiv 4 - yearOfEra.tdiv 100 + dayOfYear
  era * 146097 + dayOfEra - 719468

def parseRfc3339Seconds (bytes : List UInt8) : Option ℤ := do
  guard (20 ≤ bytes.length ∧ (bytes[10]? = some (byte 'T') ∨ bytes[10]? = some (byte 't')))
  let date ← parseDate (← getRange bytes 0 10)
  let hour ← parseTwo bytes 11
  let minute ← parseTwo bytes 14
  let second ← parseTwo bytes 17
  guard (bytes[13]? = some (byte ':') ∧ bytes[16]? = some (byte ':') ∧ hour ≤ 23 ∧ minute ≤ 59 ∧
    second ≤ 60)
  let offset ← offsetSeconds bytes (← fractionEnd bytes)
  let dayStart ← checked (daysFromCivil date * 86400)
  let clock ← checked (dayStart + (hour * 3600 + minute * 60 + second))
  checked (clock - offset)

def civilFromDays (days : ℤ) : LocalDate :=
  let z := days + 719468
  let era := (if 0 ≤ z then z else z - 146096).tdiv 146097
  let dayOfEra := z - era * 146097
  let yearOfEra :=
    (dayOfEra - dayOfEra.tdiv 1460 + dayOfEra.tdiv 36524 - dayOfEra.tdiv 146096).tdiv 365
  let year := yearOfEra + era * 400
  let dayOfYear := dayOfEra - (365 * yearOfEra + yearOfEra.tdiv 4 - yearOfEra.tdiv 100)
  let monthPrime := (5 * dayOfYear + 2).tdiv 153
  let day := dayOfYear - (153 * monthPrime + 2).tdiv 5 + 1
  let month := monthPrime + if monthPrime < 10 then 3 else -9
  ⟨year + if month ≤ 2 then 1 else 0, (month % 2 ^ 8).toNat, (day % 2 ^ 8).toNat⟩

/-- At least `width` digits. -/
def zeroPadded (width n : ℕ) : List UInt8 :=
  if n < 10 ^ width then padded width n else padded (Nat.toDigits 10 n).length n

/-- The sign of a negative year counts to its width of four. -/
def civilText (date : LocalDate) : List UInt8 :=
  (if date.year < 0 then byte '-' :: zeroPadded 3 date.year.natAbs else zeroPadded 4 date.year.natAbs) ++
    byte '-' :: zeroPadded 2 date.month ++ byte '-' :: zeroPadded 2 date.day

def formatCivilDate (days : ℤ) : List UInt8 := civilText (civilFromDays days)

variable (sort : List (ℤ × ℤ) → List (ℤ × ℤ)) (zone : TzifZone)

def civilDayFor (value : List UInt8) : Option (List UInt8) :=
  if value.length = 10 then do
    let date ← parseDate value
    return formatCivilDate (daysFromCivil date)
  else do
    let utcSeconds ← parseRfc3339Seconds value
    let offset ← zone.offsetAt sort utcSeconds
    let localSeconds ← checked (utcSeconds + offset)
    return formatCivilDate (localSeconds / 86400)

end Code

/-- What may stand in front of the digits of a field, in place of the first of them. -/
inductive Sign
  | none
  | plus
  | minus
  deriving DecidableEq

def fieldText : Sign → ℕ → ℕ → List UInt8
  | .none, width, n => padded width n
  | .plus, width, n => byte '+' :: padded (width - 1) n
  | .minus, width, n => byte '-' :: padded (width - 1) n

def FieldFits : Sign → ℕ → ℤ → Prop
  | .none, width, n => 0 ≤ n ∧ n < 10 ^ width
  | .plus, width, n => 0 ≤ n ∧ n < 10 ^ (width - 1)
  | .minus, width, n => -10 ^ (width - 1) < n ∧ n ≤ 0

@[ext]
structure Signs where
  year : Sign
  month : Sign
  day : Sign
  deriving DecidableEq

def plain : Signs := ⟨.none, .none, .none⟩

def signedText (signs : Signs) (date : LocalDate) : List UInt8 :=
  fieldText signs.year 4 date.year.natAbs ++ byte '-' :: fieldText signs.month 2 date.month ++
    byte '-' :: fieldText signs.day 2 date.day

/-- Only the year may be negative. -/
structure SignedValid (signs : Signs) (date : LocalDate) : Prop where
  onCalendar : date.OnCalendar
  year : FieldFits signs.year 4 date.year
  month : FieldFits signs.month 2 date.month ∧ signs.month ≠ .minus
  day : FieldFits signs.day 2 date.day ∧ signs.day ≠ .minus

def Dated (signs : Signs) (bytes : List UInt8) (date : LocalDate) : Prop :=
  SignedValid signs date ∧ signedText signs date = bytes

section Fields

variable {text rest : List UInt8} {sign : Sign} {width : ℕ} {n : ℤ}

theorem guard_eq_some {α : Type} {p : Prop} [Decidable p] {next : Option α} {a : α} :
    (do guard p; next) = some a ↔ p ∧ next = some a := by
  by_cases holds : p
  · simp [holds]
  · simp [holds]

theorem digitsValue_eq_some : digitsValue text = some n ↔
    text ≠ [] ∧ (0 ≤ n ∧ n < 10 ^ text.length) ∧ padded text.length n.natAbs = text := by
  rw [digitsValue, Option.ite_none_right_eq_some, WorkModel.allDigits_iff, Option.some.injEq, and_assoc]
  refine and_congr_right fun _ => ?_
  constructor
  · rintro ⟨digits, rfl⟩
    obtain ⟨below, same⟩ := eq_padded_iff.mp ⟨digits, rfl⟩
    exact ⟨⟨Int.natCast_nonneg _, by exact_mod_cast below⟩, same⟩
  · rintro ⟨⟨nonneg, below⟩, same⟩
    have small : n.natAbs < 10 ^ text.length := by
      zify
      rwa [abs_of_nonneg nonneg]
    obtain ⟨digits, value⟩ := eq_padded_iff.mpr ⟨small, same⟩
    exact ⟨digits, by rw [value, Int.natAbs_of_nonneg nonneg]⟩

theorem padded_ne {first : UInt8} (other : isDigit first = false) (n : ℕ) :
    padded width n ≠ first :: rest := by
  intro same
  have digit := allDigits_padded width n first (by rw [same]; exact List.mem_cons_self)
  rw [other] at digit
  cases digit

theorem length_fieldText (positive : 0 < width) (n : ℕ) : (fieldText sign width n).length = width := by
  cases sign with
  | none => exact length_padded width n
  | plus =>
    rw [fieldText, List.length_cons, length_padded]
    omega
  | minus =>
    rw [fieldText, List.length_cons, length_padded]
    omega

theorem isAscii_fieldText (n : ℕ) : WorkModel.isAscii (fieldText sign width n) = true := by
  have digits : ∀ width, WorkModel.isAscii (padded width n) = true :=
    fun width => WorkModel.isAscii_of_digits (allDigits_padded width n)
  cases sign with
  | none => exact digits width
  | plus => exact digits (width - 1)
  | minus => exact digits (width - 1)

theorem parseInteger_eq_some {least most : ℤ} (length : text.length = width) (wide : 1 < width)
    (zero : least ≤ 0) (room : 10 ^ width ≤ most + 1) (below : least < 0 → least ≤ -10 ^ (width - 1)) :
    parseInteger least most text = some n ↔ ∃ sign, (sign = .minus → least < 0) ∧ FieldFits sign width n ∧
      fieldText sign width n.natAbs = text := by
  obtain ⟨first, rest, rfl⟩ := List.exists_cons_of_length_pos (by omega : 0 < text.length)
  have short : rest.length = width - 1 := by
    rw [List.length_cons] at length
    omega
  have nonempty : rest ≠ [] := List.ne_nil_of_length_pos (by omega)
  have smaller : (10 : ℤ) ^ (width - 1) ≤ 10 ^ width := pow_le_pow_right₀ (by norm_num) (by omega)
  have positive : (0 : ℤ) < 10 ^ width := by positivity
  rw [parseInteger, Option.filter_eq_some_iff, decide_eq_true_eq]
  split_ifs with isPlus isMinus
  · rw [digitsValue_eq_some, short]
    constructor
    · rintro ⟨⟨-, fits, same⟩, -⟩
      exact ⟨.plus, nofun, fits, by rw [fieldText, same, isPlus]⟩
    · rintro ⟨sign, -, fits, same⟩
      cases sign with
      | none => exact absurd same (padded_ne (by rw [isPlus]; rfl) _)
      | plus =>
        exact ⟨⟨nonempty, fits, (List.cons.inj same).2⟩, zero.trans fits.1, by linarith [fits.2]⟩
      | minus => exact absurd ((List.cons.inj same).1.trans isPlus) (by decide)
  · rw [Option.map_eq_some_iff]
    constructor
    · rintro ⟨⟨value, found, rfl⟩, -⟩
      rw [digitsValue_eq_some, short] at found
      obtain ⟨-, fits, same⟩ := found
      refine ⟨.minus, fun _ => isMinus.2, ⟨neg_lt_neg fits.2, neg_nonpos.mpr fits.1⟩, ?_⟩
      rw [fieldText, Int.natAbs_neg, same, isMinus.1]
    · rintro ⟨sign, -, fits, same⟩
      cases sign with
      | none => exact absurd same (padded_ne (by rw [isMinus.1]; rfl) _)
      | plus => exact absurd (List.cons.inj same).1.symm isPlus
      | minus =>
        refine ⟨⟨-n, ?_, neg_neg n⟩, by linarith [fits.1, below isMinus.2], by linarith [fits.2]⟩
        rw [digitsValue_eq_some, short, Int.natAbs_neg]
        exact ⟨nonempty, ⟨neg_nonneg.mpr fits.2, neg_lt.mpr fits.1⟩, (List.cons.inj same).2⟩
  · rw [digitsValue_eq_some, length]
    constructor
    · rintro ⟨⟨-, fits, same⟩, -⟩
      exact ⟨.none, nofun, fits, same⟩
    · rintro ⟨sign, typed, fits, same⟩
      cases sign with
      | none =>
        exact ⟨⟨List.cons_ne_nil _ _, fits, same⟩, zero.trans fits.1, by linarith [fits.2]⟩
      | plus => exact absurd (List.cons.inj same).1.symm isPlus
      | minus => exact absurd ⟨(List.cons.inj same).1.symm, typed rfl⟩ isMinus

theorem parseYear_eq_some (length : text.length = 4) :
    parseInteger (-2 ^ 63) (2 ^ 63 - 1) text = some n ↔
      ∃ sign, FieldFits sign 4 n ∧ fieldText sign 4 n.natAbs = text := by
  rw [parseInteger_eq_some length (by decide) (by decide) (by decide) (by decide)]
  exact exists_congr fun sign => and_iff_right fun _ => by decide

theorem parsePair_eq_some (length : text.length = 2) :
    parseInteger 0 255 text = some n ↔
      ∃ sign, (FieldFits sign 2 n ∧ sign ≠ .minus) ∧ fieldText sign 2 n.natAbs = text := by
  rw [parseInteger_eq_some length (by decide) le_rfl (by decide) fun less => absurd less (by decide)]
  refine exists_congr fun sign => ?_
  rw [imp_iff_not (lt_irrefl (0 : ℤ))]
  tauto

end Fields

section Dates

variable {bytes : List UInt8} {date : LocalDate} {signs : Signs}

theorem isCharBoundary_of_ascii (ascii : WorkModel.isAscii bytes = true) {i : ℕ} (inside : i ≤ bytes.length) :
    isCharBoundary bytes i = true := by
  rcases inside.lt_or_eq with within | rfl
  · have small := List.all_eq_true.mp ascii bytes[i] (List.getElem_mem within)
    rw [isCharBoundary, List.getElem?_eq_getElem within, Option.any_some]
    have low : bytes[i].toNat < 0x80 := of_decide_eq_true small
    rw [decide_eq_true low, Bool.true_or, Bool.or_true]
  · simp [isCharBoundary]

theorem getRange_of_ascii (ascii : WorkModel.isAscii bytes = true) {start stop : ℕ} (ordered : start ≤ stop)
    (inside : stop ≤ bytes.length) :
    getRange bytes start stop = some ((bytes.drop start).take (stop - start)) :=
  if_pos ⟨ordered, isCharBoundary_of_ascii ascii (ordered.trans inside), isCharBoundary_of_ascii ascii inside⟩

theorem getRange_eq_some {start stop : ℕ} {part : List UInt8} (found : getRange bytes start stop = some part) :
    (bytes.drop start).take (stop - start) = part :=
  Option.some.inj (Option.ite_none_right_eq_some.mp found).2

theorem monthDays_eq (year : ℤ) (month : ℕ) :
    monthDays year month = if 1 ≤ month ∧ month ≤ 12 then some (daysInMonth year month) else none := by
  by_cases inYear : 1 ≤ month ∧ month ≤ 12
  · obtain ⟨first, last⟩ := inYear
    have leap : (year.tmod 4 = 0 ∧ (year.tmod 100 ≠ 0 ∨ year.tmod 400 = 0)) ↔
        WorkModel.isLeapYear year = true := by
      rw [WorkModel.leap_iff]
      simp only [ne_eq, ← Int.dvd_iff_tmod_eq_zero, Int.dvd_iff_emod_eq_zero]
    interval_cases month <;> simp [monthDays, daysInMonth, leap]
  · rw [if_neg inYear, monthDays, if_neg (by simp; omega), if_neg (by simp; omega), if_neg (by omega)]

theorem length_signedText (signs : Signs) (date : LocalDate) : (signedText signs date).length = 10 := by
  rw [signedText]
  simp [length_fieldText]

theorem isAscii_signedText (signs : Signs) (date : LocalDate) :
    WorkModel.isAscii (signedText signs date) = true := by
  have minus : ∀ rest, WorkModel.isAscii (byte '-' :: rest) = WorkModel.isAscii rest :=
    fun rest => Bool.true_and _
  rw [signedText, WorkModel.isAscii_append, minus, WorkModel.isAscii_append, minus, isAscii_fieldText,
    isAscii_fieldText, isAscii_fieldText]
  rfl

theorem signedText_eq_iff {a b c d s e f s' g h : UInt8} :
    signedText signs date = [a, b, c, d, s, e, f, s', g, h] ↔
      fieldText signs.year 4 date.year.natAbs = [a, b, c, d] ∧ byte '-' = s ∧
        fieldText signs.month 2 date.month = [e, f] ∧ byte '-' = s' ∧
        fieldText signs.day 2 date.day = [g, h] := by
  have year := @length_fieldText signs.year 4 (by decide) date.year.natAbs
  have month := @length_fieldText signs.month 2 (by decide) date.month
  have day := @length_fieldText signs.day 2 (by decide) date.day
  rw [signedText]
  constructor
  · intro same
    have split : [a, b, c, d, s, e, f, s', g, h] = [a, b, c, d] ++ (s :: ([e, f] ++ s' :: [g, h])) := rfl
    rw [split, List.append_assoc, List.cons_append] at same
    obtain ⟨first, rest⟩ := List.append_inj same year
    obtain ⟨dash, rest⟩ := List.cons.inj rest
    obtain ⟨second, rest⟩ := List.append_inj rest month
    obtain ⟨dash', third⟩ := List.cons.inj rest
    exact ⟨first, dash, second, dash', third⟩
  · rintro ⟨first, rfl, second, rfl, third⟩
    rw [first, second, third]
    rfl

theorem parseDate_eq_some : parseDate bytes = some date ↔ ∃ signs, Dated signs bytes date := by
  rw [parseDate, guard_eq_some]
  constructor
  · rintro ⟨⟨length, dash, dash'⟩, parsed⟩
    obtain ⟨a, b, c, d, s, e, f, s', g, h, rfl⟩ : ∃ a b c d s e f s' g h,
        bytes = [a, b, c, d, s, e, f, s', g, h] := by
      match bytes, length with
      | [a, b, c, d, s, e, f, s', g, h], _ => exact ⟨a, b, c, d, s, e, f, s', g, h, rfl⟩
    cases dash
    cases dash'
    obtain ⟨yearPart, yearRange, parsed⟩ := Option.bind_eq_some_iff.mp parsed
    obtain ⟨year, ofYear, parsed⟩ := Option.bind_eq_some_iff.mp parsed
    obtain ⟨monthPart, monthRange, parsed⟩ := Option.bind_eq_some_iff.mp parsed
    obtain ⟨month, ofMonth, parsed⟩ := Option.bind_eq_some_iff.mp parsed
    obtain ⟨dayPart, dayRange, parsed⟩ := Option.bind_eq_some_iff.mp parsed
    obtain ⟨day, ofDay, parsed⟩ := Option.bind_eq_some_iff.mp parsed
    obtain ⟨longest, ofMonthDays, parsed⟩ := Option.bind_eq_some_iff.mp parsed
    obtain ⟨⟨first, last⟩, done⟩ := guard_eq_some.mp parsed
    rw [← getRange_eq_some yearRange] at ofYear
    rw [← getRange_eq_some monthRange] at ofMonth
    rw [← getRange_eq_some dayRange] at ofDay
    obtain ⟨yearSign, yearFits, yearText⟩ := (parseYear_eq_some rfl).mp ofYear
    obtain ⟨monthSign, monthFits, monthText⟩ := (parsePair_eq_some rfl).mp ofMonth
    obtain ⟨daySign, dayFits, dayText⟩ := (parsePair_eq_some rfl).mp ofDay
    rw [monthDays_eq, Option.ite_none_right_eq_some] at ofMonthDays
    obtain ⟨inYear, ofLongest⟩ := ofMonthDays
    have monthNonneg : 0 ≤ month := by omega
    have dayNonneg : 0 ≤ day := by omega
    obtain rfl := Option.some.inj done
    refine ⟨⟨yearSign, monthSign, daySign⟩, ⟨⟨inYear, ?_⟩, yearFits, ?_, ?_⟩, ?_⟩
    · have bound := Option.some.inj ofLongest
      dsimp only
      omega
    · rwa [Int.toNat_of_nonneg monthNonneg]
    · rwa [Int.toNat_of_nonneg dayNonneg]
    · refine signedText_eq_iff.mpr ⟨yearText, rfl, ?_, rfl, ?_⟩
      · rwa [← Int.toNat_of_nonneg monthNonneg, Int.natAbs_natCast] at monthText
      · rwa [← Int.toNat_of_nonneg dayNonneg, Int.natAbs_natCast] at dayText
  · rintro ⟨signs, ⟨⟨inYear, first, last⟩, yearFits, monthFits, dayFits⟩, text⟩
    obtain ⟨a, b, c, d, s, e, f, s', g, h, rfl⟩ : ∃ a b c d s e f s' g h,
        bytes = [a, b, c, d, s, e, f, s', g, h] := by
      match bytes, text ▸ length_signedText signs date with
      | [a, b, c, d, s, e, f, s', g, h], _ => exact ⟨a, b, c, d, s, e, f, s', g, h, rfl⟩
    have ascii := isAscii_signedText signs date
    rw [text] at ascii
    obtain ⟨yearText, rfl, monthText, rfl, dayText⟩ := signedText_eq_iff.mp text
    have ofYear := (parseYear_eq_some (rfl : [a, b, c, d].length = 4)).mpr ⟨_, yearFits, yearText⟩
    have ofMonth := (parsePair_eq_some (rfl : [e, f].length = 2)).mpr ⟨_, monthFits, monthText⟩
    have ofDay := (parsePair_eq_some (rfl : [g, h].length = 2)).mpr ⟨_, dayFits, dayText⟩
    have inside : ([a, b, c, d, byte '-', e, f, byte '-', g, h] : List UInt8).length = 10 := rfl
    refine ⟨⟨rfl, rfl, rfl⟩, ?_⟩
    rw [getRange_of_ascii ascii (by decide) (by rw [inside]; decide), Option.bind_eq_bind, Option.bind_some,
      getRange_of_ascii ascii (by decide) (by rw [inside]; decide),
      getRange_of_ascii ascii (by decide) (by rw [inside])]
    change (parseInteger _ _ [a, b, c, d]).bind _ = _
    rw [ofYear, Option.bind_some]
    change (parseInteger _ _ [e, f]).bind _ = _
    rw [ofMonth, Option.bind_some]
    change (parseInteger _ _ [g, h]).bind _ = _
    rw [ofDay, Option.bind_some, Int.toNat_natCast, Int.toNat_natCast, monthDays_eq, if_pos inYear]
    exact guard_eq_some.mpr ⟨by omega, rfl⟩

end Dates

section Clocks

variable {bytes pre rest : List UInt8} {n start : ℕ}

theorem parseTwo_eq_some : parseTwo bytes start = some n ↔ ∃ a b, bytes[start]? = some a ∧
    bytes[start + 1]? = some b ∧ n < 100 ∧ padded 2 n = [a, b] := by
  have pair : ∀ a b : UInt8, (isDigit a = true ∧ isDigit b = true) ∧
      (a.toNat - 48) * 10 + (b.toNat - 48) = n ↔ n < 100 ∧ padded 2 n = [a, b] := by
    intro a b
    have spelled := @eq_padded_iff [a, b] n
    have value : valueOf [a, b] = (a.toNat - 48) * 10 + (b.toNat - 48) := by simp [valueOf]
    rw [AllDigits, List.forall_mem_cons, List.forall_mem_singleton, value] at spelled
    exact spelled
  constructor
  · intro read
    obtain ⟨a, first, read⟩ := Option.bind_eq_some_iff.mp read
    obtain ⟨b, second, read⟩ := Option.bind_eq_some_iff.mp read
    obtain ⟨digits, value⟩ := guard_eq_some.mp read
    exact ⟨a, b, first, second, (pair a b).mp ⟨digits, Option.some.inj value⟩⟩
  · rintro ⟨a, b, first, second, spelled⟩
    obtain ⟨digits, value⟩ := (pair a b).mpr spelled
    refine Option.bind_eq_some_iff.mpr ⟨a, first, Option.bind_eq_some_iff.mpr ⟨b, second, ?_⟩⟩
    exact guard_eq_some.mpr ⟨digits, congrArg some value⟩

theorem parseTwo_behind {a b : UInt8} (begun : pre.length = start) :
    parseTwo (pre ++ a :: b :: rest) start = some n ↔ n < 100 ∧ padded 2 n = [a, b] := by
  have first : (pre ++ a :: b :: rest)[start]? = some a := begun ▸ WorkModel.behind pre (a :: b :: rest) 0
  have second : (pre ++ a :: b :: rest)[start + 1]? = some b :=
    begun ▸ WorkModel.behind pre (a :: b :: rest) 1
  rw [parseTwo_eq_some]
  constructor
  · rintro ⟨a', b', here, there, spelled⟩
    rw [first] at here
    rw [second] at there
    cases here
    cases there
    exact spelled
  · exact fun spelled => ⟨a, b, first, second, spelled⟩

theorem offsetSeconds_eq_some {offset : ℤ} : offsetSeconds (pre ++ rest) pre.length = some offset ↔
    ∃ zone : Zone, zone.Valid ∧ zone.text = rest ∧ zone.seconds = offset := by
  cases rest with
  | nil =>
    have none : (pre ++ [])[pre.length]? = (.none : Option UInt8) := by simp
    rw [offsetSeconds, none]
    refine iff_of_false (Option.some_ne_none _).symm ?_
    rintro ⟨zone, -, text, -⟩
    cases zone with
    | utc lower => exact absurd text (List.cons_ne_nil _ _)
    | offset west hours minutes => exact absurd text (List.cons_ne_nil _ _)
  | cons sign more =>
    have here : (pre ++ sign :: more)[pre.length]? = some sign := WorkModel.behind pre (sign :: more) 0
    have colon : (pre ++ sign :: more)[pre.length + 3]? = (sign :: more)[3]? :=
      WorkModel.behind pre (sign :: more) 3
    rw [offsetSeconds, here, Option.bind_eq_bind, Option.bind_some, colon]
    simp only [List.length_append, Nat.add_left_cancel_iff]
    by_cases utc : (sign = byte 'Z' ∨ sign = byte 'z') ∧ 1 = (sign :: more).length
    · rw [if_pos utc]
      obtain ⟨letter, last⟩ := utc
      obtain rfl : more = [] := List.length_eq_zero_iff.mp (by rw [List.length_cons] at last; omega)
      rw [Option.some.injEq]
      constructor
      · rintro rfl
        rcases letter with rfl | rfl
        · exact ⟨.utc false, trivial, rfl, rfl⟩
        · exact ⟨.utc true, trivial, rfl, rfl⟩
      · rintro ⟨zone, -, text, rfl⟩
        cases zone with
        | utc lower => rfl
        | offset west hours minutes => exact absurd (congrArg List.length text) (by simp [Zone.text])
    rw [if_neg utc]
    by_cases signed : (sign = byte '+' ∨ sign = byte '-') ∧ 6 = (sign :: more).length ∧
        (sign :: more)[3]? = some (byte ':')
    · rw [if_pos signed]
      obtain ⟨isSign, length, isColon⟩ := signed
      obtain ⟨b, c, d, e, f, rfl⟩ : ∃ b c d e f, more = [b, c, d, e, f] := by
        rcases more with _ | ⟨b, _ | ⟨c, _ | ⟨d, _ | ⟨e, _ | ⟨f, _ | ⟨g, more⟩⟩⟩⟩⟩⟩
        all_goals first | exact ⟨_, _, _, _, _, rfl⟩ | simp at length
      obtain rfl : d = byte ':' := Option.some.inj isColon
      have hours : ∀ n, parseTwo (pre ++ [sign, b, c, byte ':', e, f]) (pre.length + 1) = some n ↔
          n < 100 ∧ padded 2 n = [b, c] := by
        intro n
        have split : pre ++ [sign, b, c, byte ':', e, f] = (pre ++ [sign]) ++ b :: c :: [byte ':', e, f] := by
          simp
        rw [split]
        exact parseTwo_behind (by simp)
      have minutes : ∀ n, parseTwo (pre ++ [sign, b, c, byte ':', e, f]) (pre.length + 4) = some n ↔
          n < 100 ∧ padded 2 n = [e, f] := by
        intro n
        have split : pre ++ [sign, b, c, byte ':', e, f] =
            (pre ++ [sign, b, c, byte ':']) ++ e :: f :: [] := by
          simp
        rw [split]
        exact parseTwo_behind (by simp)
      constructor
      · intro read
        obtain ⟨hour, ofHour, read⟩ := Option.bind_eq_some_iff.mp read
        obtain ⟨minute, ofMinute, read⟩ := Option.bind_eq_some_iff.mp read
        obtain ⟨range, done⟩ := guard_eq_some.mp read
        have text := ((hours hour).mp ofHour).2
        have text' := ((minutes minute).mp ofMinute).2
        rcases isSign with rfl | rfl
        · refine ⟨.offset false hour minute, range, ?_, ?_⟩
          · rw [Zone.text, text, text']
            rfl
          · rw [Zone.seconds, ← Option.some.inj done]
            exact one_mul _
        · refine ⟨.offset true hour minute, range, ?_, ?_⟩
          · rw [Zone.text, text, text']
            rfl
          · rw [Zone.seconds, ← Option.some.inj done]
            exact neg_one_mul _
      · rintro ⟨zone, valid, text, rfl⟩
        cases zone with
        | utc lower => exact absurd (congrArg List.length text) (by simp [Zone.text])
        | offset west hour minute =>
          have split : padded 2 hour ++ byte ':' :: padded 2 minute = [b, c] ++ [byte ':', e, f] :=
            (List.cons.inj text).2
          obtain ⟨first, second⟩ := List.append_inj split (by simp)
          obtain ⟨small, small'⟩ := valid
          have ofHour := (hours hour).mpr ⟨by omega, first⟩
          have ofMinute := (minutes minute).mpr ⟨by omega, (List.cons.inj second).2⟩
          rw [ofHour, Option.bind_eq_bind, Option.bind_some, ofMinute, Option.bind_some, Zone.seconds]
          refine guard_eq_some.mpr ⟨⟨small, small'⟩, ?_⟩
          rw [← (List.cons.inj text).1]
          cases west with
          | false => exact congrArg some (one_mul _).symm
          | true => exact congrArg some (neg_one_mul _).symm
    · rw [if_neg signed]
      refine iff_of_false (Option.some_ne_none _).symm ?_
      rintro ⟨zone, -, text, -⟩
      rw [← text] at utc signed
      cases zone with
      | utc lower =>
        obtain ⟨rfl, rfl⟩ := List.cons.inj text
        refine utc ⟨?_, rfl⟩
        cases lower with
        | false => exact .inl rfl
        | true => exact .inr rfl
      | offset west hours minutes =>
        refine signed ⟨?_, rfl, rfl⟩
        rw [← (List.cons.inj text).1]
        cases west with
        | false => exact .inl rfl
        | true => exact .inr rfl

theorem isDigit_zone (zone : Zone) : ∀ first ∈ zone.text.head?, isDigit first = false := by
  intro first here
  cases zone with
  | utc lower =>
    cases here
    cases lower <;> rfl
  | offset west hours minutes =>
    cases here
    cases west <;> rfl

theorem takeWhile_fraction {fraction : List UInt8} (digits : AllDigits fraction) (zone : Zone) :
    (fraction ++ zone.text).takeWhile isDigit = fraction := by
  rw [List.takeWhile_append_of_pos digits]
  have stop : zone.text.takeWhile isDigit = [] := by
    cases text : zone.text with
    | nil => rfl
    | cons first rest =>
      have other := isDigit_zone zone first (by rw [text]; rfl)
      rw [List.takeWhile_cons_of_neg (by rw [other]; decide)]
  rw [stop, List.append_nil]

theorem suffix_eq_some {head tail : List UInt8} (seconds : head.length = 19) {offset : ℤ} :
    (fractionEnd (head ++ tail)).bind (offsetSeconds (head ++ tail)) = some offset ↔
      ∃ fraction, ∃ zone : Zone, AllDigits fraction ∧ zone.Valid ∧
        Stamp.fractionText fraction ++ zone.text = tail ∧ zone.seconds = offset := by
  have here : (head ++ tail)[19]? = tail[0]? := seconds ▸ WorkModel.behind head tail 0
  have begun : ∀ zone : Zone, zone.text[0]? ≠ some (byte '.') := by
    rintro (lower | ⟨west, hours, minutes⟩) same
    · cases lower <;> exact absurd same (by decide)
    · cases west <;> exact absurd (Option.some.inj same) (by decide)
  rw [fractionEnd, here]
  by_cases point : tail[0]? = some (byte '.')
  · obtain ⟨rest, rfl⟩ : ∃ rest, tail = byte '.' :: rest := by
      cases tail with
      | nil => cases point
      | cons first rest => exact ⟨rest, congrArg (· :: rest) (Option.some.inj point)⟩
    have behind : (head ++ byte '.' :: rest).drop 20 = rest := by
      rw [List.drop_append, seconds]
      simp [List.drop_eq_nil_of_le (seconds.trans_le (by decide : 19 ≤ 20))]
    rw [if_pos point, behind]
    have read : ∀ digits after, digits ++ after = rest →
        (offsetSeconds (head ++ byte '.' :: rest) (20 + digits.length) = some offset ↔
          ∃ zone : Zone, zone.Valid ∧ zone.text = after ∧ zone.seconds = offset) := by
      rintro digits after rfl
      have split : head ++ byte '.' :: (digits ++ after) = (head ++ byte '.' :: digits) ++ after := by simp
      have length : 20 + digits.length = (head ++ byte '.' :: digits).length := by
        rw [List.length_append, seconds, List.length_cons]
        omega
      rw [split, length, offsetSeconds_eq_some]
    constructor
    · intro found
      by_cases empty : rest.takeWhile isDigit = []
      · rw [if_pos empty] at found
        cases found
      · rw [if_neg empty, Option.bind_some, read _ (rest.dropWhile isDigit) List.takeWhile_append_dropWhile]
          at found
        obtain ⟨zone, valid, text, same⟩ := found
        refine ⟨rest.takeWhile isDigit, zone, fun digit => List.mem_takeWhile_imp, valid, ?_, same⟩
        rw [Stamp.fractionText, if_neg empty, text, List.cons_append, List.takeWhile_append_dropWhile]
    · rintro ⟨fraction, zone, digits, valid, text, same⟩
      by_cases empty : fraction = []
      · rw [Stamp.fractionText, if_pos empty, List.nil_append] at text
        exact absurd (congrArg (·[0]?) text) (begun zone)
      · rw [Stamp.fractionText, if_neg empty, List.cons_append] at text
        have split := (List.cons.inj text).2
        have taken := takeWhile_fraction digits zone
        rw [split] at taken
        rw [taken, if_neg empty, Option.bind_some, read fraction zone.text split]
        exact ⟨zone, valid, rfl, same⟩
  · rw [if_neg point, Option.bind_some, ← seconds, offsetSeconds_eq_some]
    constructor
    · rintro ⟨zone, valid, text, same⟩
      exact ⟨[], zone, List.forall_mem_nil _, valid, text, same⟩
    · rintro ⟨fraction, zone, digits, valid, text, same⟩
      cases fraction with
      | nil => exact ⟨zone, valid, text, same⟩
      | cons digit more => exact absurd (by rw [← text]; rfl) point

end Clocks

section Stamps

def clockText (stamp : Stamp) : List UInt8 :=
  (if stamp.lower then byte 't' else byte 'T') :: Stamp.timeText stamp.time ++
    (Stamp.fractionText stamp.fraction ++ stamp.zone.text)

structure ClockValid (stamp : Stamp) : Prop where
  time : stamp.time.hour ≤ 23 ∧ stamp.time.minute ≤ 59 ∧ stamp.time.second ≤ 60
  fraction : AllDigits stamp.fraction
  zone : stamp.zone.Valid

def Timed (signs : Signs) (bytes : List UInt8) (stamp : Stamp) : Prop :=
  SignedValid signs stamp.date ∧ ClockValid stamp ∧ signedText signs stamp.date ++ clockText stamp = bytes

variable {bytes : List UInt8} {date : LocalDate} {signs : Signs}

theorem daysFromCivil_eq (date : LocalDate) : daysFromCivil date = date.dayNumber := by
  have year : date.year - (if date.month ≤ 2 then 1 else 0) =
      if date.month ≤ 2 then date.year - 1 else date.year := by
    split <;> omega
  rw [daysFromCivil, year, LocalDate.dayNumber, WorkModel.daysFromCivil]

theorem dayNumber_signed (valid : SignedValid signs date) :
    -1100000 ≤ date.dayNumber ∧ date.dayNumber ≤ 2932896 := by
  obtain ⟨onCalendar, year, -, -⟩ := valid
  have range : -1000 < date.year ∧ date.year < 10000 := by
    cases sign : signs.year with
    | none =>
      rw [sign] at year
      exact ⟨by linarith [year.1], year.2⟩
    | plus =>
      rw [sign] at year
      exact ⟨by linarith [year.1], year.2.trans (by decide)⟩
    | minus =>
      rw [sign] at year
      exact ⟨year.1, by linarith [year.2]⟩
  have first : LocalDate.OnCalendar ⟨-999, 1, 1⟩ := ⟨by decide, by decide⟩
  have last : LocalDate.OnCalendar ⟨9999, 12, 31⟩ := ⟨by decide, by decide⟩
  have least := (WorkModel.dayNumber_le_iff first onCalendar).mpr
  have most := (WorkModel.dayNumber_le_iff onCalendar last).mpr
  have early : -1100000 ≤ LocalDate.dayNumber ⟨-999, 1, 1⟩ := by decide
  obtain ⟨⟨low, high⟩, day, most'⟩ := onCalendar
  have short := WorkModel.daysInMonth_le date.year date.month
  rw [← not_lt, LocalDate.lt_iff] at least most
  dsimp only at least most
  exact ⟨early.trans (least (by omega)), most (by omega)⟩

theorem floor_instant (stamp : Stamp) (digits : AllDigits stamp.fraction) :
    ⌊stamp.instant⌋ = stamp.date.dayNumber * 86400 + stamp.time.hour * 3600 + stamp.time.minute * 60 +
      stamp.time.second - stamp.zone.seconds := by
  have below : (valueOf stamp.fraction : ℚ) / 10 ^ stamp.fraction.length < 1 := by
    rw [div_lt_one (by positivity)]
    exact_mod_cast valueOf_lt digits
  rw [Stamp.instant, Int.floor_intCast_add, Int.floor_eq_zero_iff.mpr ⟨by positivity, below⟩, add_zero]

theorem checked_eq {n : ℤ} (fits : -2 ^ 63 ≤ n ∧ n < 2 ^ 63) : checked n = some n := if_pos fits

theorem clock_eq_some {hour minute second : ℕ} {offset utc : ℤ} (valid : SignedValid signs date)
    (small : hour ≤ 23 ∧ minute ≤ 59 ∧ second ≤ 60) (near : -86400 < offset ∧ offset < 86400) :
    (do let dayStart ← checked (daysFromCivil date * 86400)
        let clock ← checked (dayStart + (hour * 3600 + minute * 60 + second))
        checked (clock - offset)) = some utc ↔
      date.dayNumber * 86400 + hour * 3600 + minute * 60 + second - offset = utc := by
  obtain ⟨least, most⟩ := dayNumber_signed valid
  rw [daysFromCivil_eq, checked_eq (by omega), Option.bind_eq_bind, Option.bind_some, checked_eq (by omega),
    Option.bind_some, checked_eq (by omega), Option.some.injEq]
  constructor <;>
    · rintro rfl
      ring

variable {ten tail : List UInt8} {t h0 h1 c m0 m1 c' s0 s1 : UInt8}

theorem parse_fixed (length : ten.length = 10)
    (whole : ten ++ t :: h0 :: h1 :: c :: m0 :: m1 :: c' :: s0 :: s1 :: tail = bytes) {utc : ℤ} :
    parseRfc3339Seconds bytes = some utc ↔
      (tail ≠ [] ∧ (t = byte 'T' ∨ t = byte 't')) ∧ ∃ date, parseDate ten = some date ∧
        ∃ hour, (hour < 100 ∧ padded 2 hour = [h0, h1]) ∧
        ∃ minute, (minute < 100 ∧ padded 2 minute = [m0, m1]) ∧
        ∃ second, (second < 100 ∧ padded 2 second = [s0, s1]) ∧
          (c = byte ':' ∧ c' = byte ':' ∧ hour ≤ 23 ∧ minute ≤ 59 ∧ second ≤ 60) ∧
          ∃ fraction, ∃ zone : Zone, AllDigits fraction ∧ zone.Valid ∧
            Stamp.fractionText fraction ++ zone.text = tail ∧
            date.dayNumber * 86400 + hour * 3600 + minute * 60 + second - zone.seconds = utc := by
  have found : ∀ i, bytes[10 + i]? = (t :: h0 :: h1 :: c :: m0 :: m1 :: c' :: s0 :: s1 :: tail)[i]? :=
    fun i => whole ▸ length ▸ WorkModel.behind ten _ i
  have hours : ∀ n, parseTwo bytes 11 = some n ↔ n < 100 ∧ padded 2 n = [h0, h1] := by
    intro n
    rw [← whole, List.append_cons]
    exact parseTwo_behind (by simp [length])
  have minutes : ∀ n, parseTwo bytes 14 = some n ↔ n < 100 ∧ padded 2 n = [m0, m1] := by
    intro n
    rw [← whole, List.append_cons, List.append_cons, List.append_cons, List.append_cons]
    exact parseTwo_behind (by simp [length])
  have seconds : ∀ n, parseTwo bytes 17 = some n ↔ n < 100 ∧ padded 2 n = [s0, s1] := by
    intro n
    rw [← whole, List.append_cons, List.append_cons, List.append_cons, List.append_cons, List.append_cons,
      List.append_cons, List.append_cons]
    exact parseTwo_behind (by simp [length])
  have suffix : ∀ offset, (fractionEnd bytes).bind (offsetSeconds bytes) = some offset ↔
      ∃ fraction, ∃ zone : Zone, AllDigits fraction ∧ zone.Valid ∧
        Stamp.fractionText fraction ++ zone.text = tail ∧ zone.seconds = offset := by
    intro offset
    have split : (ten ++ [t, h0, h1, c, m0, m1, c', s0, s1]) ++ tail = bytes := by
      rw [← whole]
      simp
    rw [← split]
    exact suffix_eq_some (by simp [length])
  have enough : 20 ≤ bytes.length ↔ tail ≠ [] := by
    rw [← whole, List.length_append, length, ← List.length_pos_iff]
    simp only [List.length_cons]
    omega
  have letter : (20 ≤ bytes.length ∧ (bytes[10]? = some (byte 'T') ∨ bytes[10]? = some (byte 't'))) ↔
      tail ≠ [] ∧ (t = byte 'T' ∨ t = byte 't') := by
    rw [enough, found 0]
    exact and_congr_right fun _ => or_congr Option.some_inj Option.some_inj
  have marks : (bytes[13]? = some (byte ':') ↔ c = byte ':') ∧
      (bytes[16]? = some (byte ':') ↔ c' = byte ':') := by
    rw [found 3, found 6]
    exact ⟨Option.some_inj, Option.some_inj⟩
  rw [parseRfc3339Seconds, guard_eq_some, letter]
  refine and_congr_right fun begun => ?_
  have range : getRange bytes 0 10 = some ten := by
    have boundary : isCharBoundary bytes 10 = true := by
      rw [isCharBoundary, found 0]
      refine (Bool.or_eq_true _ _).mpr (.inr ?_)
      rcases begun.2 with rfl | rfl
      · rfl
      · rfl
    rw [getRange, if_pos ⟨by decide, rfl, boundary⟩, ← whole, List.drop_zero, List.take_left' length]
  rw [range, Option.bind_eq_bind, Option.bind_some, Option.bind_eq_bind, Option.bind_eq_some_iff]
  refine exists_congr fun date => and_congr_right fun parsed => ?_
  obtain ⟨signs, valid, -⟩ := parseDate_eq_some.mp parsed
  rw [Option.bind_eq_bind, Option.bind_eq_some_iff]
  refine exists_congr fun hour => and_congr (hours hour) ?_
  rw [Option.bind_eq_bind, Option.bind_eq_some_iff]
  refine exists_congr fun minute => and_congr (minutes minute) ?_
  rw [Option.bind_eq_bind, Option.bind_eq_some_iff]
  refine exists_congr fun second => and_congr (seconds second) ?_
  refine guard_eq_some.trans ?_
  rw [marks.1, marks.2]
  refine and_congr_right fun small => ?_
  rw [← Option.bind_assoc, Option.bind_eq_some_iff]
  constructor
  · rintro ⟨offset, read, clock⟩
    obtain ⟨fraction, zone, digits, validZone, text, rfl⟩ := (suffix offset).mp read
    have near := WorkModel.zone_seconds_bounds validZone
    exact ⟨fraction, zone, digits, validZone, text, (clock_eq_some valid small.2.2 near).mp clock⟩
  · rintro ⟨fraction, zone, digits, validZone, text, clock⟩
    have near := WorkModel.zone_seconds_bounds validZone
    exact ⟨zone.seconds, (suffix _).mpr ⟨fraction, zone, digits, validZone, text, rfl⟩,
      (clock_eq_some valid small.2.2 near).mpr clock⟩

theorem parseRfc3339Seconds_eq_some {utc : ℤ} : parseRfc3339Seconds bytes = some utc ↔
    ∃ signs stamp, Timed signs bytes stamp ∧ ⌊stamp.instant⌋ = utc := by
  constructor
  · intro parsed
    have enough := (guard_eq_some.mp parsed).1.1
    obtain ⟨ten, nine, tail, length, length', rfl⟩ : ∃ ten nine tail, ten.length = 10 ∧ nine.length = 9 ∧
        ten ++ (nine ++ tail) = bytes := by
      refine ⟨bytes.take 10, (bytes.drop 10).take 9, (bytes.drop 10).drop 9, ?_, ?_, ?_⟩
      · rw [List.length_take_of_le (by omega)]
      · rw [List.length_take_of_le (by rw [List.length_drop]; omega)]
      · rw [List.take_append_drop, List.take_append_drop]
    obtain ⟨t, h0, h1, c, m0, m1, c', s0, s1, rfl⟩ : ∃ t h0 h1 c m0 m1 c' s0 s1,
        nine = [t, h0, h1, c, m0, m1, c', s0, s1] := by
      match nine, length' with
      | [t, h0, h1, c, m0, m1, c', s0, s1], _ => exact ⟨t, h0, h1, c, m0, m1, c', s0, s1, rfl⟩
    obtain ⟨⟨-, letter⟩, date, ofDate, hour, ⟨-, hourText⟩, minute, ⟨-, minuteText⟩, second, ⟨-, secondText⟩,
      ⟨rfl, rfl, small⟩, fraction, zone, digits, validZone, rfl, clock⟩ := (parse_fixed length rfl).mp parsed
    obtain ⟨signs, valid, rfl⟩ := parseDate_eq_some.mp ofDate
    obtain ⟨lower, rfl⟩ : ∃ lower : Bool, t = if lower then byte 't' else byte 'T' := by
      rcases letter with rfl | rfl
      · exact ⟨false, rfl⟩
      · exact ⟨true, rfl⟩
    refine ⟨signs, ⟨date, lower, ⟨hour, minute, second⟩, fraction, zone⟩,
      ⟨valid, ⟨small, digits, validZone⟩, ?_⟩, ?_⟩
    · rw [clockText, Stamp.timeText, hourText, minuteText, secondText]
      rfl
    · rw [floor_instant _ digits]
      exact clock
  · rintro ⟨signs, ⟨date, lower, ⟨hour, minute, second⟩, fraction, zone⟩,
      ⟨valid, ⟨small, digits, validZone⟩, rfl⟩, rfl⟩
    dsimp only at valid small digits validZone ⊢
    rw [floor_instant _ digits]
    refine (parse_fixed (length_signedText signs date) rfl).mpr ⟨⟨?_, ?_⟩, date,
      parseDate_eq_some.mpr ⟨signs, valid, rfl⟩, hour, ⟨by omega, rfl⟩, minute, ⟨by omega, rfl⟩, second,
      ⟨by omega, rfl⟩, ⟨rfl, rfl, small⟩, fraction, zone, digits, validZone, rfl, rfl⟩
    · cases zone with
      | utc lower => simp [Zone.text]
      | offset west hours minutes => simp [Zone.text]
    · cases lower with
      | false => exact .inl rfl
      | true => exact .inr rfl

end Stamps

section Days

variable {sort : List (ℤ × ℤ) → List (ℤ × ℤ)} {zone : TzifZone} {bytes day : List UInt8} {date : LocalDate}
  {signs : Signs}

theorem civilFromDays_eq {n : ℤ} (near : -2 ^ 38 < n ∧ n < 2 ^ 38) : civilFromDays n = civilDate n := by
  have cast : WorkModel.civilFromDays n =
      ⟨(civilFromDays n).year.bmod (2 ^ 32), (civilFromDays n).month, (civilFromDays n).day⟩ := rfl
  have floor : (if 0 ≤ n + 719468 then n + 719468 else n + 719468 - 146096).tdiv 146097 =
      (n + 719468) / 146097 := WorkModel.shifted_tdiv (n + 719468) 146097 (by decide)
  have rest : n + 719468 - (n + 719468) / 146097 * 146097 = (n + 719468) % 146097 := by omega
  have least := Int.emod_nonneg (n + 719468) (show (146097 : ℤ) ≠ 0 by decide)
  have most := Int.emod_lt_of_pos (n + 719468) (show (0 : ℤ) < 146097 by decide)
  obtain ⟨⟨first, last⟩, -, -⟩ := Calendar.yearOfDay_spec least most
  have year : ∃ extra, (0 ≤ extra ∧ extra ≤ 1) ∧ (civilFromDays n).year =
      Calendar.yearOfDay ((n + 719468) % 146097) + (n + 719468) / 146097 * 400 + extra := by
    simp only [civilFromDays]
    rw [floor, rest, WorkModel.yearOfEra_eq least]
    exact ⟨_, by split <;> omega, rfl⟩
  obtain ⟨extra, bound, year⟩ := year
  have early : WorkModel.daysFromCivil (-2 ^ 31) 1 1 ≤ -2 ^ 38 := by decide
  have late : 2 ^ 38 ≤ WorkModel.daysFromCivil (2 ^ 31 - 1) 12 31 := by decide
  rw [WorkModel.civilFromDays_supported ⟨by omega, by omega⟩, Int.bmod_eq_of_le (by omega) (by omega)] at cast
  exact cast.symm

theorem zeroPadded_of_lt {width n : ℕ} (fits : n < 10 ^ width) : zeroPadded width n = padded width n :=
  if_pos fits

theorem field_bounds (onCalendar : date.OnCalendar) : date.month < 10 ^ 2 ∧ date.day < 10 ^ 2 := by
  obtain ⟨month, day⟩ := onCalendar
  have := WorkModel.daysInMonth_le date.year date.month
  omega

theorem civilText_valid (valid : DateValid date) : civilText date = dateText date := by
  obtain ⟨⟨nonneg, small⟩, onCalendar⟩ := valid
  obtain ⟨month, day⟩ := field_bounds onCalendar
  have same : date.year.natAbs = date.year.toNat := by omega
  rw [civilText, if_neg (not_lt.mpr nonneg), zeroPadded_of_lt (by omega), zeroPadded_of_lt month,
    zeroPadded_of_lt day, dateText, same]

theorem signedText_plain (nonneg : 0 ≤ date.year) : signedText plain date = dateText date := by
  have same : date.year.natAbs = date.year.toNat := by omega
  rw [signedText, dateText, same]
  rfl

theorem dated_plain : Dated plain bytes date ↔ DateValid date ∧ dateText date = bytes := by
  constructor
  · rintro ⟨⟨onCalendar, year, -, -⟩, text⟩
    exact ⟨⟨year, onCalendar⟩, signedText_plain year.1 ▸ text⟩
  · rintro ⟨⟨year, onCalendar⟩, text⟩
    obtain ⟨month, day⟩ := field_bounds onCalendar
    refine ⟨⟨onCalendar, year, ⟨⟨by omega, ?_⟩, by decide⟩, ⟨⟨by omega, ?_⟩, by decide⟩⟩,
      signedText_plain year.1 ▸ text⟩
    · exact_mod_cast month
    · exact_mod_cast day

theorem timed_plain {stamp : Stamp} : Timed plain bytes stamp ↔
    DateValid stamp.date ∧ ClockValid stamp ∧ dateText stamp.date ++ clockText stamp = bytes := by
  constructor
  · rintro ⟨valid, clock, rfl⟩
    obtain ⟨dateValid, text⟩ := dated_plain.mp ⟨valid, rfl⟩
    exact ⟨dateValid, clock, by rw [text]⟩
  · rintro ⟨dateValid, clock, rfl⟩
    obtain ⟨valid, text⟩ := dated_plain.mpr ⟨dateValid, rfl⟩
    exact ⟨valid, clock, by rw [text]⟩

theorem length_timed {stamp : Stamp} (timed : Timed signs bytes stamp) : bytes.length ≠ 10 := by
  rw [← timed.2.2, List.length_append, length_signedText, clockText, List.cons_append, List.length_cons]
  omega

theorem formatCivilDate_eq {n : ℤ} (near : -2 ^ 38 < n ∧ n < 2 ^ 38) :
    formatCivilDate n = civilText (civilDate n) := by
  rw [formatCivilDate, civilFromDays_eq near]

def localDay (sort : List (ℤ × ℤ) → List (ℤ × ℤ)) (zone : TzifZone) (stamp : Stamp) : Option LocalDate :=
  (zone.offsetAt sort ⌊stamp.instant⌋).map fun offset : ℤ => civilDate ⌊(stamp.instant + offset) / 86400⌋

theorem civilDayFor_eq_some
    (typed : ∀ instant, ∀ offset ∈ zone.offsetAt sort instant, -2 ^ 31 ≤ offset ∧ offset < 2 ^ 31) :
    civilDayFor sort zone bytes = some day ↔ ∃ signs, (∃ date, Dated signs bytes date ∧ civilText date = day) ∨
      ∃ stamp, Timed signs bytes stamp ∧ ∃ date ∈ localDay sort zone stamp, civilText date = day := by
  rw [civilDayFor]
  by_cases ten : bytes.length = 10
  · rw [if_pos ten, Option.bind_eq_bind, Option.bind_eq_some_iff]
    have same : ∀ date, (∃ signs, Dated signs bytes date) →
        formatCivilDate (daysFromCivil date) = civilText date := by
      rintro date ⟨signs, valid, -⟩
      obtain ⟨least, most⟩ := dayNumber_signed valid
      rw [daysFromCivil_eq, formatCivilDate_eq (by omega), WorkModel.civilDate_dayNumber valid.onCalendar]
    constructor
    · rintro ⟨date, parsed, done⟩
      obtain ⟨signs, dated⟩ := parseDate_eq_some.mp parsed
      exact ⟨signs, .inl ⟨date, dated, (same date ⟨signs, dated⟩).symm.trans (Option.some.inj done)⟩⟩
    · rintro ⟨signs, ⟨date, dated, rfl⟩ | ⟨stamp, timed, -⟩⟩
      · exact ⟨date, parseDate_eq_some.mpr ⟨signs, dated⟩, congrArg some (same date ⟨signs, dated⟩)⟩
      · exact absurd ten (length_timed timed)
  · rw [if_neg ten, Option.bind_eq_bind, Option.bind_eq_some_iff]
    have shown : ∀ signs stamp offset, Timed signs bytes stamp → offset ∈ zone.offsetAt sort ⌊stamp.instant⌋ →
        (do let localSeconds ← checked (⌊stamp.instant⌋ + offset)
            return formatCivilDate (localSeconds / 86400)) =
          some (civilText (civilDate ⌊(stamp.instant + offset) / 86400⌋)) := by
      rintro signs stamp offset ⟨valid, clock, -⟩ known
      obtain ⟨least, most⟩ := dayNumber_signed valid
      obtain ⟨early, late⟩ := typed _ offset known
      have near := WorkModel.zone_seconds_bounds clock.zone
      obtain ⟨hour, minute, second⟩ := clock.time
      have instant := floor_instant stamp clock.fraction
      have floor : ⌊(stamp.instant + offset) / 86400⌋ = (⌊stamp.instant⌋ + offset) / 86400 := by
        rw [← Int.floor_add_intCast]
        exact Int.floor_div_natCast (stamp.instant + offset) 86400
      rw [floor, checked_eq (by omega), Option.bind_eq_bind, Option.bind_some, formatCivilDate_eq (by omega)]
      rfl
    constructor
    · rintro ⟨utc, parsed, read⟩
      obtain ⟨signs, stamp, timed, rfl⟩ := parseRfc3339Seconds_eq_some.mp parsed
      obtain ⟨offset, known, read⟩ := Option.bind_eq_some_iff.mp read
      have same := (shown signs stamp offset timed known).symm.trans read
      exact ⟨signs, .inr ⟨stamp, timed, _, Option.map_eq_some_iff.mpr ⟨offset, known, rfl⟩,
        Option.some.inj same⟩⟩
    · rintro ⟨signs, ⟨date, dated, -⟩ | ⟨stamp, timed, date, found, rfl⟩⟩
      · exact absurd (dated.2 ▸ length_signedText signs date) ten
      · obtain ⟨offset, known, rfl⟩ := Option.map_eq_some_iff.mp found
        exact ⟨_, parseRfc3339Seconds_eq_some.mpr ⟨signs, stamp, timed, rfl⟩,
          Option.bind_eq_some_iff.mpr ⟨offset, known, shown signs stamp offset timed known⟩⟩

theorem signs_unique {date date' : LocalDate} {rest rest' : List UInt8}
    (same : signedText signs date ++ rest = signedText plain date' ++ rest') : signs = plain := by
  have field : ∀ {sign : Sign} {width n n' : ℕ},
      fieldText sign width n = fieldText .none width n' → sign = .none := by
    intro sign width n n' equal
    cases sign with
    | none => rfl
    | plus => exact absurd equal.symm (padded_ne rfl _)
    | minus => exact absurd equal.symm (padded_ne rfl _)
  have length : ∀ {sign : Sign} {n n' : ℕ}, (fieldText sign 2 n).length = (fieldText .none 2 n').length :=
    fun {sign n n'} => by rw [length_fieldText (by decide), length_fieldText (by decide)]
  have texts := List.append_inj_left same (by rw [length_signedText, length_signedText])
  rw [signedText, signedText, List.append_assoc, List.append_assoc] at texts
  obtain ⟨year, texts⟩ := List.append_inj texts
    (by rw [length_fieldText (by decide), length_fieldText (by decide)])
  obtain ⟨month, texts⟩ := List.append_inj (List.cons.inj texts).2 length
  exact Signs.ext (field year) (field month) (field (List.cons.inj texts).2)

/-- For every zone and text, the civil day is the one of the grammar, whose fields hold digits only, exactly
where the date of the text has no field with a sign. -/
theorem civilDayFor_eq_some_iff
    (typed : ∀ instant, ∀ offset ∈ zone.offsetAt sort instant, -2 ^ 31 ≤ offset ∧ offset < 2 ^ 31) :
    (∀ day, civilDayFor sort zone bytes = some day ↔
      (∃ date, DateValid date ∧ dateText date = bytes ∧ bytes = day) ∨
      ∃ stamp, DateValid stamp.date ∧ ClockValid stamp ∧ dateText stamp.date ++ clockText stamp = bytes ∧
        ∃ date ∈ localDay sort zone stamp, civilText date = day) ↔
    ¬ ∃ signs ≠ plain, (∃ date, Dated signs bytes date) ∨
      ∃ stamp, Timed signs bytes stamp ∧ (localDay sort zone stamp).isSome := by
  have described : ∀ day, ((∃ date, Dated plain bytes date ∧ civilText date = day) ∨
      ∃ stamp, Timed plain bytes stamp ∧ ∃ date ∈ localDay sort zone stamp, civilText date = day) ↔
      (∃ date, DateValid date ∧ dateText date = bytes ∧ bytes = day) ∨
      ∃ stamp, DateValid stamp.date ∧ ClockValid stamp ∧ dateText stamp.date ++ clockText stamp = bytes ∧
        ∃ date ∈ localDay sort zone stamp, civilText date = day := by
    intro day
    refine or_congr (exists_congr fun date => ?_) (exists_congr fun stamp => ?_)
    · rw [dated_plain, and_assoc]
      refine and_congr_right fun valid => and_congr_right fun text => ?_
      rw [civilText_valid valid, text]
    · rw [timed_plain, and_assoc, and_assoc]
  have begins : ∀ {signs day}, ((∃ date, Dated signs bytes date ∧ civilText date = day) ∨
      ∃ stamp, Timed signs bytes stamp ∧ ∃ date ∈ localDay sort zone stamp, civilText date = day) →
      ∃ date rest, signedText signs date ++ rest = bytes := by
    rintro signs day (⟨date, ⟨-, text⟩, -⟩ | ⟨stamp, ⟨-, -, text⟩, -⟩)
    · exact ⟨date, [], by rw [List.append_nil, text]⟩
    · exact ⟨stamp.date, clockText stamp, text⟩
  simp only [← described, civilDayFor_eq_some typed]
  constructor
  · rintro claimed ⟨signs, signed, readable⟩
    obtain ⟨day, reads⟩ : ∃ day, (∃ date, Dated signs bytes date ∧ civilText date = day) ∨
        ∃ stamp, Timed signs bytes stamp ∧ ∃ date ∈ localDay sort zone stamp, civilText date = day := by
      rcases readable with ⟨date, dated⟩ | ⟨stamp, timed, known⟩
      · exact ⟨civilText date, .inl ⟨date, dated, rfl⟩⟩
      · obtain ⟨date, found⟩ := Option.isSome_iff_exists.mp known
        exact ⟨civilText date, .inr ⟨stamp, timed, date, found, rfl⟩⟩
    obtain ⟨date, rest, text⟩ := begins reads
    obtain ⟨date', rest', text'⟩ := begins ((claimed day).mp ⟨signs, reads⟩)
    exact signed (signs_unique (text.trans text'.symm))
  · intro unsigned day
    refine ⟨?_, fun reads => ⟨plain, reads⟩⟩
    rintro ⟨signs, reads⟩
    by_cases signed : signs = plain
    · rwa [signed] at reads
    · refine absurd ⟨signs, signed, ?_⟩ unsigned
      rcases reads with ⟨date, dated, -⟩ | ⟨stamp, timed, date, found, -⟩
      · exact .inl ⟨date, dated⟩
      · exact .inr ⟨stamp, timed, Option.isSome_iff_exists.mpr ⟨date, found⟩⟩


def universalZone : TzifZone := ⟨[], 0, none⟩

def signedYear : List UInt8 := utf8 "+999-01-01"

def leapSecond : List UInt8 := utf8 "2016-12-31T23:59:60.5+01:00"

theorem universalZone_typed (instant : ℤ) :
    ∀ offset ∈ universalZone.offsetAt id instant, -2 ^ 31 ≤ offset ∧ offset < 2 ^ 31 := by
  have zero : universalZone.offsetAt id instant = some 0 := rfl
  intro offset known
  rw [zero] at known
  cases known
  exact ⟨by decide, by decide⟩

theorem civilDayFor_leapSecond :
    (∀ day, civilDayFor id universalZone leapSecond = some day ↔
      (∃ date, DateValid date ∧ dateText date = leapSecond ∧ leapSecond = day) ∨
      ∃ stamp, DateValid stamp.date ∧ ClockValid stamp ∧ dateText stamp.date ++ clockText stamp = leapSecond ∧
        ∃ date ∈ localDay id universalZone stamp, civilText date = day) ↔
    ¬ ∃ signs ≠ plain, (∃ date, Dated signs leapSecond date) ∨
      ∃ stamp, Timed signs leapSecond stamp ∧ (localDay id universalZone stamp).isSome :=
  civilDayFor_eq_some_iff universalZone_typed

theorem civilDayFor_signedYear : civilDayFor id universalZone signedYear = some (utf8 "0999-01-01") ∧
    ¬ ∀ day, civilDayFor id universalZone signedYear = some day ↔
      (∃ date, DateValid date ∧ dateText date = signedYear ∧ signedYear = day) ∨
      ∃ stamp, DateValid stamp.date ∧ ClockValid stamp ∧ dateText stamp.date ++ clockText stamp = signedYear ∧
        ∃ date ∈ localDay id universalZone stamp, civilText date = day := by
  have accepted : civilDayFor id universalZone signedYear = some (utf8 "0999-01-01") := by
    decide
  refine ⟨accepted, fun claimed => ?_⟩
  rcases (claimed _).mp accepted with ⟨date, -, text, -⟩ | ⟨stamp, -, -, text, -⟩
  · have spelled : signedYear = [byte '+', 57, 57, 57, 45, 48, 49, 45, 48, 49] := by decide
    exact padded_ne rfl _ (WorkModel.dateText_eq_iff.mp (text.trans spelled)).1
  · have length := congrArg List.length text
    rw [List.length_append, WorkModel.length_dateText, clockText, List.cons_append, List.length_cons] at length
    have ten : signedYear.length = 10 := by decide
    omega

end Days

end Boreal.TimeZones.GlobalTime
