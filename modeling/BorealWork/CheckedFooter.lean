/- The parser of the footer as the machine runs it, with a cursor in the text: it never traps, and takes
what the parser over the rest of the text takes. -/
import BorealWork.CheckedRules

namespace Boreal.TimeZones.Machine
open Drain Traps Outcomes

section Parser

abbrev PosixParser : Type → Type := StateT ℕ (Trapping String)

def usize : ℕ → Option ℕ := unsigned 64

variable (bytes : List UInt8)

def peek : PosixParser (Option UInt8) := do
  return bytes[(← get)]?

def advance : PosixParser Unit := do
  set (← liftM (usize ((← get) + 1)))

def refuseFooter (c : Prop) [Decidable c] (message : String) : PosixParser Unit := liftM (refuse c message)

def fail {α : Type} (message : String) : PosixParser α := liftM (Except.error message : Except String α)

def expect (expected : Char) : PosixParser Unit := do
  refuseFooter ((← peek bytes) ≠ some expected.toUInt8) "invalid TZif POSIX footer syntax"
  advance

-- A loop that stops at the end of the text is given as many turns as the text has bytes.

def quotedName : ℕ → PosixParser Unit
  | 0 => return ()
  | turns + 1 => do
    match ← peek bytes with
    | none => return ()
    | some byte =>
      if byte = '>'.toUInt8 then return ()
      else
        refuseFooter (isAsciiGraphic byte = false ∨ byte = ','.toUInt8 ∨ byte = '<'.toUInt8)
          "invalid quoted name in TZif POSIX footer"
        advance
        quotedName turns

def letters : ℕ → PosixParser Unit
  | 0 => return ()
  | turns + 1 => do
    if (← peek bytes).any isAsciiAlphabetic then
      advance
      letters turns
    else return ()

/-- How far the cursor has gone. -/
def span (loop : PosixParser Unit) : PosixParser ℕ := do
  let start ← get
  loop
  return (← get) - start

def name : PosixParser Unit := do
  let length ← (if (← peek bytes) = some '<'.toUInt8 then do
      advance
      let length ← span (quotedName bytes bytes.length)
      expect bytes '>'
      return length
    else span (letters bytes bytes.length) : PosixParser ℕ)
  refuseFooter (length < 3) "TZif POSIX timezone names must have at least three characters"

def digits (start maxDigits : ℕ) : ℕ → ℕ → PosixParser ℕ
  | 0, value => return value
  | turns + 1, value => do
    let taken ← liftM (minus (← get) start)
    if taken < maxDigits then
      match ← peek bytes with
      | none => return value
      | some byte =>
        if isAsciiDigit byte then
          let digit ← liftM (minus byte.toNat 48)
          let value ← liftM (((unsigned 31 (value * 10)).bind fun tens => unsigned 31 (tens + digit)).elim
            (.error "TZif POSIX number overflow") .ok : Except String ℕ)
          advance
          digits start maxDigits turns value
        else return value
    else return value

def number (maxDigits : ℕ) : PosixParser ℕ := do
  let start ← get
  let value ← digits bytes start maxDigits maxDigits 0
  refuseFooter ((← get) = start) "expected a number in TZif POSIX footer"
  return value

def sexagesimal : PosixParser ℕ := do
  if (← peek bytes) = some ':'.toUInt8 then
    advance
    number bytes 2
  else return 0

def clock (sign : ℤ) (hours minutes seconds : ℕ) : Option ℤ := do
  let hours ← i32 (hours * 3600)
  let minutes ← i32 (minutes * 60)
  let magnitude ← i32 (hours + minutes)
  let magnitude ← i32 (magnitude + seconds)
  i32 (magnitude * sign)

def clockValue (extended transition : Bool) : PosixParser ℤ := do
  let (sign, explicitSign) ← (do
    if (← peek bytes) = some '+'.toUInt8 then
      advance
      return (1, true)
    else if (← peek bytes) = some '-'.toUInt8 then
      advance
      return (-1, true)
    else return (1, false) : PosixParser (ℤ × Bool))
  let hours ← number bytes 3
  refuseFooter ((if transition && extended then 167 else 24) < hours)
    "TZif POSIX clock hour is outside the supported range"
  let minutes ← sexagesimal bytes
  let seconds ← sexagesimal bytes
  refuseFooter (59 < minutes ∨ 59 < seconds ∨
      ((transition && extended) = false ∧ hours = 24 ∧ (minutes ≠ 0 ∨ seconds ≠ 0)) ∨
      (transition = true ∧ extended = false ∧ explicitSign = true))
    "invalid TZif POSIX clock value"
  liftM (clock sign hours minutes seconds)

def transitionDay : PosixParser PosixTransitionDay := do
  match ← peek bytes with
  | none => fail "invalid TZif POSIX transition rule"
  | some byte =>
    if byte = 'J'.toUInt8 then
      advance
      let day ← number bytes 3
      refuseFooter (¬ (1 ≤ day ∧ day ≤ 365)) "invalid Julian TZ rule day"
      return .julianNoLeap day
    else if byte = 'M'.toUInt8 then
      advance
      let month ← number bytes 2
      expect bytes '.'
      let week ← number bytes 1
      expect bytes '.'
      let weekday ← number bytes 1
      refuseFooter (¬ (1 ≤ month ∧ month ≤ 12) ∨ ¬ (1 ≤ week ∧ week ≤ 5) ∨ 6 < weekday)
        "invalid month-weekday TZ rule"
      return .monthWeekday month week weekday
    else if isAsciiDigit byte then
      let day ← number bytes 3
      refuseFooter (365 < day) "invalid Julian TZ rule day"
      return .julian day
    else fail "invalid TZif POSIX transition rule"

def transitionRule (extended : Bool) : PosixParser PosixTransitionRule := do
  let day ← transitionDay bytes
  if (← peek bytes) = some '/'.toUInt8 then
    advance
    return ⟨day, ← clockValue bytes extended true⟩
  else return ⟨day, 7200⟩

def posixTimeZone (extended : Bool) : PosixParser PosixTimeZone := do
  name bytes
  let standardOffset ← liftM (i32 (-(← clockValue bytes extended false)))
  if (← get) = bytes.length then return ⟨standardOffset, none⟩
  else
    name bytes
    let daylightOffset ← (if (← peek bytes) = some ','.toUInt8 then
        liftM ((i32 (standardOffset + 3600)).elim (.error "POSIX daylight offset overflow") .ok :
          Except String ℤ)
      else do
        liftM (i32 (-(← clockValue bytes extended false))) : PosixParser ℤ)
    refuseFooter (¬ (-86400 ≤ standardOffset ∧ standardOffset ≤ 86400) ∨
        ¬ (-86400 ≤ daylightOffset ∧ daylightOffset ≤ 86400))
      "TZif POSIX offset is outside the supported range"
    expect bytes ','
    let start ← transitionRule bytes extended
    expect bytes ','
    let stop ← transitionRule bytes extended
    refuseFooter ((← get) ≠ bytes.length) "unexpected data in TZif POSIX footer"
    return ⟨standardOffset, some ⟨daylightOffset, start, stop⟩⟩

def PosixTimeZone.parse (value : List UInt8) (allowExtendedTransitionHours : Bool) :
    Trapping String PosixTimeZone := do
  refuse (value.any (128 ≤ ·) = true ∨ 0 ∈ value) "TZif POSIX footer must contain non-NUL ASCII"
  return (← posixTimeZone value allowExtendedTransitionHours 0).1

end Parser

section Following

variable {bytes : List UInt8} {pre : List UInt8 → Prop} (limit : bytes.length < 2 ^ 64)

theorem follows_peek : Follows bytes pre (peek bytes) TimeZones.peek
    fun first rest => first = rest.head? ∧ pre rest :=
  fun cursor inside holds => .inr ⟨_, cursor, inside, rfl,
    congrArg (fun first => some (Except.ok (first, cursor))) List.head?_drop.symm, rfl, holds⟩

theorem follows_refuse (c : Prop) [Decidable c] (message : String) : Follows bytes pre
    (refuseFooter c message) (TimeZones.refuseFooter c message) fun _ rest => ¬ c ∧ pre rest := by
  intro cursor inside holds
  unfold refuseFooter TimeZones.refuseFooter
  by_cases refused : c
  · rw [refuse, if_pos refused]
    exact .inl ⟨message, rfl, rfl⟩
  · rw [refuse_of_not refused]
    exact .inr ⟨(), cursor, inside, rfl, rfl, refused, holds⟩

variable {cursor : ℕ}

theorem advance_run (room : cursor + 1 < 2 ^ 64) : advance cursor = some (.ok ((), cursor + 1)) := by
  change (liftM (usize (cursor + 1)) >>= fun next => StateT.set next : PosixParser Unit) cursor = _
  rw [usize, unsigned_of_lt room]
  rfl

include limit in
theorem follows_advance : Follows bytes (fun rest => rest ≠ []) advance TimeZones.advance
    fun _ _ => True := by
  intro cursor inside more
  have before : cursor < bytes.length := by
    rw [ne_eq, List.drop_eq_nil_iff, not_le] at more
    exact more
  refine .inr ⟨(), cursor + 1, before, ?_, advance_run (by omega), True.intro⟩
  exact congrArg (fun rest => Except.ok ((), rest)) List.tail_drop

theorem peek_bind {α : Type} {f : Option UInt8 → PosixParser α} :
    (peek bytes >>= f) cursor = f bytes[cursor]? cursor := rfl

theorem get_bind {α : Type} {f : ℕ → PosixParser α} : (get >>= f) cursor = f cursor cursor := rfl

theorem refuse_run {c : Prop} [Decidable c] {message : String} (passed : ¬ c) :
    refuseFooter c message cursor = some (.ok ((), cursor)) := by
  rw [refuseFooter, refuse_of_not passed]
  rfl

theorem drop_of_none (ended : bytes[cursor]? = none) : bytes.drop cursor = [] :=
  List.drop_eq_nil_of_le (List.getElem?_eq_none_iff.mp ended)

theorem drop_of_some {byte : UInt8} (found : bytes[cursor]? = some byte) :
    cursor < bytes.length ∧ bytes.drop cursor = byte :: bytes.drop (cursor + 1) := by
  obtain ⟨inside, same⟩ := List.getElem?_eq_some_iff.mp found
  exact ⟨inside, same ▸ List.drop_eq_getElem_cons inside⟩

include limit in
theorem letters_run {turns cursor : ℕ} (enough : bytes.length ≤ cursor + turns) :
    letters bytes turns cursor =
      some (.ok ((), cursor + ((bytes.drop cursor).takeWhile isAsciiAlphabetic).length)) := by
  induction turns generalizing cursor with
  | zero =>
    rw [List.drop_eq_nil_of_le (show bytes.length ≤ cursor from enough)]
    rfl
  | succ turns ih =>
    rw [letters, peek_bind]
    cases found : bytes[cursor]? with
    | none =>
      rw [drop_of_none found]
      rfl
    | some byte =>
      obtain ⟨inside, rest⟩ := drop_of_some found
      rw [rest]
      by_cases letter : isAsciiAlphabetic byte = true
      · rw [if_pos (by exact letter), run_bind (advance_run (by omega)), ih (by omega),
          List.takeWhile_cons_of_pos letter, List.length_cons]
        exact congrArg (fun n => some (Except.ok ((), n))) (by omega)
      · rw [if_neg (by exact letter), List.takeWhile_cons_of_neg letter]
        rfl

include limit in
theorem quotedName_run {turns cursor : ℕ} (inside : cursor ≤ bytes.length)
    (enough : bytes.length ≤ cursor + turns) :
    (∃ error, TimeZones.quotedName (bytes.drop cursor) = .error error ∧
        quotedName bytes turns cursor = some (.error error)) ∨
      ∃ length, cursor + length ≤ bytes.length ∧
        TimeZones.quotedName (bytes.drop cursor) = .ok (length, bytes.drop (cursor + length)) ∧
          quotedName bytes turns cursor = some (.ok ((), cursor + length)) := by
  induction turns generalizing cursor with
  | zero =>
    have ended := List.drop_eq_nil_of_le (show bytes.length ≤ cursor from enough)
    refine .inr ⟨0, inside, ?_, rfl⟩
    rw [add_zero, ended, TimeZones.quotedName]
  | succ turns ih =>
    rw [quotedName, peek_bind]
    cases found : bytes[cursor]? with
    | none =>
      refine .inr ⟨0, inside, ?_, rfl⟩
      rw [add_zero, drop_of_none found, TimeZones.quotedName]
    | some byte =>
      obtain ⟨before, rest⟩ := drop_of_some found
      dsimp only
      rw [rest, TimeZones.quotedName]
      by_cases closing : byte = '>'.toUInt8
      · rw [if_pos closing, if_pos closing]
        refine .inr ⟨0, inside, ?_, rfl⟩
        rw [add_zero, rest]
        rfl
      · rw [if_neg closing, if_neg closing]
        by_cases refused : isAsciiGraphic byte = false ∨ byte = ','.toUInt8 ∨ byte = '<'.toUInt8
        · rw [refuseFooter, refuse, if_pos refused]
          exact .inl ⟨_, rfl, rfl⟩
        · rw [run_bind (refuse_run refused), run_bind (advance_run (by omega)), refuse_of_not refused]
          rcases ih before (by omega) with ⟨error, failed, failed'⟩ | ⟨length, inside', done, done'⟩
          · rw [failed, failed']
            exact .inl ⟨error, rfl, rfl⟩
          · rw [done, done']
            refine .inr ⟨length + 1, by omega, ?_, ?_⟩
            · rw [show cursor + (length + 1) = cursor + 1 + length by omega]
              rfl
            · exact congrArg (fun n => some (Except.ok ((), n))) (by omega)

theorem decimal_fits {message : String} {value : ℕ} {byte : UInt8} (digit : isAsciiDigit byte = true)
    (small : value < 10 ^ 8) : 48 ≤ byte.toNat ∧ byte.toNat ≤ 57 ∧
      ((unsigned 31 (value * 10)).bind fun tens => unsigned 31 (tens + (byte.toNat - 48))).elim
        (.error message) .ok = (.ok (value * 10 + (byte.toNat - 48)) : Except String ℕ) := by
  rw [isAsciiDigit, Bool.and_eq_true, decide_eq_true_eq, decide_eq_true_eq, UInt8.le_iff_toNat_le,
    UInt8.le_iff_toNat_le] at digit
  obtain ⟨least, most⟩ := digit
  change 48 ≤ byte.toNat at least
  change byte.toNat ≤ 57 at most
  refine ⟨least, most, ?_⟩
  rw [unsigned_of_lt (by omega), Option.bind_some, unsigned_of_lt (by omega)]
  rfl

include limit in
theorem digits_run {start maxDigits left cursor value : ℕ} (place : start ≤ cursor)
    (rest : cursor + left = start + maxDigits) (few : maxDigits ≤ 8) (small : value < 10 ^ (maxDigits - left)) :
    digits bytes start maxDigits left value cursor = some (.ok
      ((((bytes.drop cursor).take left).takeWhile isAsciiDigit).foldl
        (fun value byte => value * 10 + (byte.toNat - 48)) value,
        cursor + (((bytes.drop cursor).take left).takeWhile isAsciiDigit).length)) ∧
      (((bytes.drop cursor).take left).takeWhile isAsciiDigit).foldl
        (fun value byte => value * 10 + (byte.toNat - 48)) value < 10 ^ maxDigits := by
  induction left generalizing cursor value with
  | zero => exact ⟨rfl, small⟩
  | succ left ih =>
    have less : value < 10 ^ maxDigits := small.trans_le (Nat.pow_le_pow_right (by decide) (by omega))
    have taken : minus cursor start = some (cursor - start) := minus_of_le place
    rw [digits, get_bind, run_bind (run_operation taken), if_pos (by omega), peek_bind]
    cases found : bytes[cursor]? with
    | none =>
      rw [drop_of_none found]
      exact ⟨rfl, less⟩
    | some byte =>
      obtain ⟨before, behind⟩ := drop_of_some found
      dsimp only
      rw [behind, List.take_succ_cons]
      by_cases digit : isAsciiDigit byte = true
      · obtain ⟨least, most, fits⟩ := @decimal_fits "TZif POSIX number overflow" value byte digit
          (less.trans_le (Nat.pow_le_pow_right (by decide) few))
        rw [if_pos digit, List.takeWhile_cons_of_pos digit, List.foldl_cons, List.length_cons,
          run_bind (run_operation (minus_of_le least)), run_bind (run_step fits),
          run_bind (advance_run (by omega))]
        have next : maxDigits - left = maxDigits - (left + 1) + 1 := by omega
        obtain ⟨done, bound⟩ := @ih (cursor + 1) (value * 10 + (byte.toNat - 48)) (by omega) (by omega)
          (by rw [next, pow_succ]; omega)
        exact ⟨done.trans (congrArg (fun n => some (Except.ok (_, n))) (by omega)), bound⟩
      · rw [if_neg digit, List.takeWhile_cons_of_neg digit]
        exact ⟨rfl, less⟩

theorem i32_eq {value : ℤ} (low : -2 ^ 31 ≤ value) (high : value < 2 ^ 31) : i32 value = some value :=
  signed_of_fits (by omega) (by omega)

theorem clock_eq {sign : ℤ} {hours minutes seconds : ℕ} (unit : sign = 1 ∨ sign = -1) (hour : hours < 1000)
    (minute : minutes < 100) (second : seconds < 100) : clock sign hours minutes seconds =
      some (sign * (hours * 3600 + minutes * 60 + seconds : ℕ)) := by
  obtain ⟨h, same, few⟩ : ∃ h : ℤ, (hours : ℤ) = h ∧ 0 ≤ h ∧ h < 1000 := ⟨hours, rfl, by omega⟩
  obtain ⟨m, same', few'⟩ : ∃ m : ℤ, (minutes : ℤ) = m ∧ 0 ≤ m ∧ m < 100 := ⟨minutes, rfl, by omega⟩
  obtain ⟨s, same'', few''⟩ : ∃ s : ℤ, (seconds : ℤ) = s ∧ 0 ≤ s ∧ s < 100 := ⟨seconds, rfl, by omega⟩
  rw [clock]
  push_cast
  rw [same, same', same'', i32_eq (by omega) (by omega), i32_eq (by omega) (by omega)]
  simp only [Option.bind_eq_bind, Option.bind_some]
  rw [i32_eq (by omega) (by omega), Option.bind_some, i32_eq (by omega) (by omega), Option.bind_some, mul_comm]
  rcases unit with rfl | rfl
  · exact i32_eq (by omega) (by omega)
  · exact i32_eq (by omega) (by omega)

theorem more_of_peeked {byte : UInt8} {rest : List UInt8} (peeked : some byte = rest.head?) : rest ≠ [] := by
  rintro rfl
  cases peeked

include limit

theorem follows_expect (expected : Char) : Follows bytes pre (expect bytes expected)
    (TimeZones.expect expected) fun _ _ => True := by
  refine follows_peek.bind fun first => (follows_refuse _ _).bind fun _ => ?_
  refine (follows_advance limit).weaken fun rest holds => ?_
  obtain ⟨found, peeked, -⟩ := holds
  exact more_of_peeked ((not_not.mp found).symm.trans peeked)

theorem follows_letters : Follows bytes pre (span (letters bytes bytes.length))
    (modifyGet fun rest => ((rest.takeWhile isAsciiAlphabetic).length, rest.dropWhile isAsciiAlphabetic))
    fun _ _ => True := by
  intro cursor inside _
  have run := letters_run limit (show bytes.length ≤ cursor + bytes.length by omega)
  have parts := @List.takeWhile_append_dropWhile _ isAsciiAlphabetic (bytes.drop cursor)
  have counted := congrArg List.length parts
  rw [List.length_append, List.length_drop] at counted
  have behind := @List.drop_left _ ((bytes.drop cursor).takeWhile isAsciiAlphabetic)
    ((bytes.drop cursor).dropWhile isAsciiAlphabetic)
  rw [parts, List.drop_drop] at behind
  refine .inr ⟨((bytes.drop cursor).takeWhile isAsciiAlphabetic).length,
    cursor + ((bytes.drop cursor).takeWhile isAsciiAlphabetic).length, by omega, ?_, ?_, True.intro⟩
  · exact congrArg (fun rest => Except.ok (_, rest)) behind.symm
  · rw [span, get_bind, run_bind run, get_bind]
    exact congrArg (fun n => some (Except.ok (n, _))) (Nat.add_sub_cancel_left _ _)

theorem follows_quotedName : Follows bytes pre (span (quotedName bytes bytes.length)) TimeZones.quotedName
    fun _ _ => True := by
  intro cursor inside _
  rcases quotedName_run limit inside (show bytes.length ≤ cursor + bytes.length by omega) with
    ⟨error, failed, failed'⟩ | ⟨length, inside', done, done'⟩
  · refine .inl ⟨error, failed, ?_⟩
    rw [span, get_bind, run_bind_error failed']
  · refine .inr ⟨length, cursor + length, inside', done, ?_, True.intro⟩
    rw [span, get_bind, run_bind done', get_bind]
    exact congrArg (fun n => some (Except.ok (n, _))) (Nat.add_sub_cancel_left _ _)

theorem follows_name : Follows bytes pre (name bytes) TimeZones.name fun _ _ => True := by
  refine follows_peek.bind fun first => Follows.bind
    (?_ : Follows bytes _ _ _ fun _ _ => True) fun length => ?_
  · refine .ite (fun opening => ?_) fun _ => follows_letters limit
    refine ((follows_advance limit).weaken fun rest holds => ?_).bind fun _ => ?_
    · exact more_of_peeked (opening.symm.trans holds.1)
    · exact (follows_quotedName limit).bind fun length => (follows_expect limit _).bind fun _ =>
        .pure fun _ _ => True.intro
  · exact (follows_refuse _ _).imp fun _ _ _ => True.intro

theorem follows_number {maxDigits : ℕ} (few : maxDigits ≤ 8) : Follows bytes pre (number bytes maxDigits)
    (TimeZones.number maxDigits) fun value _ => value < 10 ^ maxDigits := by
  intro cursor inside _
  obtain ⟨run, bound⟩ := @digits_run bytes limit cursor maxDigits maxDigits cursor 0 le_rfl rfl few (by simp)
  have counted := (List.takeWhile_prefix isAsciiDigit (l := (bytes.drop cursor).take maxDigits)).length_le
  rw [List.length_take, List.length_drop] at counted
  rw [number, get_bind, run_bind run, get_bind]
  have taken : ((bytes.drop cursor).drop
      (((bytes.drop cursor).take maxDigits).takeWhile isAsciiDigit).length) = bytes.drop (cursor +
        (((bytes.drop cursor).take maxDigits).takeWhile isAsciiDigit).length) := List.drop_drop
  by_cases none_ : ((bytes.drop cursor).take maxDigits).takeWhile isAsciiDigit = []
  · refine .inl ⟨"expected a number in TZif POSIX footer", ?_, ?_⟩
    · change ((refuse (_ = []) _).map _ >>= _ : Except String (ℕ × List UInt8)) = _
      rw [refuse, if_pos none_]
      rfl
    · refine run_bind_error ?_
      rw [refuseFooter, refuse, if_pos (by rw [none_]; rfl)]
      rfl
  · refine .inr ⟨_, cursor + (((bytes.drop cursor).take maxDigits).takeWhile isAsciiDigit).length, by omega,
      ?_, run_bind (refuse_run ?_), bound⟩
    · change ((refuse (_ = []) _).map _ >>= _ : Except String (ℕ × List UInt8)) = _
      rw [refuse_of_not none_, ← taken]
      rfl
    · intro same
      exact none_ (List.length_eq_zero_iff.mp (by omega))

theorem follows_sexagesimal : Follows bytes pre (sexagesimal bytes) TimeZones.sexagesimal
    fun value _ => value < 100 := by
  refine follows_peek.bind fun first => .ite (fun colon => ?_) fun _ => .pure fun _ _ => by decide
  refine ((follows_advance limit).weaken fun rest holds => ?_).bind fun _ => follows_number limit (by decide)
  exact more_of_peeked (colon.symm.trans holds.1)

theorem follows_clockValue (extended transition : Bool) : Follows bytes pre
    (clockValue bytes extended transition) (TimeZones.clockValue extended transition)
    fun value _ => -604799 ≤ value ∧ value ≤ 604799 := by
  have advances {first : Option UInt8} {byte : UInt8} (found : first = some byte) :
      Follows bytes (fun rest => first = rest.head? ∧ True) advance TimeZones.advance fun _ _ => True :=
    (follows_advance limit).weaken fun rest holds => more_of_peeked (found.symm.trans holds.1)
  have signed : Follows bytes pre (do
      if (← peek bytes) = some '+'.toUInt8 then
        advance
        return (1, true)
      else if (← peek bytes) = some '-'.toUInt8 then
        advance
        return (-1, true)
      else return (1, false) : PosixParser (ℤ × Bool)) (do
      if (← TimeZones.peek) = some '+'.toUInt8 then
        TimeZones.advance
        return (1, true)
      else if (← TimeZones.peek) = some '-'.toUInt8 then
        TimeZones.advance
        return (-1, true)
      else return (1, false) : TimeZones.PosixParser (ℤ × Bool)) fun sign _ => sign.1 = 1 ∨ sign.1 = -1 := by
    refine (follows_peek.weaken fun _ _ => True.intro).bind fun first => .ite (fun plus => ?_) fun _ => ?_
    · exact (advances plus).bind fun _ => .pure fun _ _ => .inl rfl
    · refine (follows_peek.weaken fun _ _ => True.intro).bind fun first => .ite (fun hyphen => ?_) fun _ => ?_
      · exact (advances hyphen).bind fun _ => .pure fun _ _ => .inr rfl
      · exact .pure fun _ _ => .inl rfl
  refine signed.bind fun sign => .knowing (fun _ holds => holds) fun unit => ?_
  refine (follows_number limit (by decide)).bind fun hours => .knowing (fun _ holds => holds) fun few => ?_
  refine (follows_refuse _ _).bind fun _ => .knowing (fun _ holds => holds.1) fun hour => ?_
  refine (follows_sexagesimal limit).bind fun minutes => .knowing (fun _ holds => holds) fun few' => ?_
  refine (follows_sexagesimal limit).bind fun seconds => .knowing (fun _ holds => holds) fun few'' => ?_
  refine (follows_refuse _ _).bind fun _ => .knowing (fun _ holds => holds.1) fun inside => ?_
  refine .operation (clock_eq unit few few' few'') fun _ _ => ?_
  have hour : hours ≤ 167 := by
    split_ifs at hour <;> omega
  rcases unit with positive | negative
  · rw [positive]
    omega
  · rw [negative]
    omega

theorem follows_transitionDay : Follows bytes pre (transitionDay bytes) TimeZones.transitionDay
    fun _ _ => True := by
  refine (follows_peek.weaken fun _ _ => True.intro).bind fun first => ?_
  cases first with
  | none => exact fun cursor inside _ => .inl ⟨_, rfl, rfl⟩
  | some byte =>
    have advances : Follows bytes (fun rest => some byte = rest.head? ∧ True) advance TimeZones.advance
        fun _ _ => True := (follows_advance limit).weaken fun rest holds => more_of_peeked holds.1
    refine .ite (fun _ => ?_) fun _ => .ite (fun _ => ?_) fun _ => .ite (fun _ => ?_) fun _ => ?_
    · refine advances.bind fun _ => (follows_number limit (by decide)).bind fun day => ?_
      exact (follows_refuse _ _).bind fun _ => .pure fun _ _ => True.intro
    · refine advances.bind fun _ => (follows_number limit (by decide)).bind fun month => ?_
      refine (follows_expect limit _).bind fun _ => (follows_number limit (by decide)).bind fun week => ?_
      refine (follows_expect limit _).bind fun _ => (follows_number limit (by decide)).bind fun weekday => ?_
      exact (follows_refuse _ _).bind fun _ => .pure fun _ _ => True.intro
    · refine (follows_number limit (by decide)).bind fun day => ?_
      exact (follows_refuse _ _).bind fun _ => .pure fun _ _ => True.intro
    · exact fun cursor inside _ => .inl ⟨_, rfl, rfl⟩

theorem follows_transitionRule (extended : Bool) : Follows bytes pre (transitionRule bytes extended)
    (TimeZones.transitionRule extended) fun _ _ => True := by
  refine (follows_transitionDay limit).bind fun day => follows_peek.bind fun first => ?_
  refine .ite (fun slash => ?_) fun _ => .pure fun _ _ => True.intro
  refine ((follows_advance limit).weaken fun rest holds => ?_).bind fun _ => ?_
  · exact more_of_peeked (slash.symm.trans holds.1)
  · exact (follows_clockValue limit extended true).bind fun seconds => .pure fun _ _ => True.intro

omit limit in
theorem done_iff {cursor : ℕ} (inside : cursor ≤ bytes.length) : bytes.drop cursor = [] ↔
    cursor = bytes.length := by
  rw [List.drop_eq_nil_iff]
  omega

omit limit in
theorem follows_done {α : Type} {post : α → List UInt8 → Prop} {x x' : PosixParser α}
    {y y' : TimeZones.PosixParser α} (first : Follows bytes pre x y post)
    (second : Follows bytes pre x' y' post) :
    Follows bytes pre (do if (← get) = bytes.length then x else x') (do if (← get) = [] then y else y')
      post := by
  intro cursor inside holds
  change (∃ error, (if bytes.drop cursor = [] then y else y') (bytes.drop cursor) = _ ∧
    (if cursor = bytes.length then x else x') cursor = _) ∨ ∃ a, ∃ cursor' ≤ _,
      (if bytes.drop cursor = [] then y else y') (bytes.drop cursor) = _ ∧
        (if cursor = bytes.length then x else x') cursor = _ ∧ _
  by_cases ended : cursor = bytes.length
  · rw [if_pos ended, if_pos ((done_iff inside).mpr ended)]
    exact first cursor inside holds
  · rw [if_neg ended, if_neg (mt (done_iff inside).mp ended)]
    exact second cursor inside holds

omit limit in
theorem follows_ended {α : Type} (message : String) (a : α) : Follows bytes pre
    (do
      refuseFooter ((← get) ≠ bytes.length) message
      return a)
    (do
      TimeZones.refuseFooter ((← get) ≠ []) message
      return a) fun _ _ => True := by
  intro cursor inside holds
  have same : TimeZones.refuseFooter (bytes.drop cursor ≠ []) message =
      TimeZones.refuseFooter (cursor ≠ bytes.length) message := by
    funext rest
    simp only [TimeZones.refuseFooter, refuse, ne_eq, done_iff inside]
  change (∃ error, (TimeZones.refuseFooter (bytes.drop cursor ≠ []) message >>= fun _ => pure a) _ = _ ∧ _) ∨
    ∃ b, ∃ cursor' ≤ _, (TimeZones.refuseFooter (bytes.drop cursor ≠ []) message >>= fun _ => pure a) _ = _ ∧ _
  rw [same]
  have returns (u : Unit) : Follows bytes (fun rest => ¬ cursor ≠ bytes.length ∧ pre rest)
      (pure a : PosixParser α) (pure a) fun _ _ => True := .pure fun _ _ => True.intro
  exact ((follows_refuse _ message).bind returns) cursor inside holds

theorem follows_posixTimeZone (extended : Bool) : Follows bytes pre (posixTimeZone bytes extended)
    (TimeZones.posixTimeZone extended) fun _ _ => True := by
  refine (follows_name limit).bind fun _ => ?_
  refine (follows_clockValue limit extended false).bind fun west => .knowing (fun _ holds => holds)
    fun near => ?_
  refine .passes (i32_eq (by omega) (by omega)) (follows_done (.pure fun _ _ => True.intro) ?_)
  refine (follows_name limit).bind fun _ => follows_peek.bind fun first => Follows.bind
    (?_ : Follows bytes _ _ _ fun _ _ => True) fun daylight => ?_
  · refine .ite (fun _ => ?_) fun _ => ?_
    · rw [i32_eq (by omega) (by omega)]
      exact .pure fun _ _ => True.intro
    · refine (follows_clockValue limit extended false).bind fun west' => .knowing (fun _ holds => holds)
        fun near' => ?_
      exact .operation (i32_eq (by omega) (by omega)) fun _ _ => True.intro
  · refine (follows_refuse _ _).bind fun _ => (follows_expect limit _).bind fun _ => ?_
    refine (follows_transitionRule limit extended).bind fun start => (follows_expect limit _).bind fun _ => ?_
    exact (follows_transitionRule limit extended).bind fun stop => follows_ended _ _

theorem PosixTimeZone.parse_settles (extended : Bool) :
    Settles (PosixTimeZone.parse bytes extended) (TimeZones.PosixTimeZone.parse bytes extended) := by
  refine .step fun _ _ => ?_
  have follows := @follows_posixTimeZone bytes (fun _ => True) limit extended 0 (Nat.zero_le _) True.intro
  rw [List.drop_zero] at follows
  rcases follows with ⟨error, failed, failed'⟩ | ⟨zone, cursor, -, done, done', -⟩
  · rw [failed, failed']
    rfl
  · rw [done, done']
    rfl

end Following

end Boreal.TimeZones.Machine
