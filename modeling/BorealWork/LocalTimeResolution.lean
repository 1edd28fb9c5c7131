/- Local times of a named zone: the instant a civil date-time is taken for, where the zone shows it once,
more than once, or never. -/
import BorealWork.CivilCalendar
import BorealWork.HierarchyPlanning
import BorealWork.PlanningRows
import BorealWork.TimeZoneReaders
import BorealWork.Library.LocalClock

namespace Boreal
open Drain Sorting WorkModel

namespace TimeZones.Planning.TzifZone
open LocalClock

section Table

def saturatingAdd (a b : ℤ) : ℤ := max (-2 ^ 63) (min (a + b) (2 ^ 63 - 1))

variable (zone : TzifZone)

/-- The distinct offsets, in order. -/
def offsetValues : List ℤ := sortDedup id zone.offsets

def candidates (localSeconds : ℤ) : List (ℤ × ℤ) :=
  sortDedup toLex (zone.offsetValues.filterMap fun offset => do
    let utc ← checked (localSeconds - offset)
    if zone.offsetAt utc = offset then some (utc, offset) else none)

def nextValidFrom (localSeconds : ℤ) : ℤ → List (ℤ × ℤ) → Option (ℤ × ℤ)
  | _, [] => none
  | previous, (at_, newOffset) :: rest =>
    if previous < newOffset ∧ saturatingAdd at_ previous ≤ localSeconds ∧
        localSeconds < saturatingAdd at_ newOffset then some (at_, newOffset)
    else nextValidFrom localSeconds newOffset rest

def nextValidAfterGap (localSeconds : ℤ) : Except Planning.PlanningError (ℤ × ℤ) :=
  (nextValidFrom localSeconds (zone.offsets.headD 0) zone.transitions).elim
    (.error (.timeZoneParse "local time is not resolvable")) .ok

def clock : Clock := ⟨zone.offsets.headD 0, zone.transitions⟩

end Table

end TimeZones.Planning.TzifZone

namespace Planning
open TimeZones.Planning (TzifZone)

section Resolver

structure SystemTimeZoneDatabase where
  roots : List String
  deriving DecidableEq

/-- A relative path below a root. -/
def join (root timezone : String) : String :=
  if root = "" ∨ ['/'] <:+ root.toList then root ++ timezone else root ++ "/" ++ timezone

/-- What stands at a path: no file, one that cannot be read, or its bytes. -/
abbrev Files : Type := String → Option (Except String (List UInt8))

/-- The application's own copy of the hash takes the same steps as the source store's. -/
def sha256ContentDigest (bytes : List UInt8) : String := Source.contentDigest bytes

variable (files : Files)

def SystemTimeZoneDatabase.readZone (database : SystemTimeZoneDatabase) (timezone : String) :
    Except PlanningError (List UInt8 × String) := do
  refuse (timezone = "" ∨ "..".toList <:+: timezone.toList ∨ ['/'] <+: timezone.toList)
    (.invalid "invalid IANA timezone name")
  let searched := database.roots.map (join · timezone)
  match searched.find? fun path => (files path).isSome with
  | some path => match files path with
    | some (.ok bytes) => .ok (bytes, path)
    | some (.error error) => .error (.timeZoneParse error)
    | none => .error (.timeZoneUnavailable timezone searched)
  | none => .error (.timeZoneUnavailable timezone searched)

def localSeconds (nominal : LocalDateTime) : Except PlanningError ℤ :=
  let seconds := do
    let value ← TimeZones.checked (daysFromCivil nominal.date.year nominal.date.month nominal.date.day * 86400)
    let value ← TimeZones.checked (value + nominal.time.hour * 3600)
    let value ← TimeZones.checked (value + nominal.time.minute * 60)
    TimeZones.checked (value + nominal.time.second)
  seconds.elim (.error (.invalid "local timestamp overflow")) .ok

def timestampOf (utcSeconds : ℤ) : Except PlanningError TimestampMs :=
  ((TimeZones.checked (utcSeconds * 1000)).filter (0 ≤ ·)).elim
    (.error (.invalid "resolved timestamp is outside supported range")) fun millis => .ok ⟨millis.toNat⟩

def selectInstant (zone : TzifZone) (seconds : ℤ) (gapPolicy : GapPolicy) (foldPolicy : FoldPolicy) :
    Except PlanningError (ℤ × ℤ) :=
  match zone.candidates seconds with
  | [] => do
    let found ← zone.nextValidAfterGap seconds
    refuse (gapPolicy ≠ .nextValid) (.timeZoneParse "unsupported gap policy")
    return found
  | [candidate] => .ok candidate
  | first :: second :: rest =>
    let last := rest.getLastD second
    if first ≠ last then .ok (match foldPolicy with
      | .earlierOffset => first
      | .laterOffset => last)
    else .error (.timeZoneParse "ambiguous timezone resolution")

def SystemTimeZoneDatabase.resolve (database : SystemTimeZoneDatabase) (timezone : String)
    (nominal : LocalDateTime) (gapPolicy : GapPolicy) (foldPolicy : FoldPolicy) :
    Except PlanningError TimeResolution := do
  nominal.validate.mapError (.domain ∘ .model)
  let (bytes, _) ← database.readZone files timezone
  let zone ← (TzifZone.parse bytes).mapError .timeZoneParse
  let seconds ← localSeconds nominal
  let (utcSeconds, offset) ← selectInstant zone seconds gapPolicy foldPolicy
  let utcInstant ← timestampOf utcSeconds
  let resolution : TimeResolution :=
    { nominalLocal := nominal
      utcInstant
      utcOffsetMinutes := offset.tdiv 60
      timezone
      tzdbIdentity := sha256ContentDigest bytes
      gapPolicy
      foldPolicy }
  resolution.validate.mapError (.domain ∘ .model)
  return resolution

def SystemTimeZoneDatabase.businessDateStart (database : SystemTimeZoneDatabase)
    (setting : Store.ProjectCivilTimeSetting) (date : LocalDate) : Except PlanningError TimestampMs := do
  setting.validate.mapError (.domain ∘ .model)
  let (bytes, _) ← database.readZone files setting.timezone
  refuse (sha256ContentDigest bytes ≠ setting.tzdbIdentity)
    (.timeZoneParse "project civil-time setting does not match the selected timezone database")
  let zone ← (TzifZone.parse bytes).mapError .timeZoneParse
  let seconds ← localSeconds ⟨date, ⟨0, 0, 0⟩⟩
  let (utcSeconds, _) ← match zone.candidates seconds with
    | [] => zone.nextValidAfterGap seconds
    | first :: _ => .ok first
  timestampOf utcSeconds

end Resolver

end Planning

namespace TimeZones.Planning.TzifZone
open LocalClock

section Files

variable {zone : TzifZone} {bytes : List UInt8}

/-- What a reader leaves of a file: the offsets in force are offsets of the types, of 32 bits each. -/
structure Formed (zone : TzifZone) : Prop where
  first : zone.offsets.headD 0 ∈ zone.offsets
  listed : ∀ transition ∈ zone.transitions, transition.2 ∈ zone.offsets
  narrow : ∀ offset ∈ zone.offsets, -2 ^ 31 ≤ offset ∧ offset < 2 ^ 31

theorem readEach_all {α : Type} {read : ℕ → Except String α} {p : α → Prop}
    (each : ∀ cursor a, read cursor = .ok a → p a) {width cursor count : ℕ} {l : List α}
    (done : readEach read width cursor count = .ok l) : ∀ a ∈ l, p a := by
  induction count generalizing cursor l with
  | zero =>
    cases done
    exact List.forall_mem_nil _
  | succ count ih =>
    obtain ⟨a, here, done⟩ := bind_eq_ok.mp done
    obtain ⟨rest, later, made⟩ := bind_eq_ok.mp done
    cases made
    exact List.forall_mem_cons.mpr ⟨each cursor a here, ih later⟩

theorem readI32_narrow {truncated : String} {offset : ℕ} {value : ℤ}
    (done : readI32 truncated bytes offset = .ok value) : -2 ^ 31 ≤ value ∧ value < 2 ^ 31 := by
  obtain ⟨word, -, made⟩ := bind_eq_ok.mp done
  rw [← Except.ok.inj made]
  exact ⟨Int.le_bmod (by decide), Int.bmod_lt (by decide)⟩

theorem parseTzifBlock_narrow {start timeSize : ℕ} {block : TzifBlock}
    (done : parseTzifBlock bytes start timeSize = .ok block) :
    ∀ offset ∈ block.offsets, -2 ^ 31 ≤ offset ∧ offset < 2 ^ 31 := by
  simp only [parseTzifBlock, readTables, bind_eq_ok] at done
  obtain ⟨-, -, counts, -, times, -, types, -, offsets, read, -, -, -, -, made⟩ := done
  rw [← Except.ok.inj made]
  exact readEach_all (fun cursor value => readI32_narrow) read

theorem resolveTransitions_listed {outOfRange : String} {block : TzifBlock} {transitions : List (ℤ × ℤ)}
    (done : resolveTransitions outOfRange block = .ok transitions) :
    ∀ transition ∈ transitions, transition.2 ∈ block.offsets := by
  rw [resolveTransitions, mapM_eq_ok] at done
  intro transition member
  obtain ⟨⟨time, index⟩, -, resolved⟩ := exists_partner done transition member
  obtain ⟨offset, found, made⟩ := elim_eq_ok.mp resolved
  cases made
  exact List.mem_of_getElem? found

theorem parse_offsets (done : parse bytes = .ok zone) : zone.offsets ≠ [] := by
  rw [parse, check_eq_ok] at done
  obtain ⟨first, -, done⟩ := bind_eq_ok.mp done.2
  split at done <;> simp only [bind_eq_ok, refuse_eq_ok] at done
  · obtain ⟨block, -, transitions, -, -, some_, made⟩ := done
    rw [← Except.ok.inj made]
    exact some_
  · obtain ⟨block, -, transitions, -, -, some_, made⟩ := done
    rw [← Except.ok.inj made]
    exact some_

theorem formed_of_parse (done : parse bytes = .ok zone) : zone.Formed := by
  obtain ⟨first, block, firstRead, read, resolved, same⟩ := Planning.TzifZone.parsed done
  have some_ : zone.offsets ≠ [] := parse_offsets done
  refine ⟨?_, fun transition member => same ▸ resolveTransitions_listed resolved transition member, ?_⟩
  · obtain ⟨offset, rest, split⟩ := List.exists_cons_of_ne_nil some_
    rw [split]
    exact List.mem_cons_self
  · rw [same]
    split at read
    · exact parseTzifBlock_narrow read
    · cases read
      exact parseTzifBlock_narrow firstRead

end Files

section Candidates

variable {zone : TzifZone} {seconds utc offset : ℤ}

theorem offsetAt_clock (utc : ℤ) : zone.offsetAt utc = zone.clock.offsetAt utc := offsetFrom_eq_find

theorem Formed.offsetAt_mem (formed : zone.Formed) (utc : ℤ) : zone.clock.offsetAt utc ∈ zone.offsets :=
  offsetFrom_mem formed.first formed.listed

/-- Local seconds that leave room for an offset of 32 bits. -/
def Roomy (seconds : ℤ) : Prop := -2 ^ 62 ≤ seconds ∧ seconds < 2 ^ 62

theorem mem_candidates (formed : zone.Formed) (roomy : Roomy seconds) :
    (utc, offset) ∈ zone.candidates seconds ↔
      zone.clock.Reads utc seconds ∧ offset = zone.clock.offsetAt utc := by
  have fits (o : ℤ) (known : o ∈ zone.offsets) : checked (seconds - o) = some (seconds - o) := by
    obtain ⟨low, high⟩ := formed.narrow o known
    obtain ⟨least, most⟩ := roomy
    exact if_pos ⟨by omega, by omega⟩
  rw [candidates, mem_sortDedup, List.mem_filterMap]
  simp only [offsetValues, mem_sortDedup]
  constructor
  · rintro ⟨o, known, chosen⟩
    rw [fits o known] at chosen
    by_cases inForce : zone.offsetAt (seconds - o) = o
    · rw [Option.bind_eq_bind, Option.bind_some, if_pos inForce] at chosen
      obtain ⟨rfl, rfl⟩ := Prod.mk.inj (Option.some.inj chosen)
      rw [offsetAt_clock] at inForce
      rw [Clock.Reads, Clock.shown, inForce]
      exact ⟨Int.sub_add_cancel _ _, rfl⟩
    · rw [Option.bind_eq_bind, Option.bind_some, if_neg inForce] at chosen
      cases chosen
  · rintro ⟨reads, rfl⟩
    have known := formed.offsetAt_mem utc
    have back : seconds - zone.clock.offsetAt utc = utc := by
      rw [← reads, Clock.shown, Int.add_sub_cancel]
    refine ⟨_, known, ?_⟩
    rw [fits _ known, back, Option.bind_eq_bind, Option.bind_some, if_pos (offsetAt_clock utc)]

theorem candidates_increasing (formed : zone.Formed) (roomy : Roomy seconds) :
    (zone.candidates seconds).Pairwise (·.1 < ·.1) := by
  refine (sortDedup_increasing fun _ _ _ _ same => toLex.injective same).imp_of_mem fun {a b} memberA memberB less => ?_
  rcases Prod.Lex.lt_iff.mp less with before | ⟨same, differs⟩
  · exact before
  · have first := ((mem_candidates formed roomy).mp memberA).2
    have second := ((mem_candidates formed roomy).mp memberB).2
    have equal : a.1 = b.1 := same
    rw [← equal, ← first] at second
    exact absurd (show a.2 < b.2 from differs) second.not_gt

theorem nextValidFrom_eq (roomy : Roomy seconds) (previous : ℤ) (transitions : List (ℤ × ℤ)) :
    nextValidFrom seconds previous transitions = leapFrom seconds previous transitions := by
  obtain ⟨least, most⟩ := roomy
  induction transitions generalizing previous with
  | nil => rfl
  | cons transition rest ih =>
    obtain ⟨at_, offset⟩ := transition
    have begun : saturatingAdd at_ previous ≤ seconds ↔ at_ + previous ≤ seconds := by
      rw [saturatingAdd]
      omega
    have ended : seconds < saturatingAdd at_ offset ↔ seconds < at_ + offset := by
      rw [saturatingAdd]
      omega
    simp only [nextValidFrom, leapFrom, begun, ended, ih]

end Candidates

end TimeZones.Planning.TzifZone

namespace Planning
open LocalClock
open TimeZones.Planning (TzifZone)
open TimeZones.Planning.TzifZone (Formed Roomy mem_candidates candidates_increasing nextValidFrom_eq)

section Selection

variable {zone : TzifZone} {seconds utc offset : ℤ} {gapPolicy : GapPolicy} {foldPolicy : FoldPolicy}

theorem selectInstant_gap (formed : zone.Formed) (roomy : Roomy seconds)
    (never : ∀ s, ¬ zone.clock.Reads s seconds) :
    selectInstant zone seconds gapPolicy foldPolicy = .ok (utc, offset) ↔
      zone.clock.leap seconds = some (utc, offset) := by
  have none : zone.candidates seconds = [] := by
    apply List.eq_nil_iff_forall_not_mem.mpr
    rintro ⟨s, o⟩ member
    exact never s ((mem_candidates formed roomy).mp member).1
  rw [selectInstant, none, Clock.leap, ← nextValidFrom_eq roomy]
  simp only [bind_eq_ok, refuse_eq_ok, TzifZone.nextValidAfterGap, found_eq_ok]
  constructor
  · rintro ⟨found, gap, -, -, made⟩
    exact Except.ok.inj made ▸ gap
  · exact fun gap => ⟨_, gap, (), by cases gapPolicy; exact not_not.mpr rfl, rfl⟩

theorem selectInstant_candidates (formed : zone.Formed) (roomy : Roomy seconds) {first : ℤ × ℤ}
    {rest : List (ℤ × ℤ)} (found : zone.candidates seconds = first :: rest) :
    selectInstant zone seconds gapPolicy foldPolicy = .ok (match foldPolicy with
      | .earlierOffset => first
      | .laterOffset => rest.getLastD first) := by
  have increasing := candidates_increasing formed roomy
  rw [found, List.pairwise_cons] at increasing
  rw [selectInstant, found]
  cases rest with
  | nil => cases foldPolicy <;> rfl
  | cons second rest =>
    have last : rest.getLastD second ∈ second :: rest := List.getLastD_mem_cons
    have other : first ≠ rest.getLastD second := fun same =>
      (increasing.1 _ last).ne (congrArg Prod.fst same)
    rw [List.getLastD_cons]
    simp only [if_pos other]

theorem le_getLastD {first : ℤ × ℤ} {rest : List (ℤ × ℤ)}
    (increasing : (first :: rest).Pairwise (·.1 < ·.1)) :
    ∀ a ∈ first :: rest, a.1 ≤ (rest.getLastD first).1 := by
  induction rest generalizing first with
  | nil => exact List.forall_mem_singleton.mpr le_rfl
  | cons second rest ih =>
    rw [List.pairwise_cons] at increasing
    have later := ih increasing.2
    rw [List.getLastD_cons, List.forall_mem_cons]
    refine ⟨?_, later⟩
    exact (increasing.1 second List.mem_cons_self).le.trans (later second List.mem_cons_self)

theorem selectInstant_earlier (formed : zone.Formed) (roomy : Roomy seconds) :
    selectInstant zone seconds gapPolicy .earlierOffset = .ok (utc, offset) ↔
      zone.clock.Begins seconds utc offset := by
  cases found : zone.candidates seconds with
  | nil =>
    have never (s : ℤ) : ¬ zone.clock.Reads s seconds := by
      intro reads
      have member := (mem_candidates formed roomy).mpr ⟨reads, rfl⟩
      rw [found] at member
      cases member
    rw [selectInstant_gap formed roomy never]
    constructor
    · exact .leapt never
    · intro begins
      cases begins with
      | shown reads _ => exact absurd reads (never utc)
      | leapt _ leap => exact leap
  | cons first rest =>
    obtain ⟨start, own⟩ := first
    have increasing := candidates_increasing formed roomy
    have member : (start, own) ∈ zone.candidates seconds := found ▸ List.mem_cons_self
    obtain ⟨reads, inForce⟩ := (mem_candidates formed roomy).mp member
    rw [found, List.pairwise_cons] at increasing
    have begins : zone.clock.Begins seconds start own := by
      rw [inForce]
      refine .shown reads fun s reads' => ?_
      have listed := (mem_candidates formed roomy).mpr ⟨reads', rfl⟩
      rw [found] at listed
      rcases List.mem_cons.mp listed with same | later
      · exact (congrArg Prod.fst same).ge
      · exact (increasing.1 _ later).le
    rw [selectInstant_candidates formed roomy found]
    constructor
    · intro same
      obtain ⟨rfl, rfl⟩ := Prod.mk.inj (Except.ok.inj same)
      exact begins
    · intro begins'
      obtain ⟨rfl, rfl⟩ := begins.unique begins'
      rfl

/-- What a fold policy takes: the earliest or the latest of the instants that show the local time, and
a transition that leaps it if there is none. -/
inductive Taken (zone : TzifZone) (seconds : ℤ) : FoldPolicy → ℤ → ℤ → Prop
  | earliest {utc : ℤ} (reads : zone.clock.Reads utc seconds)
      (first : ∀ s, zone.clock.Reads s seconds → utc ≤ s) :
      Taken zone seconds .earlierOffset utc (zone.offsetAt utc)
  | latest {utc : ℤ} (reads : zone.clock.Reads utc seconds)
      (last : ∀ s, zone.clock.Reads s seconds → s ≤ utc) :
      Taken zone seconds .laterOffset utc (zone.offsetAt utc)
  | skipped {foldPolicy : FoldPolicy} {utc offset : ℤ} (never : ∀ s, ¬ zone.clock.Reads s seconds)
      (listed : (utc, offset) ∈ zone.transitions) (before : zone.clock.shown (utc - 1) < seconds)
      (after : seconds < utc + offset) : Taken zone seconds foldPolicy utc offset

theorem selectInstant_taken (formed : zone.Formed) (ordered : zone.clock.Ordered) (roomy : Roomy seconds)
    (gapPolicy : GapPolicy) (foldPolicy : FoldPolicy) :
    ∃ utc offset, selectInstant zone seconds gapPolicy foldPolicy = .ok (utc, offset) ∧
      Taken zone seconds foldPolicy utc offset := by
  by_cases shown : ∃ s, zone.clock.Reads s seconds
  · cases foldPolicy with
    | earlierOffset =>
      obtain ⟨utc, reads, first⟩ := exists_first shown
      refine ⟨utc, zone.offsetAt utc, ?_, .earliest reads first⟩
      rw [selectInstant_earlier formed roomy, TzifZone.offsetAt_clock]
      exact .shown reads first
    | laterOffset =>
      obtain ⟨utc, reads, last⟩ := exists_last shown
      refine ⟨utc, zone.offsetAt utc, ?_, .latest reads last⟩
      have member := (mem_candidates formed roomy).mpr ⟨reads, rfl⟩
      have increasing := candidates_increasing formed roomy
      cases found : zone.candidates seconds with
      | nil =>
        rw [found] at member
        cases member
      | cons first rest =>
        rw [selectInstant_candidates formed roomy found]
        have member' : rest.getLastD first ∈ zone.candidates seconds := found ▸ List.getLastD_mem_cons
        have least := le_getLastD (found ▸ increasing) _ (found ▸ member)
        generalize rest.getLastD first = final at member' least
        obtain ⟨reads', inForce⟩ := (mem_candidates formed roomy).mp member'
        obtain rfl : final.1 = utc := le_antisymm (last _ reads') least
        rw [TzifZone.offsetAt_clock, ← inForce]
  · rw [not_exists] at shown
    obtain ⟨utc, offset, leap⟩ := ordered.exists_leap shown
    obtain ⟨listed, -, before, after⟩ := leapFrom_spec ordered leap
    exact ⟨utc, offset, (selectInstant_gap formed roomy shown).mpr leap, .skipped shown listed before after⟩

end Selection

section Resolution

def secondsOf (nominal : LocalDateTime) : ℤ :=
  nominal.date.dayNumber * 86400 + nominal.time.hour * 3600 + nominal.time.minute * 60 + nominal.time.second

theorem Supported.bounds {n : ℤ} (supported : Supported n) : -2 ^ 40 ≤ n ∧ n < 2 ^ 40 := by
  have least : daysFromCivil (-2 ^ 31) 1 1 = -784353015833 := by decide
  have most : daysFromCivil (2 ^ 31 - 1) 12 31 = 784351576776 := by decide
  rw [Supported, least, most] at supported
  omega

variable {nominal : LocalDateTime}

theorem LocalDateTime.validate_eq_ok : nominal.validate = .ok () ↔
    nominal.date.OnCalendar ∧ nominal.time.hour ≤ 23 ∧ nominal.time.minute ≤ 59 ∧
      nominal.time.second ≤ 59 := by
  rw [LocalDateTime.validate, check_eq_ok, LocalDate.validate_eq_ok, LocalTime.validate]
  refine and_congr_right fun _ => ?_
  split_ifs with outside
  · exact iff_of_false nofun (by omega)
  · exact iff_of_true rfl (by omega)

theorem localSeconds_eq (inYears : nominal.date.InYears) (valid : nominal.validate = .ok ()) :
    localSeconds nominal = .ok (secondsOf nominal) ∧ Roomy (secondsOf nominal) := by
  obtain ⟨onCalendar, hour, minute, second⟩ := LocalDateTime.validate_eq_ok.mp valid
  obtain ⟨low, high⟩ := Supported.bounds (dayNumber_supported inYears onCalendar)
  have fits {value : ℤ} (within : -2 ^ 62 ≤ value ∧ value < 2 ^ 62) : TimeZones.checked value = some value :=
    if_pos ⟨by omega, by omega⟩
  have days : TimeZones.checked (nominal.date.dayNumber * 86400) = some (nominal.date.dayNumber * 86400) :=
    fits (by omega)
  rw [LocalDate.dayNumber] at low high days
  refine ⟨?_, by rw [secondsOf, LocalDate.dayNumber, Roomy]; omega⟩
  simp only [localSeconds, days, Option.bind_eq_bind, Option.bind_some]
  rw [fits (by omega), Option.bind_some, fits (by omega), Option.bind_some, fits (by omega)]
  rfl

/-- Seconds since 1970 that milliseconds can be counted for. -/
def Representable (utc : ℤ) : Prop := 0 ≤ utc ∧ utc * 1000 < 2 ^ 63

instance (utc : ℤ) : Decidable (Representable utc) := inferInstanceAs (Decidable (_ ∧ _))

theorem timestampOf_eq (utc : ℤ) : timestampOf utc =
    if Representable utc then .ok ⟨(utc * 1000).toNat⟩
    else .error (.invalid "resolved timestamp is outside supported range") := by
  by_cases inside : Representable utc
  · have low : 0 ≤ utc * 1000 := Int.mul_nonneg inside.1 (by decide)
    rw [if_pos inside, timestampOf, TimeZones.checked, if_pos ⟨by omega, inside.2⟩, Option.filter_some,
      if_pos (decide_eq_true low)]
    rfl
  · rw [if_neg inside, timestampOf, TimeZones.checked]
    split_ifs with fits
    · have negative : ¬ decide (0 ≤ utc * 1000) = true := by
        rw [decide_eq_true_eq]
        exact fun low => inside ⟨by omega, fits.2⟩
      rw [Option.filter_some, if_neg negative]
      rfl
    · rfl

/-- What the model takes for an offset: whole minutes of a day, in either direction. -/
def IsOffset (offset : ℤ) : Prop := -24 * 60 ≤ offset.tdiv 60 ∧ offset.tdiv 60 ≤ 24 * 60

instance (offset : ℤ) : Decidable (IsOffset offset) := inferInstanceAs (Decidable (_ ∧ _))

theorem resolution_valid {resolution : TimeResolution} : resolution.validate = .ok () ↔
    resolution.nominalLocal.validate = .ok () ∧
      (-24 * 60 ≤ resolution.utcOffsetMinutes ∧ resolution.utcOffsetMinutes ≤ 24 * 60) ∧
      isBlank resolution.timezone = false ∧ isBlank resolution.tzdbIdentity = false := by
  rw [TimeResolution.validate, check_eq_ok]
  refine and_congr_right fun _ => ?_
  by_cases within : -24 * 60 ≤ resolution.utcOffsetMinutes ∧ resolution.utcOffsetMinutes ≤ 24 * 60
  · rw [if_neg (not_not.mpr within), and_iff_right within]
    cases isBlank resolution.timezone <;> cases isBlank resolution.tzdbIdentity <;> simp
  · rw [if_pos within]
    exact iff_of_false nofun fun sound => within sound.1

theorem isBlank_digest (bytes : List UInt8) : isBlank (sha256ContentDigest bytes) = false := by
  rw [sha256ContentDigest, Source.contentDigest, isBlank, String.toList_ofList]
  exact List.all_eq_false.mpr ⟨'s', List.mem_append_left _ (by decide), by decide⟩

variable {files : Files} {database : SystemTimeZoneDatabase} {timezone path : String} {bytes : List UInt8}
  {zone : TzifZone}

def resolutionOf (bytes : List UInt8) (timezone : String) (nominal : LocalDateTime) (gapPolicy : GapPolicy)
    (foldPolicy : FoldPolicy) (utc offset : ℤ) : TimeResolution where
  nominalLocal := nominal
  utcInstant := ⟨(utc * 1000).toNat⟩
  utcOffsetMinutes := offset.tdiv 60
  timezone
  tzdbIdentity := sha256ContentDigest bytes
  gapPolicy
  foldPolicy

theorem resolve_eq_ok (named : isBlank timezone = false)
    (read : database.readZone files timezone = .ok (bytes, path)) (parsed : TzifZone.parse bytes = .ok zone)
    (inYears : nominal.date.InYears) (valid : nominal.validate = .ok ())
    {gapPolicy : GapPolicy} {foldPolicy : FoldPolicy} {resolution : TimeResolution} :
    database.resolve files timezone nominal gapPolicy foldPolicy = .ok resolution ↔
      ∃ utc offset, selectInstant zone (secondsOf nominal) gapPolicy foldPolicy = .ok (utc, offset) ∧
        Representable utc ∧ IsOffset offset ∧
        resolution = resolutionOf bytes timezone nominal gapPolicy foldPolicy utc offset := by
  rw [SystemTimeZoneDatabase.resolve, valid, read]
  simp only [Except.mapError, ok_bind, parsed, (localSeconds_eq inYears valid).1]
  rw [bind_eq_ok]
  constructor
  · rintro ⟨⟨utc, offset⟩, selected, done⟩
    obtain ⟨instant, stamped, done⟩ := bind_eq_ok.mp done
    obtain ⟨_, passed, done⟩ := bind_eq_ok.mp done
    rw [timestampOf_eq] at stamped
    split_ifs at stamped with inside
    cases stamped
    have sound := (resolution_valid.mp (mapError_eq_ok.mp passed)).2.1
    exact ⟨utc, offset, selected, inside, sound, (Except.ok.inj done).symm⟩
  · rintro ⟨utc, offset, selected, inside, whole, rfl⟩
    refine ⟨(utc, offset), selected, bind_eq_ok.mpr ⟨_, (timestampOf_eq utc).trans (if_pos inside), ?_⟩⟩
    refine bind_eq_ok.mpr ⟨(), mapError_eq_ok.mpr (resolution_valid.mpr ?_), rfl⟩
    exact ⟨valid, whole, named, isBlank_digest bytes⟩

theorem resolve_eq (named : isBlank timezone = false)
    (read : database.readZone files timezone = .ok (bytes, path)) (parsed : TzifZone.parse bytes = .ok zone)
    (inYears : nominal.date.InYears) (valid : nominal.validate = .ok ())
    {gapPolicy : GapPolicy} {foldPolicy : FoldPolicy} {utc offset : ℤ} (whole : IsOffset offset)
    (selected : selectInstant zone (secondsOf nominal) gapPolicy foldPolicy = .ok (utc, offset)) :
    database.resolve files timezone nominal gapPolicy foldPolicy =
      if Representable utc then .ok (resolutionOf bytes timezone nominal gapPolicy foldPolicy utc offset)
      else .error (.invalid "resolved timestamp is outside supported range") := by
  split_ifs with inside
  · exact (resolve_eq_ok named read parsed inYears valid).mpr ⟨utc, offset, selected, inside, whole, rfl⟩
  · rw [SystemTimeZoneDatabase.resolve, valid, read]
    simp only [Except.mapError, ok_bind, parsed, (localSeconds_eq inYears valid).1, selected]
    rw [timestampOf_eq, if_neg inside]
    rfl

theorem businessDateStart_eq (read : database.readZone files timezone = .ok (bytes, path))
    (parsed : TzifZone.parse bytes = .ok zone) {date : LocalDate} (inYears : date.InYears)
    (valid : date.validate = .ok ()) {setting : Store.ProjectCivilTimeSetting}
    (settled : setting.validate = .ok ()) (zoned : setting.timezone = timezone)
    (pinned : setting.tzdbIdentity = sha256ContentDigest bytes) {utc offset : ℤ}
    (selected : selectInstant zone (secondsOf ⟨date, ⟨0, 0, 0⟩⟩) .nextValid .earlierOffset =
      .ok (utc, offset)) : database.businessDateStart files setting date = timestampOf utc := by
  have nominal : LocalDateTime.validate ⟨date, ⟨0, 0, 0⟩⟩ = .ok () := check_eq_ok.mpr ⟨valid, rfl⟩
  have formed := TzifZone.formed_of_parse parsed
  have roomy := (localSeconds_eq inYears nominal).2
  rw [SystemTimeZoneDatabase.businessDateStart, settled, zoned, read]
  simp only [Except.mapError, ok_bind, refuse_of_not (not_not.mpr pinned.symm), parsed,
    (localSeconds_eq inYears nominal).1]
  cases found : zone.candidates (secondsOf ⟨date, ⟨0, 0, 0⟩⟩) with
  | nil =>
    have gap : zone.nextValidAfterGap (secondsOf ⟨date, ⟨0, 0, 0⟩⟩) = .ok (utc, offset) := by
      rw [← selected, selectInstant, found]
      cases zone.nextValidAfterGap (secondsOf ⟨date, ⟨0, 0, 0⟩⟩) <;> rfl
    simp only [gap, ok_bind]
  | cons first rest =>
    rw [selectInstant_candidates formed roomy found] at selected
    obtain rfl := Except.ok.inj selected
    rfl

/-- Local times of a zone with ordered transitions and sound offsets are resolved to the earliest or
the latest instant that shows them, and those in a gap to its transition; nothing else fails than an
instant out of range, and a date begins where its midnight is resolved to. -/
theorem resolve_exact (named : isBlank timezone = false)
    (read : database.readZone files timezone = .ok (bytes, path)) (parsed : TzifZone.parse bytes = .ok zone)
    (ordered : zone.transitions.Pairwise (·.1 < ·.1)) (offsets : ∀ offset ∈ zone.offsets, IsOffset offset) :
    (∀ (nominal : LocalDateTime) (gapPolicy : GapPolicy) (foldPolicy : FoldPolicy),
      nominal.date.InYears → nominal.validate = .ok () →
      ∃ utc offset, Taken zone (secondsOf nominal) foldPolicy utc offset ∧
        database.resolve files timezone nominal gapPolicy foldPolicy =
          if Representable utc then .ok (resolutionOf bytes timezone nominal gapPolicy foldPolicy utc offset)
          else .error (.invalid "resolved timestamp is outside supported range")) ∧
    ∀ (setting : Store.ProjectCivilTimeSetting) (date : LocalDate), setting.validate = .ok () →
      setting.timezone = timezone → setting.tzdbIdentity = sha256ContentDigest bytes →
      date.InYears → date.validate = .ok () →
      database.businessDateStart files setting date =
        (database.resolve files timezone ⟨date, ⟨0, 0, 0⟩⟩ .nextValid .earlierOffset).map
          (·.utcInstant) := by
  have formed := TzifZone.formed_of_parse parsed
  have sound {seconds : ℤ} {foldPolicy : FoldPolicy} {utc offset : ℤ}
      (taken : Taken zone seconds foldPolicy utc offset) : IsOffset offset := by
    cases taken with
    | earliest _ _ => exact offsets _ (TzifZone.offsetAt_clock utc ▸ formed.offsetAt_mem utc)
    | latest _ _ => exact offsets _ (TzifZone.offsetAt_clock utc ▸ formed.offsetAt_mem utc)
    | skipped _ listed _ _ => exact offsets _ (formed.listed _ listed)
  constructor
  · intro nominal gapPolicy foldPolicy inYears valid
    have roomy := (localSeconds_eq inYears valid).2
    obtain ⟨utc, offset, selected, taken⟩ := selectInstant_taken formed ordered roomy gapPolicy foldPolicy
    exact ⟨utc, offset, taken, resolve_eq named read parsed inYears valid (sound taken) selected⟩
  · intro setting date settled zoned pinned inYears valid
    have nominal : LocalDateTime.validate ⟨date, ⟨0, 0, 0⟩⟩ = .ok () := check_eq_ok.mpr ⟨valid, rfl⟩
    have roomy := (localSeconds_eq inYears nominal).2
    obtain ⟨utc, offset, selected, taken⟩ :=
      selectInstant_taken formed ordered roomy .nextValid .earlierOffset
    rw [businessDateStart_eq read parsed inYears valid settled zoned pinned selected,
      resolve_eq named read parsed inYears nominal (sound taken) selected, timestampOf_eq]
    split_ifs <;> rfl

namespace Fixture

/-- One zone, below the first of the system's roots. -/
def zoneFile (timezone : String) (bytes : List UInt8) : Files := fun path =>
  if path = "/usr/share/zoneinfo/" ++ timezone then some (.ok bytes) else none

def system : SystemTimeZoneDatabase :=
  ⟨["/usr/share/zoneinfo", "/usr/share/zoneinfo.default", "/var/db/timezone/zoneinfo"]⟩

end Fixture

theorem resolve_exact_eastern : ∃ utc offset,
    Taken TimeZones.easternPlanning (secondsOf ⟨⟨2024, 1, 15⟩, ⟨9, 0, 0⟩⟩) .laterOffset utc offset ∧
      Fixture.system.resolve (Fixture.zoneFile "America/New_York" TimeZones.easternFile) "America/New_York"
          ⟨⟨2024, 1, 15⟩, ⟨9, 0, 0⟩⟩ .nextValid .laterOffset =
        if Representable utc then .ok (resolutionOf TimeZones.easternFile "America/New_York"
          ⟨⟨2024, 1, 15⟩, ⟨9, 0, 0⟩⟩ .nextValid .laterOffset utc offset)
        else .error (.invalid "resolved timestamp is outside supported range") := by
  have read : Fixture.system.readZone (Fixture.zoneFile "America/New_York" TimeZones.easternFile)
      "America/New_York" = .ok (TimeZones.easternFile, "/usr/share/zoneinfo/America/New_York") := by
    decide
  exact (resolve_exact (by decide) read TimeZones.eastern_read.1 (by decide) (by decide)).1 _ _ _
    ⟨by decide, by decide⟩ (by decide)

end Resolution

end Planning

end Boreal
