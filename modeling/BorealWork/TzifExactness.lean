/- What the manager's reader accepts: files whose blocks and footer are the whole of the text, with the
transitions that are written in them, but for a file of the first version, behind which anything may stand. -/
import BorealWork.CheckedTzif

namespace Boreal.TimeZones
open Drain Traps Fields
open GlobalTime (maxTzifBytes)

section Accepted

variable {sort : List (ℤ × ℤ) → List (ℤ × ℤ)} {bytes : List UInt8} {version : UInt8}
  {first block : TzifBlock} {rule : Option PosixTimeZone} {zone : GlobalTime.TzifZone} {data : TzifData}
  {start timeSize : ℕ}

theorem TzifData.Sound.version_stands (sound : data.Sound timeSize)
    (stands : Stands bytes start (data.bytes version timeSize)) : bytes[start + 4]? = some version := by
  obtain ⟨room, slice⟩ := stands_iff_slice.mp (sound.stands_iff.mp stands).version
  have head := congrArg List.head? slice
  rwa [List.length_singleton, List.head?_take, if_neg one_ne_zero, List.head?_drop] at head

/-- What stands behind the first block of a later version. -/
def TailStands (bytes : List UInt8) (version : UInt8) (start : ℕ) (second : TzifData) (footer : List UInt8) :
    Prop :=
  Stands bytes start (second.bytes version 8 ++ (10 :: (footer ++ [10]))) ∧
    start + second.length 8 + footer.length + 2 = bytes.length

theorem readBlock_eq_ok (small : bytes.length ≤ maxTzifBytes) (extended : isExtended version = true) :
    GlobalTime.readBlock bytes version first = .ok (block, rule) ↔
      ∃ second footer, (second.Sound 8 ∧ 10 ∉ footer) ∧ TailStands bytes version first.stop second footer ∧
        FooterRule version footer rule ∧ block = second.block first.stop 8 := by
  rw [GlobalTime.readBlock, if_pos extended]
  simp only [bind_eq_ok, refuse_eq_ok, not_not, GlobalTime.parseTzifBlock_eq_ok (.inr rfl) small]
  constructor
  · rintro ⟨_, versioned, second, ⟨version', data, sound, stands, rfl⟩, footer, footerRead, chosen⟩
    obtain rfl := Option.some.inj ((sound.version_stands stands).symm.trans versioned)
    obtain ⟨line, behind, ended⟩ := parseTzifFooter_eq_ok.mp footerRead
    refine ⟨data, footer, ⟨sound, line⟩, ⟨?_, ended⟩, ?_⟩
    · rw [stands_append, sound.length_bytes]
      exact ⟨stands, behind⟩
    · rw [FooterRule]
      split at chosen <;> rename_i empty
      · cases chosen
        rw [if_pos empty]
        exact ⟨rfl, rfl⟩
      · obtain ⟨parsed, parsedFooter, made⟩ := bind_eq_ok.mp chosen
        cases made
        rw [if_neg empty]
        exact ⟨⟨parsed, parsedFooter, rfl⟩, rfl⟩
  · rintro ⟨data, footer, ⟨sound, line⟩, ⟨stands, ended⟩, ruled, rfl⟩
    rw [stands_append, sound.length_bytes] at stands
    refine ⟨(), sound.version_stands stands.1, _, ⟨version, data, sound, stands.1, rfl⟩, footer,
      parseTzifFooter_eq_ok.mpr ⟨line, stands.2, ended⟩, ?_⟩
    rw [FooterRule] at ruled
    split at ruled <;> rename_i empty
    · rw [if_pos empty, ruled]
      rfl
    · obtain ⟨parsed, parsedFooter, rfl⟩ := ruled
      rw [if_neg empty]
      exact bind_eq_ok.mpr ⟨parsed, parsedFooter, rfl⟩

/-- The blocks and the footer are the whole of the text, or its beginning when there is no footer. -/
def TzifFile.Fills (bytes : List UInt8) : TzifFile → Prop
  | .single data => Stands bytes 0 (data.bytes 0 4)
  | .double version first second footer => bytes = (TzifFile.double version first second footer).bytes

def zoneOf (sort : List (ℤ × ℤ) → List (ℤ × ℤ)) (block : TzifBlock) (rule : Option PosixTimeZone) :
    Except String GlobalTime.TzifZone := do
  refuse (block.offsets = []) "system timezone has no local-time types"
  refuse (block.leapCount ≠ 0)
    "system timezone uses leap-second timestamps that this reader cannot resolve"
  refuse (¬ block.transitionTimes.IsChain (· < ·)) "TZif transitions are not strictly increasing"
  let transitions ← resolveTransitions "TZif transition type is out of range" block
  rule.forM fun rule => transitions.getLast?.forM fun last =>
    refuse (rule.offsetAt sort last.1 ≠ last.2)
      "TZif POSIX footer disagrees with the final explicit transition"
  return ⟨transitions, block.offsets.headD 0, rule⟩

theorem zoneOf_eq_ok {data : TzifData} (sound : data.Sound timeSize) :
    zoneOf sort (data.block start timeSize) rule = .ok zone ↔
      (data.leapCount = 0 ∧ data.times.IsChain (· < ·) ∧
        ∀ index ∈ data.indices, index.toNat < data.types.length) ∧
      zone.transitions = data.transitions ∧ zone.initialOffset = data.initialOffset ∧
        zone.futureRule = rule ∧ ∀ rule ∈ zone.futureRule, ∀ last ∈ zone.transitions.getLast?,
          rule.offsetAt sort last.1 = last.2 := by
  have types := sound.typeCount
  have typed : data.types.map LocalTimeType.offset ≠ [] := by
    rw [ne_eq, List.map_eq_nil_iff]
    rintro none_
    rw [none_] at types
    exact absurd types.1 (by decide)
  simp only [zoneOf, refuse_eq_ok, bind_eq_ok, resolveTransitions_eq_ok sound, option_forM_eq_ok, ne_eq,
    not_not]
  constructor
  · rintro ⟨_, -, _, noLeaps, _, increasing, _, ⟨inRange, rfl⟩, _, agrees, made⟩
    cases made
    exact ⟨⟨noLeaps, increasing, inRange⟩, rfl, rfl, rfl, agrees⟩
  · rintro ⟨⟨noLeaps, increasing, inRange⟩, same, initial, rfl, agrees⟩
    refine ⟨(), typed, (), noLeaps, (), increasing, _, ⟨inRange, rfl⟩, (), same ▸ agrees, ?_⟩
    rw [← same]
    change Except.ok (GlobalTime.TzifZone.mk _ data.initialOffset _) = _
    rw [← initial]

theorem parse_eq_ok_steps (small : bytes.length ≤ maxTzifBytes) :
    GlobalTime.TzifZone.parse sort bytes = .ok zone ↔
      ∃ (version : UInt8) (data : TzifData), (data.Sound 4 ∧ Stands bytes 0 (data.bytes version 4)) ∧
        (version = 0 ∨ isExtended version = true) ∧ ∃ block rule,
          GlobalTime.readBlock bytes version (data.block 0 4) = .ok (block, rule) ∧
            zoneOf sort block rule = .ok zone := by
  rw [GlobalTime.TzifZone.parse, check_eq_ok, check_eq_ok, check_eq_ok, bind_eq_ok]
  simp only [refuse_eq_ok, GlobalTime.parseTzifBlock_eq_ok (.inl rfl) small]
  constructor
  · rintro ⟨-, -, known, first, ⟨version, data, sound, stands, rfl⟩, later⟩
    obtain ⟨⟨block, rule⟩, blockRead, made⟩ := bind_eq_ok.mp later
    have versioned := sound.version_stands stands
    rw [zero_add] at versioned
    rw [List.getD_eq_getElem?_getD, versioned] at known blockRead
    refine ⟨version, data, ⟨sound, stands⟩, ?_, block, rule, blockRead, made⟩
    rw [not_and_or, not_not, Bool.not_eq_false] at known
    exact known
  · rintro ⟨version, data, ⟨sound, stands⟩, known, block, rule, blockRead, made⟩
    have versioned := sound.version_stands stands
    have room := stands.length_le
    rw [sound.length_bytes, TzifData.length] at room
    have first := (stands_iff_slice.mp (sound.stands_iff.mp stands).magic).2
    rw [length_magic, List.drop_zero] at first
    rw [zero_add] at versioned
    rw [List.getD_eq_getElem?_getD, versioned]
    refine ⟨?_, not_lt.mpr small, ?_, _, ⟨version, data, sound, stands, rfl⟩,
      bind_eq_ok.mpr ⟨(block, rule), blockRead, made⟩⟩
    · rw [not_or, not_lt, not_not]
      exact ⟨by omega, first⟩
    · rw [not_and_or, not_not, Bool.not_eq_false]
      exact known

theorem GlobalTime.TzifZone.parse_eq_ok (small : bytes.length ≤ maxTzifBytes) :
    GlobalTime.TzifZone.parse sort bytes = .ok zone ↔
      ∃ file : TzifFile, file.Fills bytes ∧ file.Decodes sort zone := by
  rw [parse_eq_ok_steps small]
  constructor
  · rintro ⟨version, data, ⟨sound, stands⟩, known, block, rule, blockRead, made⟩
    rcases known with rfl | extended
    · rw [GlobalTime.readBlock, if_neg (by decide)] at blockRead
      cases blockRead
      obtain ⟨⟨noLeaps, increasing, inRange⟩, same, initial, none_, agrees⟩ := (zoneOf_eq_ok sound).mp made
      exact ⟨.single data, stands, ⟨sound, noLeaps, increasing, inRange⟩, same, initial, none_, agrees⟩
    · obtain ⟨second, footer, ⟨secondSound, line⟩, ⟨behind, ended⟩, ruled, rfl⟩ :=
        (readBlock_eq_ok small extended).mp blockRead
      obtain ⟨⟨noLeaps, increasing, inRange⟩, same, initial, rfl, agrees⟩ :=
        (zoneOf_eq_ok secondSound).mp made
      refine ⟨.double version data second footer, ?_, ⟨⟨extended, sound, secondSound, line⟩, noLeaps,
        increasing, inRange⟩, same, initial, ruled, agrees⟩
      have length : (data.bytes version 4).length = data.length 4 := sound.length_bytes
      have all : Stands bytes 0 (TzifFile.double version data second footer).bytes := by
        rw [TzifFile.bytes, stands_append, zero_add, length]
        exact ⟨stands, (zero_add (data.length 4)) ▸ behind⟩
      obtain ⟨rest, same⟩ := stands_all.mp all
      have counted := congrArg List.length same
      rw [TzifFile.bytes] at counted
      simp only [List.length_append, length, secondSound.length_bytes, List.length_cons, List.length_nil]
        at counted
      change 0 + data.length 4 + second.length 8 + footer.length + 2 = bytes.length at ended
      obtain rfl := List.length_eq_zero_iff.mp (show rest.length = 0 by omega)
      rw [List.append_nil] at same
      exact same
  · rintro ⟨file, fills, ⟨sound, noLeaps, increasing, inRange⟩, same, initial, ruled, agrees⟩
    cases file with
    | single data =>
      refine ⟨0, data, ⟨sound, fills⟩, .inl rfl, data.block 0 4, none, ?_, ?_⟩
      · rw [GlobalTime.readBlock, if_neg (by decide)]
        rfl
      · exact (zoneOf_eq_ok sound).mpr ⟨⟨noLeaps, increasing, inRange⟩, same, initial, ruled, agrees⟩
    | double version first second footer =>
      obtain ⟨extended, firstSound, secondSound, line⟩ := sound
      have all : Stands bytes 0 (TzifFile.double version first second footer).bytes :=
        stands_all.mpr ⟨[], by rw [List.append_nil]; exact fills⟩
      rw [TzifFile.bytes, stands_append, firstSound.length_bytes] at all
      have counted := congrArg List.length fills
      rw [TzifFile.bytes] at counted
      simp only [List.length_append, firstSound.length_bytes, secondSound.length_bytes, List.length_cons,
        List.length_nil] at counted
      refine ⟨version, first, ⟨firstSound, all.1⟩, .inr extended, second.block (0 + first.length 4) 8,
        zone.futureRule, (readBlock_eq_ok small extended).mpr ⟨second, footer, ⟨secondSound, line⟩,
          ⟨all.2, ?_⟩, ruled, rfl⟩, (zoneOf_eq_ok secondSound).mpr ⟨⟨noLeaps, increasing, inRange⟩, same,
            initial, rfl, agrees⟩⟩
      change 0 + first.length 4 + second.length 8 + footer.length + 2 = bytes.length
      omega

end Accepted

section Offsets

variable {sort : List (ℤ × ℤ) → List (ℤ × ℤ)} {data : TzifData} {zone : GlobalTime.TzifZone} {instant : ℤ}

/-- Up to the last transition the latest one that is not later decides; before the first, the first of the
local time types. -/
structure Governs (sort : List (ℤ × ℤ) → List (ℤ × ℤ)) (zone : GlobalTime.TzifZone) (data : TzifData)
    (instant : ℤ) : Prop where
  before : (∀ transition ∈ data.transitions, instant < transition.1) →
    zone.offsetAt sort instant = some data.initialOffset
  latest : ∀ transition ∈ data.transitions, transition.1 ≤ instant →
    (∀ other ∈ data.transitions, other.1 ≤ instant → other.1 ≤ transition.1) →
      zone.offsetAt sort instant = some transition.2

theorem latestOffset_none {l : List (ℤ × ℤ)} (later : ∀ change ∈ l, instant < change.1) :
    latestOffset l instant = none := by
  rw [latestOffset, Option.map_eq_none_iff, List.find?_eq_none]
  intro change member
  have behind := later change (List.mem_reverse.mp member)
  simpa using behind

theorem times_of_transitions (same : data.indices.length = data.times.length) :
    data.transitions.map Prod.fst = data.times := by
  rw [TzifData.transitions, List.map_map]
  exact List.map_fst_zip same.ge

theorem governs (same : data.indices.length = data.times.length) (increasing : data.times.IsChain (· < ·))
    (transitions : zone.transitions = data.transitions) (initial : zone.initialOffset = data.initialOffset)
    (upTo : ∃ transition ∈ data.transitions, instant ≤ transition.1) : Governs sort zone data instant := by
  have strict : data.transitions.Pairwise (·.1 < ·.1) := by
    have ordered := List.isChain_iff_pairwise.mp increasing
    rw [← times_of_transitions same, List.pairwise_map] at ordered
    exact ordered
  have found : zone.offsetAt sort instant = some ((latestOffset data.transitions instant).getD
      data.initialOffset) := by
    obtain ⟨transition, member, inside⟩ := upTo
    rw [GlobalTime.TzifZone.offsetAt, transitions, initial]
    cases final : data.transitions.getLast? with
    | none =>
      rw [List.getLast?_eq_none_iff.mp final] at member
      cases member
    | some last =>
      obtain ⟨front, split⟩ := List.getLast?_eq_some_iff.mp final
      have inside : instant ≤ last.1 := by
        rw [split] at member strict
        rcases List.mem_append.mp member with early | final
        · have ordered := (List.pairwise_append.mp strict).2.2 transition early last List.mem_cons_self
          omega
        · rwa [List.mem_singleton.mp final] at inside
      dsimp only
      rw [if_neg (not_lt.mpr inside)]
  constructor
  · intro later
    rw [found, latestOffset_none later]
    rfl
  · intro transition member come last
    have one : ∀ other ∈ data.transitions, other.1 = transition.1 → other.2 = transition.2 := by
      intro other listed
      have symm : Std.Symm fun a b : ℤ × ℤ => a.1 = b.1 → a.2 = b.2 :=
        ⟨fun _ _ agree same => (agree same.symm).symm⟩
      have distinct : data.transitions.Pairwise fun a b => a.1 = b.1 → a.2 = b.2 :=
        strict.imp fun less same => absurd same less.ne
      exact List.Pairwise.forall_of_forall (fun _ _ _ => rfl) distinct listed member
    rw [found, latestOffset_eq (strict.imp le_of_lt) member come last one]
    rfl

end Offsets

section Exactness

variable {sort : List (ℤ × ℤ) → List (ℤ × ℤ)} {bytes : List UInt8}

structure ReadExactly (sort : List (ℤ × ℤ) → List (ℤ × ℤ)) (bytes : List UInt8) : Prop where
  /-- No index is out of range, and no number too large. -/
  total : Machine.TzifZone.parse bytes sort ≠ none
  /-- Blocks and footer are the whole of an accepted text, and say what the zone says. -/
  accepted : ∀ zone, Machine.TzifZone.parse bytes sort = some (.ok zone) →
    ∃ file : TzifFile, file.bytes = bytes ∧ file.WellFormed ∧ zone.transitions = file.used.transitions ∧
      ∀ instant, (∃ transition ∈ zone.transitions, instant ≤ transition.1) →
        Governs sort zone file.used instant
  complete : ∀ file : TzifFile, file.bytes = bytes → file.WellFormed → file.footer = [] →
    ∃ zone, Machine.TzifZone.parse bytes sort = some (.ok zone) ∧
      zone = ⟨file.used.transitions, file.used.initialOffset, none⟩

/-- A file of the first version, and more behind it. -/
def HasTrailingData (bytes : List UInt8) : Prop :=
  ∃ data rest, rest ≠ [] ∧ bytes = (TzifFile.single data).bytes ++ rest ∧ (TzifFile.single data).WellFormed

theorem TzifFile.WellFormed.length_indices {file : TzifFile} (wellFormed : file.WellFormed) :
    file.used.indices.length = file.used.times.length := by
  cases file with
  | single data => exact wellFormed.sound.indices
  | double version first second footer => exact wellFormed.sound.2.2.1.indices

theorem TzifFile.WellFormed.decodes {file : TzifFile} (wellFormed : file.WellFormed)
    (empty : file.footer = []) : file.Decodes sort ⟨file.used.transitions, file.used.initialOffset, none⟩ := by
  refine ⟨wellFormed, rfl, rfl, ?_, nofun⟩
  cases file with
  | single data => rfl
  | double version first second footer =>
    have nothing : footer = [] := empty
    change FooterRule version footer none
    rw [FooterRule, if_pos nothing]

theorem TzifData.Sound.length_unique {data data' : TzifData} {version version' : UInt8}
    (small : bytes.length ≤ maxTzifBytes) (sound : data.Sound 4) (sound' : data'.Sound 4)
    (stands : Stands bytes 0 (data.bytes version 4)) (stands' : Stands bytes 0 (data'.bytes version' 4)) :
    data.length 4 = data'.length 4 := by
  have read := (GlobalTime.parseTzifBlock_eq_ok (.inl rfl) small).mpr ⟨version, data, sound, stands, rfl⟩
  have read' := (GlobalTime.parseTzifBlock_eq_ok (.inl rfl) small).mpr ⟨version', data', sound', stands', rfl⟩
  have stop := congrArg TzifBlock.stop (Except.ok.inj (read.symm.trans read'))
  change 0 + data.length 4 = 0 + data'.length 4 at stop
  omega

theorem trailing_refuted (small : bytes.length ≤ maxTzifBytes) (trailing : HasTrailingData bytes) :
    ¬ ReadExactly sort bytes := by
  obtain ⟨data, rest, more, same, wellFormed⟩ := trailing
  intro exactly
  have stands : Stands bytes 0 (data.bytes 0 4) := stands_all.mpr ⟨rest, same⟩
  have settled := Machine.TzifZone.parse_settles sort bytes
  unfold Settles at settled
  rw [(GlobalTime.TzifZone.parse_eq_ok small).mpr ⟨.single data, stands, wellFormed.decodes rfl⟩] at settled
  obtain ⟨file, whole, wellFormed', -⟩ := exactly.accepted _ settled
  cases file with
  | single data' =>
    have stands' : Stands bytes 0 (data'.bytes 0 4) :=
      stands_all.mpr ⟨[], by rw [List.append_nil]; exact whole.symm⟩
    have length := wellFormed.sound.length_unique small wellFormed'.sound stands stands'
    have counted := congrArg List.length (whole.trans same)
    change (data'.bytes 0 4).length = (data.bytes 0 4 ++ rest).length at counted
    rw [List.length_append, wellFormed'.sound.length_bytes, wellFormed.sound.length_bytes] at counted
    exact more (List.length_eq_zero_iff.mp (by omega))
  | double version first second footer =>
    obtain ⟨extended, firstSound, -⟩ := wellFormed'.sound
    have stands' : Stands bytes 0 (first.bytes version 4) := stands_all.mpr ⟨_, whole.symm⟩
    have versioned := (wellFormed.sound.version_stands stands).symm.trans
      (firstSound.version_stands stands')
    obtain rfl := Option.some.inj versioned
    exact absurd extended (by decide)

/-- A text of at most 4 MiB is read exactly, unless it is a file of the first version and more. -/
theorem GlobalTime.TzifZone.parse_exact (sort : List (ℤ × ℤ) → List (ℤ × ℤ)) (bytes : List UInt8)
    (small : bytes.length ≤ maxTzifBytes) : ReadExactly sort bytes ↔ ¬ HasTrailingData bytes := by
  constructor
  · exact fun exact_ trailing => trailing_refuted small trailing exact_
  · intro none_
    have settled := Machine.TzifZone.parse_settles sort bytes
    unfold Settles at settled
    refine ⟨?_, ?_, ?_⟩
    · rw [settled]
      exact nofun
    · intro zone accepted
      rw [settled, Option.some.injEq, GlobalTime.TzifZone.parse_eq_ok small] at accepted
      obtain ⟨file, fills, decodes⟩ := accepted
      refine ⟨file, ?_, decodes.wellFormed, decodes.transitions, ?_⟩
      · cases file with
        | single data =>
          obtain ⟨rest, same⟩ := stands_all.mp fills
          have nothing : rest = [] := by
            by_contra more
            exact none_ ⟨data, rest, more, same, decodes.wellFormed⟩
          rw [same, nothing, List.append_nil]
          rfl
        | double version first second footer => exact fills.symm
      · intro instant upTo
        rw [decodes.transitions] at upTo
        exact governs decodes.wellFormed.length_indices decodes.wellFormed.increasing decodes.transitions
          decodes.initial upTo
    · intro file same wellFormed empty
      refine ⟨_, ?_, rfl⟩
      rw [settled, Option.some.injEq, GlobalTime.TzifZone.parse_eq_ok small]
      refine ⟨file, ?_, wellFormed.decodes empty⟩
      cases file with
      | single data => exact stands_all.mpr ⟨[], by rw [List.append_nil]; exact same.symm⟩
      | double version first second footer => exact same.symm

/-- Universal time without a transition. -/
def utcData : TzifData := ⟨List.replicate 15 0, [], [], 0, [], [], [], [⟨0, 0, 0⟩], Source.utf8 "UTC" ++ [0]⟩

theorem utc_wellFormed : (TzifFile.single utcData).WellFormed where
  sound := ⟨rfl, nofun, rfl, by decide, rfl, by decide⟩
  noLeaps := rfl
  increasing := List.isChain_nil
  inRange := nofun

theorem parse_exact_utc : ReadExactly byTime (utcData.bytes 0 4) ↔ ¬ HasTrailingData (utcData.bytes 0 4) :=
  GlobalTime.TzifZone.parse_exact byTime (utcData.bytes 0 4) (by decide +kernel)

theorem utcFollowed_taken : ¬ ReadExactly byTime (utcData.bytes 0 4 ++ [0]) :=
  trailing_refuted (by decide +kernel) ⟨utcData, [0], by decide, rfl, utc_wellFormed⟩

end Exactness

end Boreal.TimeZones
