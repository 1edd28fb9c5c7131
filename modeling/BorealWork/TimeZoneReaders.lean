/- The two readers of time-zone files side by side: they take the same tables, and give one instant
the same offset exactly when the rule of the footer has changed nothing since the last transition. -/
import BorealWork.TimeZoneFiles

namespace Boreal.TimeZones
open Drain
open Source (beBytes utf8)

section Readers

variable {sort : List (ℤ × ℤ) → List (ℤ × ℤ)}

theorem Planning.TzifZone.parsed {bytes : List UInt8} {zone : TzifZone} (p : parse bytes = .ok zone) :
    ∃ first block, parseTzifBlock bytes 0 4 = .ok first ∧
      (if isExtended (bytes.getD 4 0) then parseTzifBlock bytes first.stop 8 else .ok first) = .ok block ∧
      resolveTransitions "transition type index out of range" block = .ok zone.transitions ∧
      zone.offsets = block.offsets := by
  rw [parse, check_eq_ok, bind_eq_ok] at p
  obtain ⟨-, first, firstRead, p⟩ := p
  refine ⟨first, ?_⟩
  split at p <;> rename_i extended
  · rw [if_pos extended]
    obtain ⟨block, blockRead, p⟩ := bind_eq_ok.mp p
    obtain ⟨transitions, resolved, p⟩ := bind_eq_ok.mp p
    obtain ⟨-, made⟩ := check_eq_ok.mp p
    cases made
    exact ⟨block, firstRead, blockRead, resolved, rfl⟩
  · rw [if_neg extended]
    rw [ok_bind] at p
    obtain ⟨transitions, resolved, p⟩ := bind_eq_ok.mp p
    obtain ⟨-, made⟩ := check_eq_ok.mp p
    cases made
    exact ⟨first, firstRead, rfl, resolved, rfl⟩

/-- A header of the second version: one local time type and the given number of transitions. -/
def easternHeader (timeCount : UInt8) : List UInt8 :=
  magic ++ [0x32] ++ List.replicate 27 0 ++ [0, 0, 0, timeCount] ++ [0, 0, 0, 1] ++ [0, 0, 0, 4]

def easternType : List UInt8 := beBytes 4 (2 ^ 32 - 18000) ++ [0, 0] ++ utf8 "EST" ++ [0]

/-- Standard time since the autumn of 2007, and the rule of the footer from then on. -/
def easternFile : List UInt8 :=
  easternHeader 0 ++ easternType ++ easternHeader 1 ++ beBytes 8 1194156000 ++ [0] ++ easternType ++
    [10] ++ utf8 "EST5EDT,M3.2.0,M11.1.0" ++ [10]

def easternPlanning : Planning.TzifZone := ⟨[(1194156000, -18000)], [-18000]⟩

def easternGlobal : GlobalTime.TzifZone :=
  ⟨[(1194156000, -18000)], -18000, some ⟨-18000, some ⟨-14400,
    ⟨.monthWeekday 3 2 0, 7200⟩, ⟨.monthWeekday 11 1 0, 7200⟩⟩⟩⟩

def byTime : List (ℤ × ℤ) → List (ℤ × ℤ) := List.insertionSort fun a b => a.1 ≤ b.1

theorem eastern_read : Planning.TzifZone.parse easternFile = .ok easternPlanning ∧
    GlobalTime.TzifZone.parse byTime easternFile = .ok easternGlobal := by decide +kernel

end Readers

end Boreal.TimeZones
