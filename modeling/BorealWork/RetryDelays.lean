/- The delay before a retry: the arithmetic of 64 bits against the law of doubling. -/
import BorealWork.TimePolicy

namespace Boreal.TimePolicy
open Drain

section Code

def defaultRetryBaseDelayMs : UInt64 := 1000

def defaultRetryMaxDelayMs : UInt64 := 60 * 60 * 1000

def defaultMaxRetries : UInt32 := 8

namespace RetryPolicy

/-- The constructor takes any bounds; they are compared when a delay is asked for. -/
def bounded (baseDelayMs maxDelayMs : UInt64) (maxRetries : UInt32) : RetryPolicy :=
  ⟨baseDelayMs.toNat, maxDelayMs.toNat, maxRetries.toNat⟩

def default : RetryPolicy := bounded defaultRetryBaseDelayMs defaultRetryMaxDelayMs defaultMaxRetries

end RetryPolicy

/-- A shift of 64 bits, by less than the width. -/
def checkedShl (value shift : ℕ) : Option ℕ :=
  if shift < 64 then some ((value <<< shift) % 2 ^ 64) else none

def saturatingMul (a b : ℕ) : ℕ := min (a * b) (2 ^ 64 - 1)

namespace RetryPolicy

variable (policy : RetryPolicy)

def delayFor (retryIndex : ℕ) : Except TimePolicyError ℕ := do
  policy.validate
  let shift := min retryIndex 63
  let multiplier ← (checkedShl 1 shift).elim (.error .backoffOverflow) .ok
  let uncapped := saturatingMul policy.baseDelayMs multiplier
  return min uncapped policy.maxDelayMs

def retryNotBefore (failedAt : TimestampMs) (retryIndex : ℕ) : Except TimePolicyError TimestampMs := do
  let delay ← policy.delayFor retryIndex
  addTimestamp failedAt delay

example : (default.delayFor 4).toOption = some 16000 ∧ (default.delayFor 40).toOption = some 3600000 := by
  decide +kernel

end RetryPolicy

end Code

section Delays

variable {policy : RetryPolicy} {index later delay delay' : ℕ}

theorem RetryPolicy.validate_eq_ok : policy.validate = .ok () ↔ policy.baseDelayMs ≤ policy.maxDelayMs := by
  rw [RetryPolicy.validate]
  split
  · rename_i inverted
    exact iff_of_false nofun inverted.not_ge
  · rename_i ordered
    exact iff_of_true rfl (not_lt.mp ordered)

theorem checkedShl_one : checkedShl 1 (min index 63) = some (2 ^ min index 63) := by
  have within : min index 63 < 64 := by omega
  have fits : 2 ^ min index 63 < 2 ^ 64 := Nat.pow_lt_pow_right (by decide) within
  rw [checkedShl, if_pos within, Nat.shiftLeft_eq, one_mul, Nat.mod_eq_of_lt fits]

theorem RetryPolicy.delayFor_eq_ok : policy.delayFor index = .ok delay ↔
    policy.baseDelayMs ≤ policy.maxDelayMs ∧
      delay = min (saturatingMul policy.baseDelayMs (2 ^ min index 63)) policy.maxDelayMs := by
  rw [RetryPolicy.delayFor, check_eq_ok, RetryPolicy.validate_eq_ok]
  dsimp only
  rw [checkedShl_one]
  refine and_congr_right fun _ => ?_
  constructor
  · intro done
    exact (Except.ok.inj done).symm
  · intro same
    exact congrArg Except.ok same.symm

theorem saturated_eq_iff {base most : ℕ} (ordered : base ≤ most) (fits : most < 2 ^ 64) :
    min (saturatingMul base (2 ^ min index 63)) most = min (base * 2 ^ index) most ↔
      ¬ (base = 1 ∧ 64 ≤ index ∧ 2 ^ 63 < most) := by
  rw [saturatingMul]
  by_cases small : index ≤ 63
  · rw [min_eq_left small]
    refine iff_of_true ?_ (by omega)
    omega
  · have width : 64 ≤ index := by omega
    have grown : 2 ^ 64 ≤ 2 ^ index := Nat.pow_le_pow_right (by decide) width
    rw [min_eq_right (by omega : 63 ≤ index)]
    rcases Nat.lt_or_ge base 2 with low | high
    · interval_cases base
      · simp
      · rw [one_mul, one_mul]
        omega
    · have reached : most ≤ base * 2 ^ index := by
        calc most ≤ 2 ^ 64 := fits.le
          _ ≤ 2 ^ index := grown
          _ ≤ base * 2 ^ index := Nat.le_mul_of_pos_left _ (by omega)
      refine iff_of_true ?_ (by omega)
      rw [min_eq_right reached]
      omega

theorem RetryPolicy.delayFor_le (done : policy.delayFor index = .ok delay) : delay ≤ policy.maxDelayMs := by
  obtain ⟨-, rfl⟩ := RetryPolicy.delayFor_eq_ok.mp done
  exact min_le_right _ _

theorem RetryPolicy.delayFor_mono (le : index ≤ later) (done : policy.delayFor index = .ok delay)
    (done' : policy.delayFor later = .ok delay') : delay ≤ delay' := by
  obtain ⟨-, rfl⟩ := RetryPolicy.delayFor_eq_ok.mp done
  obtain ⟨-, rfl⟩ := RetryPolicy.delayFor_eq_ok.mp done'
  have grows : 2 ^ min index 63 ≤ 2 ^ min later 63 :=
    Nat.pow_le_pow_right (by decide) (min_le_min_right 63 le)
  exact min_le_min_right _ (min_le_min_right _ (Nat.mul_le_mul_left _ grows))

/-- The delay doubles exactly, short of its bound, for every policy with ordered bounds and every index
but those from the width on where the base is one and the bound beyond the last multiplier; it is never
above its bound, and it does not fall. -/
theorem delayFor_doubles_iff (baseDelayMs maxDelayMs : UInt64) (maxRetries : UInt32) (index : ℕ) :
    ((RetryPolicy.bounded baseDelayMs maxDelayMs maxRetries).delayFor index =
        .ok (min (baseDelayMs.toNat * 2 ^ index) maxDelayMs.toNat) ↔
      (RetryPolicy.bounded baseDelayMs maxDelayMs maxRetries).validate = .ok () ∧
        ¬ (baseDelayMs = 1 ∧ 64 ≤ index ∧ 2 ^ 63 < maxDelayMs.toNat)) ∧
    ∀ delay, (RetryPolicy.bounded baseDelayMs maxDelayMs maxRetries).delayFor index = .ok delay →
      delay ≤ maxDelayMs.toNat ∧ ∀ later delay', index ≤ later →
        (RetryPolicy.bounded baseDelayMs maxDelayMs maxRetries).delayFor later = .ok delay' →
          delay ≤ delay' := by
  have one : baseDelayMs = 1 ↔ baseDelayMs.toNat = 1 := UInt64.toNat_inj.symm
  refine ⟨?_, fun delay done => ⟨RetryPolicy.delayFor_le done, fun later delay' le done' =>
    RetryPolicy.delayFor_mono le done done'⟩⟩
  rw [RetryPolicy.delayFor_eq_ok, RetryPolicy.validate_eq_ok, one]
  refine and_congr_right fun ordered => ?_
  exact eq_comm.trans (saturated_eq_iff ordered maxDelayMs.toNat_lt)

theorem delayFor_stalls :
    (RetryPolicy.bounded 1 (2 ^ 64 - 1) 100).validate = .ok () ∧
      (RetryPolicy.bounded 1 (2 ^ 64 - 1) 100).delayFor 64 = .ok (2 ^ 63) ∧
      (RetryPolicy.bounded 1 (2 ^ 64 - 1) 100).delayFor 64 ≠
        .ok (min (1 * 2 ^ 64) (2 ^ 64 - 1 : UInt64).toNat) := by
  decide +kernel

end Delays

end Boreal.TimePolicy
