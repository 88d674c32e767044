import Mathlib.Algebra.Group.Nat.Defs
import OutboxRelay.Retry

/-! The delays of a retry policy, in exact arithmetic. They are the base delay, twice, four times the
base delay and so on up to the limit, as long as the factor fits into the word it is kept in: after
attempt 32 it grows no more, and a base delay that is small beside the limit never reaches it. -/

namespace OutboxRelay

theorem Duration.times_atMost_nanos (d : Duration) (factor : Nat) (limit : Duration) :
    ((d.times factor).atMost limit).nanos = min (d.nanos * factor) limit.nanos := by
  rw [atMost_nanos, times, ofNanos_nanos, Nat.min_assoc, Nat.min_eq_right limit.le_longest]

namespace RetryPolicy

variable (p : RetryPolicy)

theorem factor_eq (attempt : UInt32) :
    factor attempt = min (2 ^ (attempt.toNat - 1)) (2 ^ 32 - 1) := by
  unfold factor
  dsimp only
  split
  · rename_i fits
    have small : 2 ^ (attempt.toNat - 1) < 2 ^ 32 := Nat.pow_lt_pow_right (by decide) fits
    exact (Nat.min_eq_left (Nat.le_sub_one_of_lt small)).symm
  · rename_i large
    have full : 2 ^ 32 ≤ 2 ^ (attempt.toNat - 1) :=
      Nat.pow_le_pow_right (by decide) (Nat.le_of_not_lt large)
    exact (Nat.min_eq_right (Nat.le_trans (Nat.sub_le _ 1) full)).symm

theorem factor_mono {attempt later : UInt32} (le : attempt ≤ later) :
    factor attempt ≤ factor later := by
  rw [factor_eq, factor_eq]
  have exponent : attempt.toNat - 1 ≤ later.toNat - 1 :=
    Nat.sub_le_sub_right (UInt32.le_iff_toNat_le.1 le) 1
  have power : 2 ^ (attempt.toNat - 1) ≤ 2 ^ (later.toNat - 1) :=
    Nat.pow_le_pow_right (by decide) exponent
  omega

theorem delayAfter_nanos (attempt : UInt32) :
    (p.delayAfter attempt).nanos = min (p.baseDelay.nanos * factor attempt) p.maxDelay.nanos :=
  Duration.times_atMost_nanos ..

theorem delayAfter_le (attempt : UInt32) : (p.delayAfter attempt).nanos ≤ p.maxDelay.nanos := by
  rw [delayAfter_nanos]
  exact Nat.min_le_right ..

theorem delayAfter_mono {attempt later : UInt32} (le : attempt ≤ later) :
    (p.delayAfter attempt).nanos ≤ (p.delayAfter later).nanos := by
  have grown := Nat.mul_le_mul_left p.baseDelay.nanos (factor_mono le)
  rw [delayAfter_nanos, delayAfter_nanos]
  omega

theorem min_mul_eq_iff {base limit small large : Nat} (lt : small < large) :
    min (base * small) limit = min (base * large) limit ↔ base = 0 ∨ limit ≤ base * small := by
  constructor
  · intro same
    rcases Nat.eq_zero_or_pos base with none | some
    · exact .inl none
    · have more : base * small < base * large := Nat.mul_lt_mul_of_pos_left lt some
      exact .inr (by omega)
  · rintro (none | reached)
    · rw [none, Nat.zero_mul, Nat.zero_mul]
    · have more : base * small ≤ base * large := Nat.mul_le_mul_left base (Nat.le_of_lt lt)
      omega

/-- The delays double from the base delay up to the limit, except that the doubling ends with the
32-bit word: after attempt 32 the delay is the exact one only if the limit is reached by then. The
delays never decrease and never exceed the limit. -/
theorem delayAfter_doubles_iff (attempt : UInt32) :
    (p.delayAfter attempt).nanos =
        min (p.baseDelay.nanos * min (2 ^ (attempt.toNat - 1)) (2 ^ 32 - 1)) p.maxDelay.nanos ∧
      ((p.delayAfter attempt).nanos =
          min (p.baseDelay.nanos * 2 ^ (attempt.toNat - 1)) p.maxDelay.nanos ↔
        attempt.toNat ≤ 32 ∨ p.baseDelay.nanos = 0 ∨
          p.maxDelay.nanos ≤ p.baseDelay.nanos * (2 ^ 32 - 1)) ∧
      (∀ later, attempt ≤ later → (p.delayAfter attempt).nanos ≤ (p.delayAfter later).nanos) ∧
      (p.delayAfter attempt).nanos ≤ p.maxDelay.nanos := by
  refine ⟨?_, ?_, fun later => p.delayAfter_mono, p.delayAfter_le attempt⟩
  · rw [delayAfter_nanos, factor_eq]
  · rw [delayAfter_nanos, factor_eq]
    rcases Nat.lt_or_ge 32 attempt.toNat with late | early
    · have full : 2 ^ 32 ≤ 2 ^ (attempt.toNat - 1) :=
        Nat.pow_le_pow_right (by decide) (Nat.le_sub_one_of_lt late)
      rw [Nat.min_eq_right (Nat.le_trans (Nat.sub_le _ 1) full),
        min_mul_eq_iff (Nat.lt_of_lt_of_le (by decide) full)]
      exact (or_iff_right (Nat.not_le_of_lt late)).symm
    · have small : 2 ^ (attempt.toNat - 1) ≤ 2 ^ 31 :=
        Nat.pow_le_pow_right (by decide) (Nat.sub_le_sub_right early 1)
      rw [Nat.min_eq_left (Nat.le_trans small (by decide))]
      exact iff_of_true rfl (.inl early)

def patient : RetryPolicy := ⟨40, .ofMillis 1, .ofMillis 5000000000⟩

/-- The delay after attempt 33 is one base delay short of twice the delay before it. -/
theorem patient_stops_doubling : (patient.delayAfter 33).nanos ≠
    min (patient.baseDelay.nanos * 2 ^ (33 - 1)) patient.maxDelay.nanos := by
  decide

end RetryPolicy

end OutboxRelay
