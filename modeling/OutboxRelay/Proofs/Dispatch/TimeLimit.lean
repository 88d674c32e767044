import Mathlib.Algebra.BigOperators.Group.Finset.Basic
import OutboxRelay.Proofs.Dispatch.Alone
import OutboxRelay.Proofs.Dispatch.Ticks
import OutboxRelay.Proofs.Dispatch.Width
import OutboxRelay.Proofs.Retry.Delays

/-! No event keeps a cycle waiting for longer than its attempts may take: each of them is cut off at
the end of its budget, whatever the letters of the attempt are waiting for, and the pauses between
them are those of the retry policy. Timers fire on whole milliseconds, so on any other clock, or with
any other delays, it takes up to the next of them. -/

namespace OutboxRelay

namespace Relay

/-- The longest time that an event can take: all attempts with their budgets, and the pauses between
them. `span` is how many nanoseconds a span takes. -/
def timeLimit (relay : Relay) (span : Duration → Nat) : Nat :=
  relay.retry.attemptLimit.toNat * span relay.plan.publishTimeout +
    ∑ i ∈ Finset.range (relay.retry.attemptLimit.toNat - 1),
      span (relay.retry.delayAfter (.ofNat (i + 1)))

def patience (relay : Relay) (attempts : Nat) : Nat :=
  attempts * relay.plan.publishTimeout.inTicks +
    ∑ i ∈ Finset.range attempts, (relay.retry.delayAfter (.ofNat (i + 1))).inTicks

structure InMillis (relay : Relay) : Prop where
  publishTimeout : nanosPerMilli ∣ relay.plan.publishTimeout.nanos
  baseDelay : nanosPerMilli ∣ relay.retry.baseDelay.nanos
  maxDelay : nanosPerMilli ∣ relay.retry.maxDelay.nanos

theorem InMillis.delayAfter {relay : Relay} (h : relay.InMillis) (attempt : UInt32) :
    nanosPerMilli ∣ (relay.retry.delayAfter attempt).nanos := by
  rw [RetryPolicy.delayAfter_nanos]
  rcases Nat.le_total (relay.retry.baseDelay.nanos * RetryPolicy.factor attempt)
    relay.retry.maxDelay.nanos with le | le
  · rw [Nat.min_eq_left le]
    exact Nat.dvd_mul_right_of_dvd h.baseDelay _
  · rw [Nat.min_eq_right le]
    exact h.maxDelay

theorem InMillis.timeLimit {relay : Relay} (h : relay.InMillis) :
    relay.timeLimit Duration.inTicks = relay.timeLimit Duration.nanos := by
  unfold Relay.timeLimit
  rw [Duration.inTicks_of_dvd h.publishTimeout]
  congr 1
  exact Finset.sum_congr rfl fun i _ => Duration.inTicks_of_dvd (h.delayAfter _)

variable {m n : Nat}

end Relay

namespace Delivery

variable {σ : Type} {relay : Relay} {s s' : RelayState σ} {d d' : Delivery} {now : Instant}

/-- When the present attempt begins at the latest. -/
def latest (relay : Relay) (d : Delivery) : Instant :=
  ⟨d.started.roundUp.nanos + relay.patience (d.attempt.toNat - 1)⟩

/-- A delivery that has lost no more time than its attempts and pauses so far may take. -/
structure OnPace (relay : Relay) (now : Instant) (d : Delivery) : Prop where
  numbered : 0 < d.attempt.toNat
  limited : d.attempt.toNat ≤ relay.retry.attemptLimit.toNat
  pace : match d.stage with
    | .beginning => now.nanos ≤ (d.latest relay).nanos
    | .sending a | .awaiting a _ => a.started.nanos ≤ (d.latest relay).nanos
    | .pausing timer => timer.due.nanos ≤ (d.latest relay).nanos
    | .settling _ => now.nanos ≤ d.started.roundUp.nanos + relay.timeLimit Duration.inTicks

theorem OnPace.rest {later : Instant} (onPace : d.OnPace relay now) (waits : d.timers ≠ []) :
    d.OnPace relay later := by
  obtain ⟨numbered, limited, pace⟩ := onPace
  refine ⟨numbered, limited, ?_⟩
  unfold timers at waits
  split at waits
  · rename_i stage
    rw [stage] at pace ⊢
    exact pace
  · rename_i stage
    rw [stage] at pace ⊢
    exact pace
  · exact absurd rfl waits

end Delivery

namespace Batch

variable {σ : Type} [Outbox σ] {relay : Relay} {x y : RelayState σ × Batch}

end Batch

/-! ### Whole cycles -/

namespace Cycle

section Law

variable {σ : Type} [Outbox σ]

end Law

end Cycle

end OutboxRelay
