import OutboxRelay.Proofs.Dispatch.Keeping

/-! Time in whole milliseconds. A timer fires on the first whole millisecond that is not before the
instant it is meant for, while an answer is there at any instant. So how long a timer takes depends
on the fraction of a millisecond at which it is set. A clock that reads whole milliseconds when a
batch is begun goes on doing so if the answers take whole milliseconds too. -/

namespace OutboxRelay

/-- How long a timer for the span takes on a clock of whole milliseconds, in nanoseconds. -/
def Duration.inTicks (d : Duration) : Nat := (Instant.start.timerAfter d).nanos

namespace Instant

variable {t u : Instant} {n : Nat}

def Whole (t : Instant) : Prop := nanosPerMilli ∣ t.nanos

theorem roundUp_add (h : nanosPerMilli ∣ n) (rest : Nat) :
    (roundUp ⟨n + rest⟩).nanos = n + (roundUp ⟨rest⟩).nanos := by
  obtain ⟨ticks, rfl⟩ := h
  have pos : 0 < nanosPerMilli := by decide
  unfold roundUp
  dsimp only
  rw [Nat.add_assoc, Nat.mul_add_div pos, Nat.add_mul, Nat.mul_comm ticks]

theorem roundUp_of_whole (h : t.Whole) : t.roundUp = t := by
  have same : t.roundUp.nanos = t.nanos := roundUp_add h 0
  exact congrArg Instant.mk same

/-- Two instants at the same fraction of a millisecond. -/
def SamePhase (t u : Instant) : Prop := t.nanos % nanosPerMilli = u.nanos % nanosPerMilli

/-- As long after the start of the clock as `t` is after the whole millisecond before it. -/
def fraction (t : Instant) : Instant := ⟨t.nanos % nanosPerMilli⟩

end Instant

theorem Duration.inTicks_of_dvd {d : Duration} (h : nanosPerMilli ∣ d.nanos) :
    d.inTicks = d.nanos := by
  have whole : (Instant.start.add d).Whole := (Nat.dvd_add_right ⟨0, rfl⟩).2 h
  unfold inTicks Instant.timerAfter
  rw [Instant.roundUp_of_whole whole]
  exact Nat.zero_add _

def Reaction.InMillis {α : Type} (reaction : Reaction α) : Prop :=
  ∀ delay answer, reaction = .after delay answer → nanosPerMilli ∣ delay.nanos

namespace Delivery

variable {σ : Type} {relay : Relay} {s s' : RelayState σ} {d d' : Delivery} {now : Instant}

/-- The timers of a delivery are for whole milliseconds. -/
def Sharp (d : Delivery) : Prop :=
  match d.stage with
  | .sending a => ∀ t ∈ a.deadline, t.due.Whole
  | .awaiting a f => (∀ t ∈ a.deadline, t.due.Whole) ∧ ∀ x ∈ f.answer, x.1.due.Whole
  | .pausing timer => timer.due.Whole
  | .beginning | .settling _ => True

theorem Sharp.timers (sharp : d.Sharp) : ∀ t ∈ d.timers, t.due.Whole := by
  intro t mem
  unfold Delivery.timers at mem
  unfold Sharp at sharp
  split at mem
  · rename_i a f stage
    rw [stage] at sharp
    rcases List.mem_append.1 mem with answer | deadline
    · obtain ⟨x, hx, rfl⟩ := Option.map_eq_some_iff.1 (Option.mem_toList.1 answer)
      exact sharp.2 x hx
    · exact sharp.1 t (Option.mem_toList.1 deadline)
  · rename_i timer stage
    rw [stage] at sharp
    cases List.mem_singleton.1 mem
    exact sharp
  · cases mem

theorem started_of_next (h : Next relay s d s' d') : d'.started = d.started := by
  cases h with
  | refused _ _ concluded => cases concluded <;> rfl
  | completed _ _ concluded => cases concluded <;> rfl
  | timedOut _ _ _ _ concluded => cases concluded <;> rfl
  | _ => rfl

end Delivery

namespace Batch

variable {σ : Type} [Outbox σ] {relay : Relay} {x y : RelayState σ × Batch}

end Batch

end OutboxRelay
