import Mathlib.Data.List.Induction
import OutboxRelay.Proofs.Breaker.Run

/-! What a circuit breaker remembers of its calls is one number: the failures since the last
success. The circuit is closed as long as they are fewer than the limit. A late failure of a call
that was admitted before the circuit opened is a failure too, but the counter stops at the limit.
Calls that are rejected or dropped leave the number alone. -/

namespace OutboxRelay

/-- The failures that open a circuit. A threshold of zero acts as one. -/
def BreakerConfig.limit (c : BreakerConfig) : Nat := max 1 c.failureThreshold.toNat

theorem BreakerConfig.limit_pos (c : BreakerConfig) : 0 < c.limit := Nat.le_max_left ..

theorem BreakerConfig.limit_lt (c : BreakerConfig) : c.limit < UInt32.size :=
  Nat.max_lt.2 ⟨by decide, c.failureThreshold.toNat_lt⟩

namespace Breaker

def isFailure : Except PublishError Unit → Bool
  | .ok _ => false
  | .error _ => true

/-- The failures since the last success, or of all outcomes if there was none. -/
def failuresInARow (outcomes : List (Except PublishError Unit)) : Nat :=
  (outcomes.reverse.takeWhile isFailure).length

section FailuresInARow

variable (outcomes : List (Except PublishError Unit))

theorem failuresInARow_ok (value : Unit) : failuresInARow (outcomes ++ [.ok value]) = 0 := by
  simp [failuresInARow, isFailure]

theorem failuresInARow_error (e : PublishError) :
    failuresInARow (outcomes ++ [.error e]) = failuresInARow outcomes + 1 := by
  unfold failuresInARow
  rw [List.reverse_concat, List.takeWhile_cons_of_pos rfl, List.length_cons]

end FailuresInARow

/-- The breaker is as so many failures in a row leave it. -/
structure Tallies (c : BreakerConfig) (b : Breaker) (failures : Nat) : Prop where
  closed_iff : b.circuit = .closed ↔ failures < c.limit
  counted : b.circuit = .closed → b.consecutiveFailures.toNat = failures
  bounded : b.consecutiveFailures.toNat ≤ c.limit
  stamped : b.circuit ≠ .closed → b.openedAt.isSome

theorem tallies_initial (c : BreakerConfig) : Tallies c initial 0 :=
  ⟨iff_of_true rfl c.limit_pos, fun _ => rfl, Nat.zero_le _, fun opened => absurd rfl opened⟩

namespace Tallies

variable {c : BreakerConfig} {b b' : Breaker} {failures : Nat}

theorem next_toNat (h : Tallies c b failures) (closed : b.circuit = .closed) :
    (b.consecutiveFailures + 1).toNat = failures + 1 := by
  have few := h.closed_iff.1 closed
  have limit := c.limit_lt
  rw [UInt32.toNat_add, h.counted closed]
  exact Nat.mod_eq_of_lt (show failures + 1 < UInt32.size by omega)

theorem enough (h : Tallies c b failures) (shut : b.circuit ≠ .closed) : c.limit ≤ failures :=
  Nat.le_of_not_lt (mt h.closed_iff.2 shut)

theorem request (h : Tallies c b failures) {now : Instant} {journal : Journal}
    (admits : b.request c now = .admitted b' journal) : Tallies c b' failures := by
  unfold Breaker.request at admits
  split at admits
  · cases admits
    exact h
  · cases admits
  · rename_i opened
    split at admits
    · cases admits
      have shut : b.circuit ≠ .closed := by rw [opened]; exact nofun
      have many := h.enough shut
      exact ⟨iff_of_false nofun (Nat.not_lt.2 many), nofun, h.bounded, fun _ => h.stamped shut⟩
    · cases admits

theorem fail (h : Tallies c b failures) (now : Instant) :
    Tallies c (b.fail c now).1 (failures + 1) := by
  unfold Breaker.fail
  split
  · rename_i half
    have many := h.enough (by rw [half]; exact nofun)
    exact ⟨iff_of_false nofun (by omega), nofun, h.bounded, fun _ => rfl⟩
  · rename_i closed
    have few := h.closed_iff.1 closed
    have next := h.next_toNat closed
    have bounded : (b.consecutiveFailures + 1).toNat ≤ c.limit := by omega
    have reached : c.failureThreshold ≤ b.consecutiveFailures + 1 ↔ c.limit ≤ failures + 1 := by
      rw [UInt32.le_iff_toNat_le, next, BreakerConfig.limit]
      omega
    dsimp only
    split
    · rename_i enough
      have many := reached.1 enough
      exact ⟨iff_of_false nofun (by omega), nofun, bounded, fun _ => rfl⟩
    · rename_i short
      have fewer := mt reached.2 short
      exact ⟨iff_of_true closed (by omega), fun _ => next, bounded,
        fun opened => absurd closed opened⟩
  · rename_i opened
    have shut : b.circuit ≠ .closed := by rw [opened]; exact nofun
    have many := h.enough shut
    exact ⟨iff_of_false shut (by omega), fun closed => absurd closed shut, h.bounded, h.stamped⟩

theorem abandon (h : Tallies c b failures) (now : Instant) :
    Tallies c (b.abandon now) failures := by
  unfold Breaker.abandon
  split
  · rename_i half
    have many := h.enough (by rw [half]; exact nofun)
    exact ⟨iff_of_false nofun (Nat.not_lt.2 many), nofun, h.bounded, fun _ => rfl⟩
  · exact h

theorem settle {outcomes : List (Except PublishError Unit)}
    (h : Tallies c b (failuresInARow outcomes)) (now : Instant)
    (result : Except PublishError Unit) :
    Tallies c (b.settle c now result).1 (failuresInARow (outcomes ++ [result])) := by
  cases result with
  | ok value =>
    rw [failuresInARow_ok]
    exact tallies_initial c
  | error e =>
    rw [failuresInARow_error]
    exact h.fail now

end Tallies

def Response.outcomes : Response → List (Except PublishError Unit)
  | .ended outcome => [outcome]
  | .pending | .rejected | .none => []

namespace Session

variable {ι : Type} [DecidableEq ι]

def recorded (s : Session ι) : List (Action ι) → List (Except PublishError Unit)
  | [] => []
  | a :: rest => (s.step a).2.outcomes ++ (s.step a).1.recorded rest

theorem tallies_step {s : Session ι} {past : List (Except PublishError Unit)}
    (h : Tallies s.config s.breaker (failuresInARow past)) (a : Action ι) :
    Tallies s.config (s.step a).1.breaker (failuresInARow (past ++ (s.step a).2.outcomes)) := by
  have nothing : past ++ [] = past := List.append_nil past
  cases a with
  | begin id =>
    simp only [step]
    split
    · rw [Response.outcomes, nothing]
      exact h
    · rename_i breaker journal admits
      rw [Response.outcomes, nothing]
      exact h.request admits
  | finish id outcome =>
    simp only [step]
    split
    · exact h.settle s.now outcome
    · rw [Response.outcomes, nothing]
      exact h
  | drop id =>
    simp only [step]
    split
    · rw [Response.outcomes, nothing]
      exact h.abandon s.now
    · rw [Response.outcomes, nothing]
      exact h
  | advance nanos =>
    rw [step, Response.outcomes, nothing]
    exact h

theorem tallies_run {s : Session ι} {past : List (Except PublishError Unit)}
    (h : Tallies s.config s.breaker (failuresInARow past)) (run : List (Action ι)) :
    Tallies s.config (s.run run).breaker (failuresInARow (past ++ s.recorded run)) := by
  induction run generalizing s past with
  | nil =>
    rw [recorded, List.append_nil]
    exact h
  | cons a rest ih =>
    have first := tallies_step h a
    rw [← config_step s a] at first ⊢
    rw [recorded, ← List.append_assoc]
    exact ih first

/-- However calls overlap, the circuit is closed as long as the failures since the last success are
fewer than the limit, its counter is their number and has room for the next one, and a circuit that
is not closed knows when it was opened. -/
theorem run_tallies (config : BreakerConfig) (run : List (Action ι)) :
    Tallies config ((start config).run run).breaker
        (failuresInARow ((start config).recorded run)) ∧
      (((start config).run run).breaker.circuit = .closed →
        (((start config).run run).breaker.consecutiveFailures + 1).toNat =
          ((start config).run run).breaker.consecutiveFailures.toNat + 1) := by
  have begun : Tallies (start config : Session ι).config (start config : Session ι).breaker
      (failuresInARow []) := tallies_initial config
  have tallies : Tallies config ((start config).run run).breaker
      (failuresInARow ((start config).recorded run)) := tallies_run begun run
  refine ⟨tallies, fun closed => ?_⟩
  rw [tallies.next_toNat closed, tallies.counted closed]

end Session

end Breaker

end OutboxRelay
