import OutboxRelay.Journal
import OutboxRelay.PublishError

/-! Bounded retry with a delay that doubles from attempt to attempt up to a limit. -/

namespace OutboxRelay

structure RetryPolicy where
  /-- Attempts in all; zero counts as one. -/
  maxAttempts : UInt32
  baseDelay : Duration
  maxDelay : Duration
deriving DecidableEq

namespace RetryPolicy

def standard : RetryPolicy := ⟨3, .ofMillis 200, .ofSecs 2⟩

def once : RetryPolicy := ⟨1, .zero, .zero⟩

/-- The power of two for the delay after an attempt. It is a 32-bit word: from attempt 33 on it
stays at the largest of them. -/
def factor (attempt : UInt32) : Nat :=
  let shift := attempt.toNat - 1
  if shift < 32 then Nat.pow 2 shift else Nat.pow 2 32 - 1

def delayAfter (p : RetryPolicy) (attempt : UInt32) : Duration :=
  (p.baseDelay.times (factor attempt)).atMost p.maxDelay

def attemptLimit (p : RetryPolicy) : UInt32 := if p.maxAttempts = 0 then 1 else p.maxAttempts

inductive Decision (α : Type)
  | finish (result : Except PublishError α)
  | retry (attempt : UInt32) (delay : Duration) (entry : JournalEntry)

def backoffEntry (attempt limit : UInt32) (delay : Duration) (e : PublishError) : JournalEntry :=
  ⟨.debug, "transient failure, backing off",
    [("attempt", toString attempt.toNat), ("max_attempts", toString limit.toNat),
     ("delay_ms", toString delay.millisField), ("error", e.message)]⟩

/-- A transient error short of the limit is followed by another attempt, all else is final. -/
def decide {α : Type} (p : RetryPolicy) (attempt : UInt32) (result : Except PublishError α) :
    Decision α :=
  match result with
  | .ok value => .finish (.ok value)
  | .error e =>
    if attempt < p.attemptLimit ∧ e.isTransient then
      let delay := p.delayAfter attempt
      .retry (attempt + 1) delay (backoffEntry attempt p.attemptLimit delay e)
    else .finish (.error e)

theorem lt_attemptLimit_of_decide_retry {α : Type} {p : RetryPolicy} {attempt next : UInt32}
    {result : Except PublishError α} {delay : Duration} {entry : JournalEntry}
    (h : p.decide attempt result = .retry next delay entry) :
    attempt < p.attemptLimit ∧ next = attempt + 1 := by
  unfold decide at h
  split at h
  · cases h
  · split at h
    · next hc => cases h; exact ⟨hc.1, rfl⟩
    · cases h

theorem attemptLimit_pos (p : RetryPolicy) : 0 < p.attemptLimit.toNat := by
  unfold attemptLimit
  split
  · decide
  · next some => exact Nat.pos_of_ne_zero fun none => some (UInt32.toNat_inj.1 none)

theorem toNat_succ {p : RetryPolicy} {attempt : UInt32} (h : attempt < p.attemptLimit) :
    (attempt + 1).toNat = attempt.toNat + 1 := by
  have lt : attempt.toNat < p.attemptLimit.toNat := UInt32.lt_iff_toNat_lt.1 h
  have limit := p.attemptLimit.toNat_lt
  rw [UInt32.toNat_add]
  exact Nat.mod_eq_of_lt (by simp; omega)

/-- Attempts from number `attempt` on, at most `budget` more than that one. `op` makes an attempt
and `pause` waits; both work on a state of the caller's. -/
def runFrom {α σ : Type} (p : RetryPolicy) (op : UInt32 → σ → Except PublishError α × σ)
    (pause : JournalEntry → Duration → σ → σ) :
    (budget : Nat) → (attempt : UInt32) → σ → Except PublishError α × σ
  | 0, attempt, s => op attempt s
  | budget + 1, attempt, s =>
    let (result, s) := op attempt s
    match p.decide attempt result with
    | .finish result => (result, s)
    | .retry next delay entry => runFrom p op pause budget next (pause entry delay s)

def run {α σ : Type} (p : RetryPolicy) (op : UInt32 → σ → Except PublishError α × σ)
    (pause : JournalEntry → Duration → σ → σ) (s : σ) : Except PublishError α × σ :=
  runFrom p op pause (p.attemptLimit.toNat - 1) 1 s

end RetryPolicy

end OutboxRelay
