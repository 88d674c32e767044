import Mathlib.Data.Seq.Defs
import Mathlib.Order.Bounds.Defs
import OutboxRelay.Retry

/-! Which attempt of a retry policy is the last one: that which uses up the limit, or the first that
comes to anything but a transient failure. Attempts are numbered from one without a gap, each but the
last is followed by its own pause, and the outcome of the last one is the outcome of the whole run.
How long attempts and pauses take is not followed here. -/

namespace OutboxRelay.RetryPolicy

variable {α σ : Type} {p : RetryPolicy} {attempt : UInt32}

theorem attemptLimit_toNat (p : RetryPolicy) :
    p.attemptLimit.toNat = max 1 p.maxAttempts.toNat := by
  unfold attemptLimit
  split
  · rename_i none
    rw [none]
    rfl
  · rename_i some
    have pos : p.maxAttempts.toNat ≠ 0 := fun none => some (UInt32.toNat_inj.1 none)
    omega

/-! ### One attempt -/

theorem decide_of_limit (last : attempt.toNat = p.attemptLimit.toNat)
    (result : Except PublishError α) : p.decide attempt result = .finish result := by
  have exhausted : ¬ attempt < p.attemptLimit := by
    rw [UInt32.lt_iff_toNat_lt, last]
    exact Nat.lt_irrefl _
  cases result with
  | ok value => rfl
  | error e => exact if_neg fun again => exhausted again.1

theorem decide_of_final {result : Except PublishError α}
    (final : ∀ e, result = .error e → ¬ e.isTransient) :
    p.decide attempt result = .finish result := by
  cases result with
  | ok value => rfl
  | error e => exact if_neg fun again => final e rfl again.2

theorem decide_of_transient {e : PublishError} (short : attempt < p.attemptLimit)
    (transient : e.isTransient) : p.decide attempt (.error e : Except PublishError α) =
      .retry (attempt + 1) (p.delayAfter attempt)
        (backoffEntry attempt p.attemptLimit (p.delayAfter attempt) e) :=
  if_pos ⟨short, transient⟩

theorem runFrom_eq {op : UInt32 → σ → Except PublishError α × σ}
    {pause : JournalEntry → Duration → σ → σ} {budget : Nat}
    (left : attempt.toNat + budget = p.attemptLimit.toNat) (s : σ) :
    p.runFrom op pause budget attempt s =
      match p.decide attempt (op attempt s).1 with
      | .finish result => (result, (op attempt s).2)
      | .retry next delay entry =>
        p.runFrom op pause (budget - 1) next (pause entry delay (op attempt s).2) := by
  cases budget with
  | zero => rw [decide_of_limit left, runFrom]
  | succ budget => rfl

/-! ### A run and who watches it -/

inductive Moment
  | attempt (number : Nat)
  | pause (delay : Duration)
deriving DecidableEq

def Moment.isAttempt : Moment → Bool
  | .attempt _ => true
  | .pause _ => false

/-- What a call comes to, for a run that goes no further when a call never ends. -/
def offer : Option (Except PublishError α) → Except PublishError (Option α)
  | some (.ok value) => .ok (some value)
  | some (.error e) => .error e
  | none => .ok none

def yield : Except PublishError (Option α) → Option (Except PublishError α)
  | .ok (some value) => some (.ok value)
  | .ok none => none
  | .error e => some (.error e)

@[simp] theorem yield_offer (outcome : Option (Except PublishError α)) :
    yield (offer outcome) = outcome := by
  rcases outcome with - | - | -
  · rfl
  · rfl
  · rfl

/-- A call of an operation whose calls come to these outcomes, one after the other, whatever numbers
they are given. Where there are no more outcomes the call never ends. -/
def call (outcomes : Stream'.Seq (Except PublishError α)) (number : UInt32) (seen : List Moment) :
    Except PublishError (Option α) × List Moment :=
  (offer (outcomes.get? (seen.countP Moment.isAttempt)), seen ++ [.attempt number.toNat])

def watchPause (_ : JournalEntry) (delay : Duration) (seen : List Moment) : List Moment :=
  seen ++ [.pause delay]

def runAgainst (p : RetryPolicy) (outcomes : Stream'.Seq (Except PublishError α)) :
    Option (Except PublishError α) × List Moment :=
  let (result, seen) := p.run (call outcomes) watchPause []
  (yield result, seen)

/-! ### The course of a run -/

/-- An outcome after which another attempt may help. -/
def IsSetback (outcome : Option (Except PublishError α)) : Prop :=
  ∃ e, outcome = some (.error e) ∧ e.isTransient

/-- The numbers of the attempts after which there is none: the limit is reached, or the outcome is
not a setback. -/
def endings (p : RetryPolicy) (outcomes : Stream'.Seq (Except PublishError α)) : Set Nat :=
  {k | 1 ≤ k ∧ (k = max 1 p.maxAttempts.toNat ∨ ¬ IsSetback (outcomes.get? (k - 1)))}

def rounds (p : RetryPolicy) (count : Nat) : List Moment :=
  (List.range count).flatMap fun i => [.attempt (i + 1), .pause (p.delayAfter (.ofNat (i + 1)))]

theorem rounds_succ (p : RetryPolicy) (count : Nat) : p.rounds (count + 1) =
    p.rounds count ++ [.attempt (count + 1)] ++ [.pause (p.delayAfter (.ofNat (count + 1)))] := by
  rw [rounds, List.range_succ, List.flatMap_append, List.append_assoc]
  rfl

theorem countP_rounds (p : RetryPolicy) (count : Nat) :
    (p.rounds count).countP Moment.isAttempt = count := by
  induction count with
  | zero => rfl
  | succ count ih =>
    rw [rounds_succ, List.countP_append, List.countP_append, ih]
    rfl

variable {outcomes : Stream'.Seq (Except PublishError α)} {count : Nat}

theorem call_rounds (numbered : attempt.toNat = count + 1) :
    call outcomes attempt (p.rounds count) =
      (offer (outcomes.get? count), p.rounds count ++ [.attempt (count + 1)]) := by
  rw [call, countP_rounds, numbered]

theorem decide_of_ending (numbered : attempt.toNat = count + 1)
    (ending : count + 1 ∈ p.endings outcomes) :
    p.decide attempt (offer (outcomes.get? count)) = .finish (offer (outcomes.get? count)) := by
  rcases ending.2 with limit | noSetback
  · exact decide_of_limit (by rw [numbered, limit, attemptLimit_toNat]) _
  · refine decide_of_final fun e failed transient => noSetback ⟨e, ?_, transient⟩
    rw [Nat.add_sub_cancel, ← yield_offer (outcomes.get? count), failed]
    rfl

theorem isLeast_of_ending (ending : count + 1 ∈ p.endings outcomes)
    (earlier : ∀ k ≤ count, k ∉ p.endings outcomes) : IsLeast (p.endings outcomes) (count + 1) :=
  ⟨ending, fun k other => Nat.lt_of_not_le fun le => earlier k le other⟩

/-- The induction is on the attempts that are left. So far all attempts were setbacks, and all that
was seen are whole rounds. -/
theorem runFrom_call {budget : Nat} (numbered : attempt.toNat = count + 1)
    (left : attempt.toNat + budget = p.attemptLimit.toNat)
    (earlier : ∀ k ≤ count, k ∉ p.endings outcomes) :
    ∃ k, IsLeast (p.endings outcomes) k ∧
      p.runFrom (call outcomes) watchPause budget attempt (p.rounds count) =
        (offer (outcomes.get? (k - 1)), p.rounds (k - 1) ++ [.attempt k]) := by
  induction budget generalizing attempt count with
  | zero =>
    have ending : count + 1 ∈ p.endings outcomes :=
      ⟨Nat.le_add_left 1 count, .inl (by rw [← attemptLimit_toNat, ← left, numbered, Nat.add_zero])⟩
    refine ⟨count + 1, isLeast_of_ending ending earlier, ?_⟩
    rw [runFrom_eq left, call_rounds numbered, decide_of_ending numbered ending]
    rfl
  | succ budget ih =>
    rw [runFrom_eq left, call_rounds numbered]
    by_cases ending : count + 1 ∈ p.endings outcomes
    · refine ⟨count + 1, isLeast_of_ending ending earlier, ?_⟩
      rw [decide_of_ending numbered ending]
      rfl
    · have short : attempt < p.attemptLimit := UInt32.lt_iff_toNat_lt.2 (by omega)
      have next : (attempt + 1).toNat = count + 1 + 1 := by rw [toNat_succ short, numbered]
      obtain ⟨e, failed, transient⟩ : IsSetback (outcomes.get? count) := by
        by_contra noSetback
        exact ending ⟨Nat.le_add_left 1 count, .inr noSetback⟩
      have number : UInt32.ofNat (count + 1) = attempt := by
        rw [← numbered, UInt32.ofNat_toNat]
      have seen : watchPause (backoffEntry attempt p.attemptLimit (p.delayAfter attempt) e)
          (p.delayAfter attempt) (p.rounds count ++ [.attempt (count + 1)]) =
            p.rounds (count + 1) := by
        rw [rounds_succ, number]
        rfl
      rw [failed, offer, decide_of_transient short transient]
      dsimp only
      rw [seen]
      refine ih next (by omega) fun k le => ?_
      rcases Nat.lt_or_eq_of_le le with lt | rfl
      · exact earlier k (Nat.le_of_lt_succ lt)
      · exact ending

/-- A run makes the attempts 1, 2, ..., `k` and no others, where `k` is the least of the limit and
the first attempt that is not a setback. After each of them but the last it pauses for the delay of
that attempt, it comes to what attempt `k` comes to, and no number is too large for its word. -/
theorem runs_until_ending (p : RetryPolicy) (outcomes : Stream'.Seq (Except PublishError α)) :
    ∃ k, IsLeast {k | 1 ≤ k ∧ (k = max 1 p.maxAttempts.toNat ∨
        ¬ ∃ e, outcomes.get? (k - 1) = some (.error e) ∧ e.isTransient)} k ∧
      k < UInt32.size ∧
      p.runAgainst outcomes = (outcomes.get? (k - 1),
        (List.range (k - 1)).flatMap (fun i =>
          [Moment.attempt (i + 1), .pause (p.delayAfter (.ofNat (i + 1)))]) ++ [.attempt k]) := by
  have left : (1 : UInt32).toNat + (p.attemptLimit.toNat - 1) = p.attemptLimit.toNat :=
    Nat.add_sub_cancel' p.attemptLimit_pos
  have earlier : ∀ k ≤ 0, k ∉ p.endings outcomes := fun k le ending =>
    Nat.lt_irrefl 0 (Nat.lt_of_lt_of_le ending.1 le)
  obtain ⟨k, least, run⟩ : ∃ k, IsLeast (p.endings outcomes) k ∧
      p.run (call outcomes) watchPause [] =
        (offer (outcomes.get? (k - 1)), p.rounds (k - 1) ++ [Moment.attempt k]) :=
    runFrom_call rfl left earlier
  have limited : k ≤ p.attemptLimit.toNat :=
    least.2 ⟨p.attemptLimit_pos, .inl p.attemptLimit_toNat⟩
  refine ⟨k, least, Nat.lt_of_le_of_lt limited p.attemptLimit.toNat_lt, ?_⟩
  rw [runAgainst, run]
  dsimp only
  rw [yield_offer, rounds]

end OutboxRelay.RetryPolicy
