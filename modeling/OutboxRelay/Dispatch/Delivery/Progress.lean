import OutboxRelay.Dispatch.Delivery

/-! Every delivery comes to wait or to an end: `rank` bounds the steps that are left, and each step
lessens it. -/

namespace OutboxRelay.Delivery

variable {σ : Type}

def laterSteps (relay : Relay) (attempt : UInt32) : Nat :=
  (relay.retry.attemptLimit.toNat - attempt.toNat) * (3 * relay.targets.length + 5)

def rank (relay : Relay) (d : Delivery) : Nat :=
  let later := laterSteps relay d.attempt
  match d.stage with
  | .settling _ => 1
  | .sending a => later + 3 * a.targets.length + 2
  | .awaiting a f => later + 3 * a.targets.length + (if f.cause.isSome then 3 else 4)
  | .beginning => later + 3 * relay.targets.length + 3
  | .pausing _ => later + 3 * relay.targets.length + 4

theorem waitingTargets_length (relay : Relay) (d : Delivery) :
    (d.waitingTargets relay).length ≤ relay.targets.length :=
  Nat.le_trans (List.length_filter_le _ _) (by simp)

theorem laterSteps_succ {relay : Relay} {attempt : UInt32}
    (h : attempt < relay.retry.attemptLimit) :
    laterSteps relay (attempt + 1) + (3 * relay.targets.length + 5) = laterSteps relay attempt := by
  have lt : attempt.toNat < relay.retry.attemptLimit.toNat := UInt32.lt_iff_toNat_lt.1 h
  unfold laterSteps
  rw [RetryPolicy.toNat_succ h, ← Nat.succ_mul]
  congr 1
  omega

theorem rank_conclude (relay : Relay) (s : RelayState σ) (d : Delivery)
    (result : Except PublishError Unit) :
    (conclude relay s d result).2.rank relay ≤ laterSteps relay d.attempt + 1 := by
  unfold conclude
  split
  · simp [rank]
  · next next delay entry h =>
    obtain ⟨lt, rfl⟩ := RetryPolicy.lt_attemptLimit_of_decide_retry h
    have := laterSteps_succ lt
    dsimp only
    split <;> simp only [rank] <;> omega

theorem rank_handOver (relay : Relay) (s : RelayState σ) (d : Delivery) (a : Attempt)
    (target : Nat × Target) (letter : Letter) (cause : Option PublishError) :
    (handOver relay s d a target letter cause).2.rank relay =
      laterSteps relay d.attempt + 3 * a.targets.length + (if cause.isSome then 3 else 4) := by
  unfold handOver
  dsimp only
  split <;> (try split) <;> (cases a.deadline <;> rfl)

theorem rank_endPosting (relay : Relay) (s : RelayState σ) (d : Delivery) (a : Attempt)
    (target : Nat × Target) (result : Except PublishError Unit) :
    (endPosting s d a target result).2.rank relay =
      laterSteps relay d.attempt + 3 * a.targets.length + 2 := by
  unfold endPosting
  split <;> rfl

theorem rank_begin (relay : Relay) (s : RelayState σ) (d : Delivery) :
    (begin relay s d).2.rank relay < laterSteps relay d.attempt + 3 * relay.targets.length + 3 := by
  unfold begin
  dsimp only
  split
  · exact Nat.lt_of_le_of_lt (rank_conclude ..) (by omega)
  · have := waitingTargets_length relay d
    simp only [rank]
    omega

theorem rank_send (relay : Relay) (s : RelayState σ) (d : Delivery) (a : Attempt) :
    (send relay s d a).2.rank relay < laterSteps relay d.attempt + 3 * a.targets.length + 2 := by
  unfold send
  split
  · exact Nat.lt_of_le_of_lt (rank_conclude ..) (by omega)
  · next h =>
    dsimp only
    rw [rank_handOver, h]
    simp only [Option.isSome_none, Bool.false_eq_true, if_false, List.length_cons]
    omega

theorem rank_takeAnswer (relay : Relay) (s : RelayState σ) (d : Delivery) (a : Attempt)
    (f : Flight) (answer : Except PublishError Receipt) :
    (takeAnswer relay s d a f answer).2.rank relay <
      laterSteps relay d.attempt + 3 * a.targets.length + (if f.cause.isSome then 3 else 4) := by
  unfold takeAnswer
  dsimp only
  split
  · next h =>
    split
    · rw [rank_endPosting, h]; simp
    · rw [rank_handOver, h]; simp
  · next h => rw [rank_endPosting, h]; simp

theorem rank_timeOut (relay : Relay) (s : RelayState σ) (d : Delivery) (a : Attempt) (f : Flight) :
    (timeOut relay s d a f).2.rank relay <
      laterSteps relay d.attempt + 3 * a.targets.length + (if f.cause.isSome then 3 else 4) :=
  Nat.lt_of_le_of_lt (rank_conclude ..) (by split <;> omega)

theorem rank_lt_of_step [Outbox σ] {relay : Relay} {s s' : RelayState σ} {d d' : Delivery}
    (h : d.step relay s = .next s' d') : d'.rank relay < d.rank relay := by
  unfold step at h
  split at h <;> rename_i hstage <;> simp only [rank, hstage]
  · cases h; exact rank_begin ..
  · cases h; exact rank_send ..
  · split at h
    · split at h
      · cases h; exact rank_takeAnswer ..
      · split at h
        · cases h; exact rank_timeOut ..
        · cases h
    · split at h
      · cases h; exact rank_timeOut ..
      · cases h
  · split at h
    · cases h; simp
    · cases h
  · cases h

def run [Outbox σ] (relay : Relay) (s : RelayState σ) (d : Delivery) :
    RelayState σ × (Delivery ⊕ Outcome) :=
  match _h : d.step relay s with
  | .next s' d' => run relay s' d'
  | .waits => (s, .inl d)
  | .settled s' outcome => (s', .inr outcome)
termination_by d.rank relay
decreasing_by exact rank_lt_of_step (by assumption)

theorem rank_of_run [Outbox σ] {relay : Relay} {s s' : RelayState σ} {d d' : Delivery}
    (h : d.run relay s = (s', .inl d')) : d'.rank relay ≤ d.rank relay := by
  induction hr : d.rank relay using Nat.strongRecOn generalizing s d with
  | _ n ih =>
    rw [run] at h
    split at h
    · next hs =>
      have lt := rank_lt_of_step hs
      have := ih _ (hr ▸ lt) h rfl
      omega
    · cases h; omega
    · cases h

def isDue (d : Delivery) (now : Instant) : Bool := d.timers.any (·.isDue now)

theorem step_ne_waits_of_isDue [Outbox σ] {relay : Relay} {s : RelayState σ} {d : Delivery}
    (h : d.isDue s.now) : d.step relay s ≠ .waits := by
  unfold step
  simp only [isDue, timers, List.any_eq_true] at h
  obtain ⟨timer, mem, due⟩ := h
  split <;> rename_i hstage <;> rw [hstage] at mem
  · simp
  · simp
  · rename_i a f
    cases hd : a.deadline with
    | none => cases ha : f.answer with
      | none => simp [hd, ha] at mem
      | some x => simp [hd, ha] at mem; subst mem; simp [due]
    | some deadline => cases ha : f.answer with
      | none => simp [hd, ha] at mem; subst mem; simp [due]
      | some x =>
        simp only [hd, ha, Option.map_some, Option.toList_some, List.cons_append, List.nil_append,
          List.mem_cons, List.not_mem_nil, or_false] at mem
        rcases mem with rfl | rfl
        · simp [due]
        · simp only [Option.any_some, due, if_true]
          split <;> simp
  · simp at mem; subst mem; simp [due]
  · simp

theorem rank_of_run_of_isDue [Outbox σ] {relay : Relay} {s s' : RelayState σ}
    {d d' : Delivery} (due : d.isDue s.now) (h : d.run relay s = (s', .inl d')) :
    d'.rank relay < d.rank relay := by
  rw [run] at h
  split at h
  · next hs => exact Nat.lt_of_le_of_lt (rank_of_run h) (rank_lt_of_step hs)
  · next hs => exact absurd hs (step_ne_waits_of_isDue due)
  · cases h

end OutboxRelay.Delivery
