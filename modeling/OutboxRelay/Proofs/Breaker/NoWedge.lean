import OutboxRelay.Proofs.Breaker.FailureCount

/-! A half-open circuit waits for the trial call that made it so. Whatever ends a call, be it a
success, a failure or a drop, ends the half-open state too, so no call has ended since the trial was
admitted, and the trial itself is in flight. Hence a circuit without calls in flight is not stuck:
after the cooldown it admits the next call. -/

namespace OutboxRelay.Breaker

section Outcomes

variable {b b' : Breaker} {c : BreakerConfig} {now : Instant}

theorem circuit_settle_ne_halfOpen (b : Breaker) (c : BreakerConfig) (now : Instant)
    (result : Except PublishError Unit) : (b.settle c now result).1.circuit ≠ .halfOpen := by
  intro half
  cases result with
  | ok value => cases half
  | error e =>
    simp only [settle, fail] at half
    split at half
    · cases half
    · rename_i closed
      split at half
      · cases half
      · cases closed.symm.trans half
    · rename_i opened
      cases opened.symm.trans half

theorem circuit_abandon_ne_halfOpen (b : Breaker) (now : Instant) :
    (b.abandon now).circuit ≠ .halfOpen := by
  intro half
  unfold abandon at half
  split at half
  · cases half
  · contradiction

theorem admitted_cases {journal : Journal} (admits : b.request c now = .admitted b' journal) :
    (b.circuit = .opened ∧ b.cooledDown c now = true ∧ b' = { b with circuit := .halfOpen }) ∨
      b.circuit = .closed ∧ b' = b := by
  unfold request at admits
  split at admits
  · rename_i closed
    cases admits
    exact .inr ⟨closed, rfl⟩
  · cases admits
  · rename_i opened
    split at admits
    · rename_i cold
      cases admits
      exact .inl ⟨opened, cold, rfl⟩
    · cases admits

theorem openedAt_of_admitted {journal : Journal}
    (admits : b.request c now = .admitted b' journal) : b'.openedAt = b.openedAt := by
  rcases admitted_cases admits with ⟨_, _, rfl⟩ | ⟨_, rfl⟩ <;> rfl

end Outcomes

/-- If the circuit was opened at some time, that time is over. -/
def OpenedBy (b : Breaker) (now : Instant) : Prop := ∀ t ∈ b.openedAt, t.nanos ≤ now.nanos

theorem OpenedBy.settle {b : Breaker} {now : Instant} (h : b.OpenedBy now) (c : BreakerConfig)
    (result : Except PublishError Unit) : (b.settle c now result).1.OpenedBy now := by
  have present : ∀ t ∈ some now, t.nanos ≤ now.nanos := fun t ht => by
    cases ht
    exact Nat.le_refl _
  cases result with
  | ok value => exact nofun
  | error e =>
    simp only [Breaker.settle, fail]
    split
    · exact present
    · split
      · exact present
      · exact h
    · exact h

theorem OpenedBy.abandon {b : Breaker} {now : Instant} (h : b.OpenedBy now) :
    (b.abandon now).OpenedBy now := by
  unfold Breaker.abandon
  split
  · intro t ht
    cases ht
    exact Nat.le_refl _
  · exact h

theorem admits_of_cold {b : Breaker} {c : BreakerConfig} {since now : Instant}
    (ready : b.circuit ≠ .halfOpen) (opened : b.OpenedBy since)
    (cold : since.nanos + c.openDuration.nanos ≤ now.nanos) :
    ∃ b' journal, b.request c now = .admitted b' journal := by
  unfold request
  split
  · exact ⟨_, _, rfl⟩
  · rename_i half
    exact absurd half ready
  · have cooled : b.cooledDown c now = true := by
      unfold cooledDown
      split
      · rfl
      · rename_i t stamp
        have le := opened t stamp
        refine decide_eq_true ?_
        unfold Instant.elapsed
        omega
    rw [if_pos cooled]
    exact ⟨_, _, rfl⟩

namespace Session

variable {ι : Type} [DecidableEq ι]

theorem throughout_concat {P : Session ι → Action ι → Prop} {s : Session ι}
    {run : List (Action ι)} {a : Action ι} :
    Throughout P s (run ++ [a]) ↔ Throughout P s run ∧ P (s.run run) a := by
  induction run generalizing s with
  | nil => simp [Throughout, Session.run]
  | cons b rest ih => rw [List.cons_append, Throughout, Throughout, ih, run_cons, and_assoc]

theorem halfOpen_step_cases {s : Session ι} {a : Action ι}
    (half : (s.step a).1.breaker.circuit = .halfOpen) :
    (s.breaker.circuit = .halfOpen ∧ ¬ s.Ends a ∧ (s.step a).1.inFlight = s.inFlight) ∨
      ∃ id, a = .begin id ∧ s.breaker.circuit = .opened ∧
        (s.step a).1.inFlight = id :: s.inFlight := by
  cases a with
  | begin id =>
    simp only [step] at half ⊢
    split at half
    · rename_i rejected
      exact .inl ⟨half, not_false, rfl⟩
    · rename_i breaker journal admits
      refine .inr ⟨id, rfl, ?_, rfl⟩
      rcases admitted_cases admits with ⟨opened, _⟩ | ⟨closed, rfl⟩
      · exact opened
      · cases half.symm.trans closed
  | finish id outcome =>
    simp only [step] at half ⊢
    split at half
    · exact absurd half (circuit_settle_ne_halfOpen _ _ _ _)
    · rename_i landed
      exact .inl ⟨half, landed, by rw [if_neg landed]⟩
  | drop id =>
    simp only [step] at half ⊢
    split at half
    · exact absurd half (circuit_abandon_ne_halfOpen _ _)
    · rename_i landed
      exact .inl ⟨half, landed, by rw [if_neg landed]⟩
  | advance nanos => exact .inl ⟨half, not_false, rfl⟩

/-- In the session `s` call `id` was admitted as a trial. In the actions `after` it, of which the
circuit is half-open from the first to the last, no call has ended. -/
structure TrialPending (s : Session ι) (id : ι) (after : List (Action ι)) : Prop where
  opened : s.breaker.circuit = .opened
  trial : (s.step (.begin id)).1.breaker.circuit = .halfOpen
  since : (s.step (.begin id)).1.Throughout
    (fun s a => s.breaker.circuit = .halfOpen ∧ ¬ s.Ends a) after
  inFlight : ((s.step (.begin id)).1.run after).inFlight = id :: s.inFlight

theorem exists_trialPending (s : Session ι) (shut : s.breaker.circuit ≠ .halfOpen)
    {run : List (Action ι)} (half : (s.run run).breaker.circuit = .halfOpen) :
    ∃ past id after, run = past ++ .begin id :: after ∧ (s.run past).TrialPending id after := by
  induction run using List.reverseRecOn with
  | nil => exact absurd half shut
  | append_singleton run a ih =>
    rw [run_append] at half
    have last : ((s.run run).step a).1.breaker.circuit = .halfOpen := half
    rcases halfOpen_step_cases last with ⟨before, quiet, same⟩ | ⟨id, rfl, opened, begun⟩
    · obtain ⟨past, id, after, rfl, pending⟩ := ih before
      rw [run_append, run_cons] at before quiet same
      refine ⟨past, id, after ++ [a], by simp, pending.opened, pending.trial,
        throughout_concat.2 ⟨pending.since, before, quiet⟩, ?_⟩
      rw [run_append]
      exact same.trans pending.inFlight
    · exact ⟨run, id, [], rfl, opened, last, trivial, begun⟩

/-! ### The way out of an open circuit -/

theorem openedBy_step {s : Session ι} (h : s.breaker.OpenedBy s.now) (a : Action ι) :
    (s.step a).1.breaker.OpenedBy (s.step a).1.now := by
  cases a with
  | begin id =>
    simp only [step]
    split
    · exact h
    · rename_i breaker journal admits
      intro t ht
      exact h t (openedAt_of_admitted admits ▸ ht)
  | finish id outcome =>
    simp only [step]
    split
    · exact h.settle s.config outcome
    · exact h
  | drop id =>
    simp only [step]
    split
    · exact h.abandon
    · exact h
  | advance nanos => exact fun t ht => Nat.le_add_right_of_le (h t ht)

theorem openedBy_run {s : Session ι} (h : s.breaker.OpenedBy s.now) (run : List (Action ι)) :
    (s.run run).breaker.OpenedBy (s.run run).now := by
  induction run generalizing s with
  | nil => exact h
  | cons a rest ih => exact ih (openedBy_step h a)

theorem idle_run {s : Session ι} (idle : s.inFlight = []) {wait : List (Action ι)}
    (none : ∀ a ∈ wait, ∀ id, a ≠ .begin id) :
    (s.run wait).breaker = s.breaker ∧ (s.run wait).inFlight = [] := by
  induction wait generalizing s with
  | nil => exact ⟨rfl, idle⟩
  | cons a rest ih =>
    rw [List.forall_mem_cons] at none
    have same : (s.step a).1.breaker = s.breaker ∧ (s.step a).1.inFlight = [] := by
      cases a with
      | begin id => exact absurd rfl (none.1 id)
      | finish id outcome => simp [step, idle]
      | drop id => simp [step, idle]
      | advance nanos => exact ⟨rfl, idle⟩
    obtain ⟨breaker, inFlight⟩ := ih same.2 none.2
    exact ⟨breaker.trans same.1, inFlight⟩

theorem begin_after_cooldown {s : Session ι} (ready : s.breaker.circuit ≠ .halfOpen)
    (opened : s.breaker.OpenedBy s.now) (idle : s.inFlight = []) {wait : List (Action ι)}
    (none : ∀ a ∈ wait, ∀ id, a ≠ .begin id)
    (cold : s.now.nanos + s.config.openDuration.nanos ≤ (s.run wait).now.nanos) (id : ι) :
    ((s.run wait).step (.begin id)).2 = .pending := by
  obtain ⟨same, _⟩ := idle_run idle none
  obtain ⟨breaker, journal, admits⟩ := admits_of_cold ready opened cold
  simp only [step, same, config_run, admits]

/-- A half-open circuit has its trial in flight. So a circuit without calls in flight is not
half-open, and when the cooldown has passed it admits the next call. -/
theorem run_never_wedged (config : BreakerConfig) (run : List (Action ι)) :
    (((start config).run run).breaker.circuit = .halfOpen →
      ∃ past id after, run = past ++ .begin id :: after ∧
        ((start config).run past).TrialPending id after) ∧
    (((start config).run run).inFlight = [] →
      ((start config).run run).breaker.circuit ≠ .halfOpen ∧
      ∀ wait : List (Action ι), (∀ a ∈ wait, ∀ id, a ≠ .begin id) →
        ((start config).run run).now.nanos + config.openDuration.nanos ≤
          (((start config).run run).run wait).now.nanos →
        ∀ id, ((((start config).run run).run wait).step (.begin id)).2 = .pending) := by
  have pending : ((start config).run run).breaker.circuit = .halfOpen →
      ∃ past id after, run = past ++ .begin id :: after ∧
        ((start config).run past).TrialPending id after :=
    exists_trialPending (start config) nofun
  refine ⟨pending, fun idle => ?_⟩
  have ready : ((start config).run run).breaker.circuit ≠ .halfOpen := fun half => by
    obtain ⟨past, id, after, rfl, trial⟩ := pending half
    have flying := trial.inFlight
    rw [run_append, run_cons] at idle
    rw [idle] at flying
    cases flying
  have opened : ((start config).run run).breaker.OpenedBy ((start config).run run).now :=
    openedBy_run (s := start config) nofun run
  have same : ((start config).run run).config = config := config_run (start config) run
  exact ⟨ready, fun wait none cold id =>
    begin_after_cooldown ready opened idle none (by rw [same]; exact cold) id⟩

def trialUnderWay : List (Action Nat) :=
  [.begin 0, .begin 1, .finish 1 (.error (.unavailable "kafka" "down")), .advance 1000000000,
    .begin 2, .begin 3]

def trialAbandoned : List (Action Nat) := trialUnderWay ++ [.drop 2, .drop 0]

theorem run_never_wedged_of_abandoned :
    (∃ past id after, trialUnderWay = past ++ .begin id :: after ∧
        ((start ⟨"test", 1, .ofMillis 1000⟩).run past).TrialPending id after) ∧
      ((start ⟨"test", 1, .ofMillis 1000⟩).run trialAbandoned).breaker.circuit = .opened ∧
      ((((start ⟨"test", 1, .ofMillis 1000⟩).run trialAbandoned).run
        [.advance 1000000000]).step (.begin 4)).2 = .pending := by
  refine ⟨(run_never_wedged _ trialUnderWay).1 (by decide), by decide, ?_⟩
  exact ((run_never_wedged ⟨"test", 1, .ofMillis 1000⟩ trialAbandoned).2 (by decide)).2 _
    (by simp) (by decide) 4

end Session

end OutboxRelay.Breaker
