import OutboxRelay.Proofs.Breaker.Run

/-! Trial calls. The call that an open circuit admits after its cooldown makes it half-open. The
circuit stays so, and rejects every other call, up to the first end of a call in flight. So the trial
decides as long as no call that was admitted before it ends first. -/

namespace OutboxRelay.Breaker

variable {ι : Type} [DecidableEq ι]

def Action.isEndOf (id : ι) : Action ι → Bool
  | .finish i _ => i = id
  | .drop i => i = id
  | _ => false

namespace Session

theorem breaker_run_of_halfOpen {s : Session ι} {run : List (Action ι)}
    (half : s.breaker.circuit = .halfOpen) (quiet : s.Throughout (fun s a => ¬ s.Ends a) run) :
    (s.run run).breaker = s.breaker := by
  induction run generalizing s with
  | nil => rfl
  | cons a rest ih =>
    have same := breaker_step_of_halfOpen half quiet.1
    rw [run_cons, ih (by rw [same]; exact half) quiet.2, same]

theorem mem_inFlight_step {s : Session ι} {a : Action ι} {id : ι} (flying : id ∈ s.inFlight)
    (other : a.isEndOf id = false) : id ∈ (s.step a).1.inFlight := by
  cases a with
  | begin i =>
    simp only [step]
    split
    · exact flying
    · exact List.mem_cons_of_mem _ flying
  | finish i outcome =>
    have ne : id ≠ i := by rintro rfl; simp [Action.isEndOf] at other
    simp only [step]
    split
    · exact (List.mem_erase_of_ne ne).2 flying
    · exact flying
  | drop i =>
    have ne : id ≠ i := by rintro rfl; simp [Action.isEndOf] at other
    simp only [step]
    split
    · exact (List.mem_erase_of_ne ne).2 flying
    · exact flying
  | advance nanos => exact flying

theorem mem_inFlight_run {s : Session ι} {run : List (Action ι)} {id : ι}
    (flying : id ∈ s.inFlight) (others : ∀ a ∈ run, a.isEndOf id = false) :
    id ∈ (s.run run).inFlight := by
  induction run generalizing s with
  | nil => exact flying
  | cons a rest ih =>
    exact ih (mem_inFlight_step flying (others a (by simp))) fun b hb => others b (by simp [hb])

theorem mem_inFlight_of_trial {s : Session ι} {id : ι} (opened : s.breaker.circuit = .opened)
    (trial : (s.step (.begin id)).1.breaker.circuit = .halfOpen) :
    id ∈ (s.step (.begin id)).1.inFlight := by
  simp only [step] at trial ⊢
  split
  · rename_i rejected
    rw [rejected] at trial
    rw [opened] at trial
    cases trial
  · exact List.mem_cons_self

/-- How the end of a call in flight decides a half-open circuit. -/
structure Decides (s : Session ι) (id : ι) : Prop where
  closes : (s.step (.finish id (.ok ()))).1.breaker = .initial
  reopens : ∀ e, (s.step (.finish id (.error e))).1.breaker =
    { s.breaker with circuit := .opened, openedAt := some s.now }
  gives_up : (s.step (.drop id)).1.breaker =
    { s.breaker with circuit := .opened, openedAt := some s.now }

theorem decides_of_halfOpen {s : Session ι} {id : ι} (half : s.breaker.circuit = .halfOpen)
    (flying : id ∈ s.inFlight) : s.Decides id := by
  constructor
  · simp [step, flying, close, settle, succeed]
  · simp [step, flying, close, settle, fail, half]
  · simp [step, flying, close, abandon, half]

/-- From the admission of a trial call on and before its end: the circuit stays half-open, rejects
every other call and leaves the decision to the trial, exactly as long as no other call in flight
ends. -/
theorem trial_decides_iff (s : Session ι) (id : ι) (after : List (Action ι))
    (opened : s.breaker.circuit = .opened)
    (trial : (s.step (.begin id)).1.breaker.circuit = .halfOpen)
    (running : ∀ a ∈ after, a.isEndOf id = false) :
    (∀ past, past <+: after →
        ((s.step (.begin id)).1.run past).breaker.circuit = .halfOpen ∧
        ((s.step (.begin id)).1.run past).Decides id ∧
        ∀ other, ((s.step (.begin id)).1.run past).step (.begin other) =
          ((s.step (.begin id)).1.run past, .rejected)) ↔
      (s.step (.begin id)).1.Throughout (fun s a => ¬ s.Ends a) after := by
  have flying := mem_inFlight_of_trial opened trial
  generalize (s.step (.begin id)).1 = t at *
  constructor
  · intro kept
    refine throughout_iff.2 fun past b hp ends => ?_
    have left : (t.run (past ++ [b])).breaker.circuit ≠ .halfOpen := by
      rw [run_append]
      exact circuit_step_of_ends (kept past ((List.prefix_append past [b]).trans hp)).1 ends
    exact left (kept (past ++ [b]) hp).1
  · rintro quiet past hp
    have half : (t.run past).breaker.circuit = .halfOpen := by
      rw [breaker_run_of_halfOpen trial (quiet.of_prefix hp)]
      exact trial
    have still := mem_inFlight_run flying fun a ha => running a (hp.subset ha)
    exact ⟨half, decides_of_halfOpen half still, begin_of_halfOpen half⟩

def overtakenByTrial : Session Nat :=
  (start ⟨"test", 1, .ofMillis 1000⟩).run
    [.begin 0, .begin 1, .finish 1 (.error (.unavailable "kafka" "down")), .advance 1000000000]

theorem trial_decides_iff_of_late_end :
    overtakenByTrial.breaker.circuit = .opened ∧
      (overtakenByTrial.step (.begin 2)).1.breaker.circuit = .halfOpen ∧
      ∀ past, past <+: [.begin 3, .advance 7, .finish 3 (.ok ())] →
        ((overtakenByTrial.step (.begin 2)).1.run past).breaker.circuit = .halfOpen ∧
        ((overtakenByTrial.step (.begin 2)).1.run past).Decides 2 ∧
        ∀ other, ((overtakenByTrial.step (.begin 2)).1.run past).step (.begin other) =
          ((overtakenByTrial.step (.begin 2)).1.run past, .rejected) := by
  refine ⟨by decide, by decide, ?_⟩
  exact (trial_decides_iff overtakenByTrial 2 _ (by decide) (by decide) (by decide)).2 (by decide)

/-- The failure of a call admitted before the opening re-opens the circuit while the trial is in
flight, and after another cooldown a second trial joins it. -/
theorem late_failure_reopens_during_trial :
    ¬ ∀ (s : Session Nat) (id : Nat) (after : List (Action Nat)),
      s.breaker.circuit = .opened → (s.step (.begin id)).1.breaker.circuit = .halfOpen →
      (∀ a ∈ after, a.isEndOf id = false) →
      ∀ other, ((s.step (.begin id)).1.run after).step (.begin other) =
        ((s.step (.begin id)).1.run after, .rejected) := by
  intro kept
  have rejected := kept overtakenByTrial 2
    [.finish 0 (.error (.unavailable "kafka" "down")), .advance 1000000000]
    (by decide) (by decide) (by decide) 3
  have second : (((overtakenByTrial.step (.begin 2)).1.run
      [.finish 0 (.error (.unavailable "kafka" "down")), .advance 1000000000]).step
        (.begin 3)).1.inFlight = [3, 2] := by decide
  rw [rejected] at second
  exact absurd second (by decide)

end Session

end OutboxRelay.Breaker
