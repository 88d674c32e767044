import OutboxRelay.Proofs.Dispatch.Timing

/-! A batch in the hands of a busy machine. Time may go far past a timer before the batch gets its
next turn, so nothing is said here of when an attempt ends. But a delivery that sleeps has a timer,
and is woken when that is past; and whenever somebody is awake, a turn brings the batch nearer to
its end. -/

namespace OutboxRelay

namespace Delivery

variable {σ : Type} {relay : Relay} {s s' : RelayState σ} {d d' : Delivery} {now later : Instant}

/-- As long as its budget does not run, an attempt waits for nothing but an answer that is there. -/
def Answered (now : Instant) (d : Delivery) : Prop :=
  ∀ a f, d.stage = .awaiting a f → a.deadline = none → ∃ x ∈ f.answer, x.1.isDue now

theorem answered_of_concluded {result : Except PublishError Unit}
    (h : Concluded relay now d result d') : d'.Answered later := by
  intro a f stage _
  cases h <;> cases stage

theorem answered_of_next (h : Next relay s d s' d') : d'.Answered s.now := by
  intro a f stage unarmed
  cases h with
  | refused _ _ concluded => exact answered_of_concluded concluded a f stage unarmed
  | admitted => cases stage
  | handed _ _ _ awaits =>
    cases stage
    obtain ⟨timer, reply, answer, due⟩ := awaits.atOnce unarmed
    exact ⟨_, answer, due⟩
  | completed _ _ concluded => exact answered_of_concluded concluded a f stage unarmed
  | accepted => cases stage
  | failed => cases stage
  | copied _ _ _ _ _ _ awaits =>
    cases stage
    obtain ⟨timer, reply, answer, due⟩ := awaits.atOnce unarmed
    exact ⟨_, answer, due⟩
  | copyAnswered => cases stage
  | timedOut _ _ _ _ concluded => exact answered_of_concluded concluded a f stage unarmed
  | resumed => cases stage

theorem Answered.mono (h : d.Answered now) (le : now.nanos ≤ later.nanos) : d.Answered later := by
  intro a f stage unarmed
  obtain ⟨x, mem, due⟩ := h a f stage unarmed
  refine ⟨x, mem, ?_⟩
  rw [Timer.isDue_iff] at due ⊢
  exact Nat.le_trans due le

theorem timers_ne_nil_of_step_waits [Outbox σ] (waits : d.step relay s = .waits)
    (answered : d.Answered s.now) : d.timers ≠ [] := by
  rcases stage_of_step_waits waits with ⟨a, f, stage⟩ | ⟨timer, stage⟩
  · cases deadline : a.deadline with
    | some timer => simp [timers, stage, deadline]
    | none =>
      obtain ⟨x, mem, _⟩ := answered a f stage deadline
      have answer : f.answer = some x := mem
      simp [timers, stage, answer]
  · simp [timers, stage]

theorem isDue_mono (h : d.isDue now) (le : now.nanos ≤ later.nanos) : d.isDue later := by
  obtain ⟨t, mem, due⟩ := List.any_eq_true.1 h
  refine List.any_eq_true.2 ⟨t, mem, ?_⟩
  rw [Timer.isDue_iff] at due ⊢
  exact Nat.le_trans due le

end Delivery

namespace Batch

variable {σ : Type}

structure Wakeful (x : RelayState σ × Batch) : Prop where
  answered : ∀ d, d ∈ x.2.ready ∨ d ∈ x.2.asleep → d.Answered x.1.now
  timers : ∀ d ∈ x.2.asleep, d.timers ≠ []
  early : ∀ d ∈ x.2.asleep, d.isDue x.1.now = false

theorem mem_woken {now : Instant} {b : Batch} {d : Delivery} :
    d ∈ b.woken now ↔ d ∈ b.asleep ∧ d.isDue now :=
  (List.mergeSort_perm _ _).mem_iff.trans List.mem_filter

theorem mem_wake {now : Instant} {b : Batch} {d : Delivery} :
    d ∈ (b.wake now).ready ∨ d ∈ (b.wake now).asleep ↔ d ∈ b.ready ∨ d ∈ b.asleep := by
  by_cases due : d.isDue now <;> simp [wake, mem_woken, due]

theorem Wakeful.wake {s : RelayState σ} {b : Batch} (h : Wakeful (s, b)) {later : Instant}
    (le : s.now.nanos ≤ later.nanos) : Wakeful ({ s with now := later }, b.wake later) := by
  have still {d} (mem : d ∈ (b.wake later).asleep) : d ∈ b.asleep ∧ d.isDue later = false := by
    simpa [Batch.wake] using mem
  refine ⟨fun d mem => ?_, fun d mem => ?_, fun d mem => ?_⟩
  · exact (h.answered d (mem_wake.1 mem)).mono le
  · exact h.timers d (still mem).1
  · exact (still mem).2

theorem wakeful_ofEvents (s : RelayState σ) (events : List Event) :
    Wakeful (s, ofEvents events) := by
  refine ⟨fun d mem => ?_, fun d mem => ?_, fun d mem => ?_⟩
  · rcases mem with ready | asleep
    · cases ready
    · cases asleep
  · cases mem
  · cases mem

variable [Outbox σ] {relay : Relay}

theorem wakeful_of_move {x y : RelayState σ × Batch} (move : Move relay x y) (h : Wakeful x) :
    Wakeful y := by
  cases move with
  | @takeUp s b event pending _ _ =>
    refine ⟨fun d mem => ?_, h.timers, h.early⟩
    rw [List.mem_append, List.mem_singleton] at mem
    rcases mem with (old | rfl) | asleep
    · exact h.answered d (.inl old)
    · intro a f stage
      cases stage
    · exact h.answered d (.inr asleep)
  | @goOn s b d rest s' d' first next =>
    have step := Delivery.next_of_step next
    have now := Delivery.now_of_next step
    refine ⟨fun x mem => ?_, h.timers, fun x mem => ?_⟩
    · rw [now]
      rw [List.mem_cons] at mem
      rcases mem with (rfl | old) | asleep
      · exact Delivery.answered_of_next step
      · exact h.answered x (.inl (first ▸ List.mem_cons_of_mem _ old))
      · exact h.answered x (.inr asleep)
    · rw [now]
      exact h.early x mem
  | @sleep s b d rest first waits =>
    have answered : d.Answered s.now := h.answered d (.inl (first ▸ List.mem_cons_self))
    refine ⟨fun x mem => ?_, fun x mem => ?_, fun x mem => ?_⟩
    · rw [List.mem_append, List.mem_singleton] at mem
      rcases mem with ready | old | rfl
      · exact h.answered x (.inl (first ▸ List.mem_cons_of_mem _ ready))
      · exact h.answered x (.inr old)
      · exact answered
    · rcases List.mem_append.1 mem with old | new
      · exact h.timers x old
      · cases List.mem_singleton.1 new
        exact Delivery.timers_ne_nil_of_step_waits waits answered
    · rcases List.mem_append.1 mem with old | new
      · exact h.early x old
      · cases List.mem_singleton.1 new
        exact Bool.eq_false_iff.2 fun due => Delivery.step_ne_waits_of_isDue due waits
  | @settle s b d rest s' outcome first settled =>
    obtain ⟨result, _, settle⟩ := Delivery.settling_of_step settled
    obtain ⟨⟨clock, journal, rfl⟩, _⟩ := Delivery.settle_spec settle
    refine ⟨fun x mem => ?_, h.timers, h.early⟩
    rcases mem with ready | asleep
    · exact h.answered x (.inl (first ▸ List.mem_cons_of_mem _ ready))
    · exact h.answered x (.inr asleep)
  | @wake s b due stopped next =>
    refine h.wake ?_
    rw [Instant.max_nanos]
    exact Nat.le_max_left _ _

theorem Wakeful.drain {s : RelayState σ} {b : Batch} (h : Wakeful (s, b)) :
    Wakeful (b.drain relay s) :=
  (moves_drain relay s b).keep Wakeful (fun _ _ move => wakeful_of_move move) h

/-- Somebody in flight is to be woken by then, or there is nobody in flight at all. -/
def Hopeful (time : Instant) (b : Batch) : Prop :=
  (∀ d, ¬ (d ∈ b.ready ∨ d ∈ b.asleep)) ∨
    ∃ d, (d ∈ b.ready ∨ d ∈ b.asleep) ∧ ∃ t ∈ d.timers, t.due.nanos ≤ time.nanos

omit [Outbox σ] in
theorem Wakeful.exists_hopeful {s : RelayState σ} {b : Batch} (h : Wakeful (s, b))
    (due : ∀ d ∈ b.ready, d.isDue s.now) : ∃ time, b.Hopeful time := by
  by_cases nobody : ∀ d, ¬ (d ∈ b.ready ∨ d ∈ b.asleep)
  · exact ⟨s.now, .inl nobody⟩
  · simp only [Classical.not_forall, Classical.not_not] at nobody
    obtain ⟨d, among⟩ := nobody
    have timers : d.timers ≠ [] := by
      rcases among with ready | asleep
      · obtain ⟨t, mem, _⟩ := List.any_eq_true.1 (due d ready)
        exact List.ne_nil_of_mem mem
      · exact h.timers d asleep
    obtain ⟨t, mem⟩ := List.exists_mem_of_ne_nil _ timers
    exact ⟨t.due, .inr ⟨d, among, t, mem, Nat.le_refl _⟩⟩

omit [Outbox σ] in
theorem hopeful_wake {time now : Instant} {b : Batch} :
    (b.wake now).Hopeful time ↔ b.Hopeful time := by
  simp only [Hopeful, mem_wake]

theorem Wakeful.goesOn {s : RelayState σ} {b : Batch} (h : Wakeful (s, b)) {time : Instant}
    (hope : b.Hopeful time) (come : time.nanos ≤ s.now.nanos) (stopped : b.step relay s = none) :
    b.isOver := by
  have ready := ready_eq_nil_of_step stopped
  have asleep : b.asleep = [] := by
    rcases hope with nobody | ⟨d, among, t, mem, before⟩
    · exact List.eq_nil_iff_forall_not_mem.2 fun d asleep => nobody d (.inr asleep)
    · have due : d.isDue s.now :=
        List.any_eq_true.2 ⟨t, mem, (t.isDue_iff s.now).2 (Nat.le_trans before come)⟩
      rcases among with queued | sleeps
      · rw [ready] at queued
        exact absurd queued List.not_mem_nil
      · rw [h.early d sleeps] at due
        cases due
  have quiet : b.nextDue = none := by simp [nextDue, Batch.timers, asleep]
  have pending := pending_eq_nil_of_stopped ⟨stopped, quiet⟩ asleep
  simp [isOver, pending, ready, asleep]

theorem work_drain_lt {s : RelayState σ} {b : Batch} (busy : b.step relay s ≠ none)
    (due : ∀ d ∈ b.ready, d.isDue s.now) : (b.drain relay s).2.work relay < b.work relay := by
  rw [drain]
  split
  · rename_i s' b' step
    have less := (step_measure step).2 fun d first => due d (List.mem_of_mem_head? first)
    exact Nat.lt_of_le_of_lt (work_drain_le relay s' b') less
  · rename_i stopped
    exact absurd stopped busy

end Batch

end OutboxRelay
