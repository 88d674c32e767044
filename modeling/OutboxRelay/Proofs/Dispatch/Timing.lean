import OutboxRelay.Proofs.Dispatch.BatchMoves
import OutboxRelay.Proofs.Dispatch.DeliveryStep

/-! Timers are met to the instant. The clock only moves when every delivery waits, and then to the
first of their timers, so no timer is ever in the past: an attempt that runs out of its budget ends
at the very end of it, and every other attempt ends within it. A delivery that waits has a timer,
so a batch that stops has none left. -/

namespace OutboxRelay

theorem Instant.le_timerAfter (t : Instant) (d : Duration) :
    t.nanos ≤ (t.timerAfter d).nanos :=
  Nat.le_trans (Nat.le_add_right t.nanos d.nanos) (le_roundUp (t.add d))

theorem Timer.isDue_iff (t : Timer) (now : Instant) : t.isDue now ↔ t.due.nanos ≤ now.nanos := by
  simp [isDue, Instant.le]

/-- The budget of an attempt is not over, and the clock stands still until its end is set. -/
structure Attempt.OnTime (a : Attempt) (budget : Duration) (now : Instant) : Prop where
  begun : a.started.nanos ≤ now.nanos
  within : now.nanos ≤ (a.started.timerAfter budget).nanos
  armed : ∀ t ∈ a.deadline, t.due = a.started.timerAfter budget
  unarmed : a.deadline = none → now = a.started

namespace Delivery

variable {σ : Type} {relay : Relay} {s s' : RelayState σ} {d d' : Delivery} {now : Instant}

structure TimelyFlight (a : Attempt) (f : Flight) (budget : Duration) (now : Instant) : Prop where
  attempt : a.OnTime budget now
  answer : ∀ x ∈ f.answer, now.nanos ≤ x.1.due.nanos
  atOnce : a.deadline = none → ∃ x ∈ f.answer, x.1.isDue now

def Timely (relay : Relay) (now : Instant) (d : Delivery) : Prop :=
  match d.stage with
  | .sending a => a.OnTime relay.plan.publishTimeout now
  | .awaiting a f => TimelyFlight a f relay.plan.publishTimeout now
  | .pausing timer => now.nanos ≤ timer.due.nanos
  | .beginning | .settling _ => True

theorem timely_of_concluded {result : Except PublishError Unit}
    (h : Concluded relay now d result d') : d'.Timely relay now := by
  cases h with
  | settling => trivial
  | again => trivial
  | pausing _ _ _ due =>
    have later := now.le_timerAfter (relay.retry.delayAfter d.attempt)
    simpa [Timely, due] using later

theorem timely_of_awaits {a : Attempt} {reaction : Reaction Receipt} {deadline : Option Timer}
    {f : Flight} (awaits : Awaits relay a now reaction f.answer deadline)
    (h : a.OnTime relay.plan.publishTimeout now) :
    TimelyFlight { a with deadline := deadline } f relay.plan.publishTimeout now := by
  refine ⟨⟨h.begun, h.within, fun t ht => ?_, fun none => ?_⟩, fun x hx => ?_, fun none => ?_⟩
  · rcases awaits.armed with eq | ⟨_, timer, eq, due⟩
    · exact h.armed t (eq ▸ ht)
    · cases eq ▸ ht
      exact due
  · rcases awaits.armed with eq | ⟨_, timer, eq, _⟩
    · exact h.unarmed (eq ▸ none)
    · cases eq ▸ none
  · have comes := awaits.comes
    split at comes
    · cases comes ▸ hx
    · obtain ⟨timer, due, eq⟩ := comes
      cases eq ▸ hx
      rw [due]
      exact Nat.le_add_right _ _
  · obtain ⟨timer, reply, eq, due⟩ := awaits.atOnce none
    exact ⟨_, eq, due⟩

theorem now_of_next (h : Next relay s d s' d') : s'.now = s.now := by
  cases h <;> rfl

theorem timely_of_next (h : Next relay s d s' d') (timely : d.Timely relay s.now) :
    d'.Timely relay s.now := by
  cases h with
  | refused _ _ concluded => exact timely_of_concluded concluded
  | admitted stage admits =>
    have later := s.now.le_timerAfter relay.plan.publishTimeout
    exact ⟨Nat.le_refl _, later, nofun, fun _ => rfl⟩
  | @handed a _ rest _ _ _ _ _ stage _ _ awaits =>
    simp only [Timely, stage] at timely ⊢
    exact timely_of_awaits (a := { a with targets := rest }) (f := ⟨_, _, _, _, _⟩)
      ⟨awaits.comes, awaits.armed, awaits.atOnce⟩
      ⟨timely.begun, timely.within, timely.armed, timely.unarmed⟩
  | completed _ _ concluded => exact timely_of_concluded concluded
  | accepted stage _ _ _ =>
    simp only [Timely, stage] at timely
    exact timely.attempt
  | failed stage _ _ _ _ =>
    simp only [Timely, stage] at timely
    have attempt := timely.attempt
    exact ⟨attempt.begun, attempt.within, attempt.armed, attempt.unarmed⟩
  | copied stage _ _ _ _ _ awaits =>
    simp only [Timely, stage] at timely ⊢
    exact timely_of_awaits awaits timely.attempt
  | copyAnswered stage _ _ _ =>
    simp only [Timely, stage] at timely
    have attempt := timely.attempt
    exact ⟨attempt.begun, attempt.within, attempt.armed, attempt.unarmed⟩
  | timedOut _ _ _ _ concluded => exact timely_of_concluded concluded
  | resumed _ _ => trivial

theorem now_of_timedOut {a : Attempt} {f : Flight} {deadline : Timer}
    (timely : d.Timely relay now) (stage : d.stage = .awaiting a f)
    (budget : a.deadline = some deadline) (spent : deadline.isDue now) :
    now = a.started.timerAfter relay.plan.publishTimeout := by
  simp only [Timely, stage] at timely
  have armed := timely.attempt.armed deadline budget
  have within := timely.attempt.within
  rw [Timer.isDue_iff, armed] at spent
  have nanos := Nat.le_antisymm within spent
  cases now
  exact congrArg Instant.mk nanos

/-- A delivery that waits: it has a timer, and none is due. -/
structure Resting (relay : Relay) (now : Instant) (d : Delivery) : Prop where
  timely : d.Timely relay now
  early : d.isDue now = false
  timers : d.timers ≠ []

theorem resting_of_step_waits [Outbox σ] (h : d.step relay s = .waits)
    (timely : d.Timely relay s.now) : d.Resting relay s.now := by
  refine ⟨timely, Bool.eq_false_iff.2 fun due => step_ne_waits_of_isDue due h, ?_⟩
  · rcases stage_of_step_waits h with ⟨a, f, stage⟩ | ⟨timer, stage⟩
    · simp only [Timely, stage] at timely
      simp only [timers, stage]
      cases deadline : a.deadline with
      | some timer => simp
      | none =>
        obtain ⟨x, hx, _⟩ := timely.atOnce deadline
        have answer : f.answer = some x := hx
        simp [answer]
    · simp [timers, stage]

theorem lt_due_of_resting (h : d.Resting relay now) {t : Timer} (mem : t ∈ d.timers) :
    now.nanos < t.due.nanos := by
  have early := h.early
  simp only [isDue, List.any_eq_false] at early
  have notDue := early t mem
  rw [Timer.isDue_iff] at notDue
  omega

theorem timely_of_resting {later : Instant} (h : d.Resting relay now)
    (le : now.nanos ≤ later.nanos) (first : ∀ t ∈ d.timers, later.nanos ≤ t.due.nanos) :
    d.Timely relay later := by
  have timely := h.timely
  unfold Timely at timely ⊢
  split at timely
  · rename_i a stage
    exact absurd (by simp [timers, stage]) h.timers
  · rename_i a f stage
    -- without a deadline the answer would be there at once, and nothing would rest
    have armed : a.deadline ≠ none := fun none => by
      obtain ⟨x, hx, due⟩ := timely.atOnce none
      have mem : x.1 ∈ d.timers := by
        have answer : f.answer = some x := hx
        simp [timers, stage, answer]
      have lt := lt_due_of_resting h mem
      rw [Timer.isDue_iff] at due
      omega
    obtain ⟨timer, deadline⟩ := Option.ne_none_iff_exists'.1 armed
    refine ⟨⟨?_, ?_, timely.attempt.armed, fun none => absurd none armed⟩, fun x hx => ?_,
      fun none => absurd none armed⟩
    · exact Nat.le_trans timely.attempt.begun le
    · rw [← timely.attempt.armed timer deadline]
      exact first timer (by simp [timers, stage, deadline])
    · have answer : f.answer = some x := hx
      exact first x.1 (by simp [timers, stage, answer])
  · rename_i timer stage
    exact first timer (by simp [timers, stage])
  · trivial
  · trivial

end Delivery

namespace Batch

variable {σ : Type} [Outbox σ] {relay : Relay}

structure Timely (relay : Relay) (x : RelayState σ × Batch) : Prop where
  ready : ∀ d ∈ x.2.ready, d.Timely relay x.1.now
  asleep : ∀ d ∈ x.2.asleep, d.Resting relay x.1.now

theorem le_due_of_nextDue {b : Batch} {due : Instant} {d : Delivery} {t : Timer}
    (next : b.nextDue = some due) (asleep : d ∈ b.asleep) (mem : t ∈ d.timers) :
    due.nanos ≤ t.due.nanos := by
  obtain ⟨nanos, least, rfl⟩ := Option.map_eq_some_iff.1 next
  have among : t.due.nanos ∈ b.timers.map (·.due.nanos) :=
    List.mem_map_of_mem (List.mem_flatMap.2 ⟨d, asleep, mem⟩)
  exact (List.min?_eq_some_iff.1 least).2 _ among

theorem timely_of_move {x y : RelayState σ × Batch} (move : Move relay x y)
    (h : Timely relay x) : Timely relay y := by
  cases move with
  | @takeUp s b event pending _ _ =>
    refine ⟨fun d hd => ?_, h.asleep⟩
    rcases List.mem_append.1 hd with old | new
    · exact h.ready d old
    · cases List.mem_singleton.1 new
      trivial
  | @goOn s b d rest s' d' first next =>
    have step := Delivery.next_of_step next
    have now := Delivery.now_of_next step
    have ready : ∀ x ∈ d :: rest, x.Timely relay s.now := fun x hx => h.ready x (first ▸ hx)
    refine ⟨fun x hx => ?_, fun x hx => ?_⟩
    · rw [now]
      rcases List.mem_cons.1 hx with rfl | old
      · exact Delivery.timely_of_next step (ready d List.mem_cons_self)
      · exact ready x (List.mem_cons_of_mem _ old)
    · rw [now]
      exact h.asleep x hx
  | @sleep s b d rest first waits =>
    have ready : ∀ x ∈ d :: rest, x.Timely relay s.now := fun x hx => h.ready x (first ▸ hx)
    refine ⟨fun x hx => ready x (List.mem_cons_of_mem _ hx), fun x hx => ?_⟩
    rcases List.mem_append.1 hx with old | new
    · exact h.asleep x old
    · cases List.mem_singleton.1 new
      exact Delivery.resting_of_step_waits waits (ready d List.mem_cons_self)
  | @settle s b d rest s' outcome first settled =>
    obtain ⟨result, _, settle⟩ := Delivery.settling_of_step settled
    obtain ⟨⟨clock, journal, rfl⟩, _⟩ := Delivery.settle_spec settle
    exact ⟨fun x hx => h.ready x (first ▸ List.mem_cons_of_mem _ hx), h.asleep⟩
  | @wake s b due stopped next =>
    have le : s.now.nanos ≤ (s.now.max due).nanos := by
      rw [Instant.max_nanos]
      exact Nat.le_max_left _ _
    have timely : ∀ d ∈ b.asleep, d.Timely relay (s.now.max due) := fun d hd =>
      Delivery.timely_of_resting (h.asleep d hd) le fun t ht => by
        have least := le_due_of_nextDue next hd ht
        have lt := Delivery.lt_due_of_resting (h.asleep d hd) ht
        rw [Instant.max_nanos]
        exact Nat.max_le.2 ⟨Nat.le_of_lt lt, least⟩
    refine ⟨fun d hd => ?_, fun d hd => ?_⟩
    · rw [wake, ready_eq_nil_of_step stopped, List.nil_append] at hd
      have woken := (List.mergeSort_perm _ _).mem_iff.1 hd
      exact timely d (List.mem_filter.1 woken).1
    · obtain ⟨old, early⟩ := List.mem_filter.1 hd
      exact ⟨timely d old, by simpa using early, (h.asleep d old).timers⟩

omit [Outbox σ] in
theorem timely_ofEvents (s : RelayState σ) (events : List Event) :
    Timely relay (s, ofEvents events) := by
  constructor <;> intro d hd <;> cases hd

/-- A batch that no limit stops comes to its end. -/
theorem isOver_runTo (relay : Relay) (s : RelayState σ) (events : List Event) :
    ((ofEvents events).runTo relay none s).2.isOver := by
  have timely := (moves_runTo relay none s (ofEvents events)).keep (Timely relay)
    (fun _ _ move => timely_of_move move) (timely_ofEvents s events)
  have stopped := stopped_runTo relay s (ofEvents events)
  have ready := ready_eq_nil_of_step stopped.step
  have asleep : ((ofEvents events).runTo relay none s).2.asleep = [] := by
    refine List.eq_nil_iff_forall_not_mem.2 fun d hd => ?_
    obtain ⟨t, ht⟩ := List.exists_mem_of_ne_nil _ (timely.asleep d hd).timers
    have mem := List.mem_flatMap.2 ⟨d, hd, ht⟩
    have none := stopped.nextDue
    rw [nextDue, Option.map_eq_none_iff, List.min?_eq_none_iff, List.map_eq_nil_iff] at none
    rw [timers] at none
    rw [none] at mem
    cases mem
  have pending := pending_eq_nil_of_stopped stopped asleep
  simp [isOver, pending, ready, asleep]

end Batch

end OutboxRelay
