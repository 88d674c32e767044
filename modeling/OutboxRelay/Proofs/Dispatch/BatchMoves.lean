import Mathlib.Logic.Relation
import OutboxRelay.Dispatch.Batch

/-! A batch at work is a sequence of small moves: an event is taken up, the first delivery of the
queue takes one step, falls asleep or is settled, or the clock goes on to the next timer once
nothing else can go on. What every move keeps holds at the end of a batch, and a batch that no
limit stops ends with no timer set and nothing that could go on. No move puts off the start of an
event for which there is room: those that a batch makes are turns. -/

namespace OutboxRelay.Batch

variable {σ : Type} [Outbox σ]

inductive Move (relay : Relay) : RelayState σ × Batch → RelayState σ × Batch → Prop
  | takeUp {s b event pending} (first : b.pending = event :: pending)
      (room : b.inFlight < relay.plan.width) :
      Move relay (s, b) ((Delivery.start s event).1,
        { b with pending := pending, ready := b.ready ++ [(Delivery.start s event).2] })
  | goOn {s b d rest s' d'} (first : b.ready = d :: rest) (next : d.step relay s = .next s' d') :
      Move relay (s, b) (s', { b with ready := d' :: rest })
  | sleep {s b d rest} (first : b.ready = d :: rest) (waits : d.step relay s = .waits) :
      Move relay (s, b) (s, { b with ready := rest, asleep := b.asleep ++ [d] })
  | settle {s b d rest s' outcome} (first : b.ready = d :: rest)
      (settled : d.step relay s = .settled s' outcome) :
      Move relay (s, b) (s'.note (outcomeJournal outcome),
        { b with ready := rest, outcomes := b.outcomes ++ [outcome] })
  | wake {s b due} (rest : b.step relay s = none) (next : b.nextDue = some due) :
      Move relay (s, b) ({ s with now := s.now.max due }, b.wake (s.now.max due))

def Moves (relay : Relay) : RelayState σ × Batch → RelayState σ × Batch → Prop :=
  Relation.ReflTransGen (Move relay)

theorem Moves.keep {relay : Relay} {x y : RelayState σ × Batch} (moves : Moves relay x y)
    (kept : RelayState σ × Batch → Prop) (one : ∀ x y, Move relay x y → kept x → kept y)
    (h : kept x) : kept y := by
  induction moves with
  | refl => exact h
  | tail _ move ih => exact one _ _ move ih

/-- No event can be taken up: all of them have been, or there is no room. -/
def Full (relay : Relay) (b : Batch) : Prop := b.pending = [] ∨ relay.plan.width ≤ b.inFlight

/-- A move that puts off no start. Where there is room for an event, it takes one up. -/
structure Turn (relay : Relay) (x y : RelayState σ × Batch) : Prop where
  move : Move relay x y
  eager : Full relay x.2 ∨ ∃ event, x.2.pending = event :: y.2.pending

def Turns (relay : Relay) : RelayState σ × Batch → RelayState σ × Batch → Prop :=
  Relation.ReflTransGen (Turn relay)

theorem Turns.moves {relay : Relay} {x y : RelayState σ × Batch} (turns : Turns relay x y) :
    Moves relay x y :=
  turns.lift id fun _ _ turn => turn.move

theorem turns_runFirst {relay : Relay} {s : RelayState σ} {b : Batch} {d : Delivery}
    {rest : List Delivery} (full : Full relay b) (first : b.ready = d :: rest) :
    Turns relay (s, b) (runFirst relay s b d rest) := by
  fun_induction Delivery.run relay s d generalizing b with
  | case1 s d s' d' step ih =>
    have same : runFirst relay s b d rest =
        runFirst relay s' { b with ready := d' :: rest } d' rest := by
      unfold runFirst
      rw [Delivery.run, step]
    -- as many deliveries are in flight as before
    have still : Full relay { b with ready := d' :: rest } := by
      unfold Full inFlight at full ⊢
      rwa [first] at full
    rw [same]
    exact .head ⟨.goOn first step, .inl full⟩ (ih still rfl)
  | case2 s d step =>
    have run : d.run relay s = (s, .inl d) := by rw [Delivery.run, step]
    unfold runFirst
    rw [run]
    exact .single ⟨.sleep first step, .inl full⟩
  | case3 s d s' outcome step =>
    have run : d.run relay s = (s', .inr outcome) := by rw [Delivery.run, step]
    unfold runFirst
    rw [run]
    exact .single ⟨.settle first step, .inl full⟩

theorem turns_step {relay : Relay} {s s' : RelayState σ} {b b' : Batch}
    (h : b.step relay s = some (s', b')) : Turns relay (s, b) (s', b') := by
  have first (full : Full relay b)
      (h : b.ready.head?.map (fun d => runFirst relay s b d b.ready.tail) = some (s', b')) :
      Turns relay (s, b) (s', b') := by
    obtain ⟨d, head, eq⟩ := Option.map_eq_some_iff.1 h
    obtain ⟨rest, ready⟩ := List.head?_eq_some_iff.1 head
    rw [← eq, ready]
    exact turns_runFirst full ready
  unfold step at h
  split at h
  · rename_i event pending waiting
    split at h
    · rename_i room
      cases h
      exact .single ⟨.takeUp waiting room, .inr ⟨event, waiting⟩⟩
    · rename_i full
      exact first (.inr (Nat.le_of_not_lt full)) h
  · rename_i none
    exact first (.inl none) h

theorem turns_drain (relay : Relay) (s : RelayState σ) (b : Batch) :
    Turns relay (s, b) (b.drain relay s) := by
  fun_induction drain relay s b with
  | case1 s b s' b' h ih => exact (turns_step h).trans ih
  | case2 s b h => exact .refl

theorem full_of_step_eq_none {relay : Relay} {s : RelayState σ} {b : Batch}
    (stopped : b.step relay s = none) : Full relay b := by
  unfold step at stopped
  split at stopped
  · split at stopped
    · cases stopped
    · rename_i full
      exact .inr (Nat.le_of_not_lt full)
  · rename_i none
    exact .inl none

theorem turns_follow {relay : Relay} {s : RelayState σ} {b : Batch} {rest : b.ready = []}
    (stopped : b.step relay s = none) (limit : Option Instant) :
    Turns relay (s, b) (follow relay limit s b rest) := by
  fun_induction follow relay limit s b rest with
  | case1 s b rest none => exact .refl
  | case2 s b rest due next before ih =>
    have woken : Turns relay (s, b) (b.advance relay s due) :=
      .head ⟨.wake stopped next, .inl (full_of_step_eq_none stopped)⟩ (turns_drain ..)
    exact woken.trans (ih (step_drain ..))
  | case3 s b rest due next after => exact .refl

theorem turns_runTo (relay : Relay) (limit : Option Instant) (s : RelayState σ) (b : Batch) :
    Turns relay (s, b) (b.runTo relay limit s) :=
  (turns_drain relay s b).trans (turns_follow (step_drain ..) limit)

theorem moves_drain (relay : Relay) (s : RelayState σ) (b : Batch) :
    Moves relay (s, b) (b.drain relay s) := (turns_drain relay s b).moves

theorem moves_runTo (relay : Relay) (limit : Option Instant) (s : RelayState σ) (b : Batch) :
    Moves relay (s, b) (b.runTo relay limit s) := (turns_runTo relay limit s b).moves

structure Stopped (relay : Relay) (s : RelayState σ) (b : Batch) : Prop where
  step : b.step relay s = none
  nextDue : b.nextDue = none

theorem stopped_follow {relay : Relay} {s : RelayState σ} {b : Batch} {rest : b.ready = []}
    (stopped : b.step relay s = none) :
    Stopped relay (follow relay none s b rest).1 (follow relay none s b rest).2 := by
  generalize hl : (none : Option Instant) = limit
  fun_induction follow relay limit s b rest with
  | case1 s b rest none => exact ⟨stopped, none⟩
  | case2 s b rest due next before ih => exact ih (step_drain ..)
  | case3 s b rest due next after => subst hl; simp at after

theorem stopped_runTo (relay : Relay) (s : RelayState σ) (b : Batch) :
    Stopped relay (b.runTo relay none s).1 (b.runTo relay none s).2 :=
  stopped_follow (step_drain ..)

theorem pending_eq_nil_of_stopped {relay : Relay} {s : RelayState σ} {b : Batch}
    (h : Stopped relay s b) (asleep : b.asleep = []) : b.pending = [] := by
  refine (full_of_step_eq_none h.step).resolve_right fun full => ?_
  have width : 0 < relay.plan.width := Nat.le_max_right ..
  rw [inFlight, ready_eq_nil_of_step h.step, asleep] at full
  exact Nat.not_le_of_lt width full

end OutboxRelay.Batch
