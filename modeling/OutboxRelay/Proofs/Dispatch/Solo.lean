import OutboxRelay.Proofs.Dispatch.Calm
import OutboxRelay.Proofs.Dispatch.Twin

/-! Every event of a batch is dispatched as if it were alone. As long as the circuit is closed and
the brokers only look at how often an event was sent before, each delivery follows the way that its
event would take by itself from the same fraction of a millisecond on, however long it waits for its
turn. -/

namespace OutboxRelay

/-- The state with its clock as far into a millisecond as `t` is. -/
def RelayState.atFraction {σ : Type} (s : RelayState σ) (t : Instant) : RelayState σ :=
  { s with now := t.fraction }

namespace Delivery

variable {σ : Type} [Outbox σ]

def onward (relay : Relay) (x : RelayState σ × Delivery) : Option (RelayState σ × Delivery) :=
  match x.2.step relay { x.1 with breaker := .initial } with
  | .next s d => some (s, d)
  | .waits => x.2.nextDue.map fun due => ({ x.1 with now := x.1.now.max due }, x.2)
  | .settled _ _ => none

/-- Where an event comes to that is taken up in `since` and has the dispatcher to itself. -/
def Station (relay : Relay) (since : RelayState σ) (e : Event) : RelayState σ × Delivery → Prop :=
  Relation.ReflTransGen (fun x y => onward relay x = some y) (Delivery.start since e)

variable {relay : Relay} {since : RelayState σ} {e : Event} {x y : RelayState σ × Delivery}

omit [Outbox σ] in
theorem start_eq (s : RelayState σ) (e : Event) :
    start s e = ({ s with ids := (Outgoing.headers e s.ids).2 },
      ⟨e, (Outgoing.headers e s.ids).1, s.now, 1, [], .beginning⟩) := by
  unfold start
  generalize Outgoing.headers e s.ids = x
  rfl

theorem onward_of_settling {result : Except PublishError Unit} (h : x.2.stage = .settling result) :
    onward relay x = none := by
  unfold onward Delivery.step
  rw [h]

theorem Station.unique (hx : Station relay since e x) (hy : Station relay since e y)
    {result result' : Except PublishError Unit} (endX : x.2.stage = .settling result)
    (endY : y.2.stage = .settling result') : x = y := by
  -- of two ways from one start, the longer one would have to go on where the shorter one ends
  have deterministic : Relator.RightUnique fun x y : RelayState σ × Delivery =>
      onward relay x = some y := fun a b c hb hc => Option.some.inj (hb.symm.trans hc)
  have stays {a b : RelayState σ × Delivery} {result : Except PublishError Unit}
      (ends : a.2.stage = .settling result)
      (way : Relation.ReflTransGen (fun x y => onward relay x = some y) a b) : a = b := by
    rcases way.cases_head with same | ⟨c, step, _⟩
    · exact same
    · rw [onward_of_settling ends] at step
      cases step
  rcases Relation.ReflTransGen.total_of_right_unique deterministic hx hy with way | way
  · exact stays endX way
  · exact (stays endY way).symm

end Delivery

namespace Batch

variable {σ : Type} [Outbox σ]

/-- A delivery of a batch that was begun in `since`, and where its event would be alone. -/
structure Shadow (relay : Relay) (since : RelayState σ) (events : List Event) (s : RelayState σ)
    (d : Delivery) (y : RelayState σ × Delivery) : Prop where
  claimed : d.event ∈ events
  station : Delivery.Station relay (since.atFraction d.started) d.event y
  twin : Delivery.Twin since.calls.length (s, d) y

structure ShadowReady (relay : Relay) (since : RelayState σ) (events : List Event)
    (s : RelayState σ) (d : Delivery) (y : RelayState σ × Delivery) : Prop extends
    Shadow relay since events s d y where
  clock : Instant.SameAge d.started y.2.started s.now y.1.now

structure ShadowAsleep (relay : Relay) (since : RelayState σ) (events : List Event)
    (s : RelayState σ) (d : Delivery) (y : RelayState σ × Delivery) : Prop extends
    Shadow relay since events s d y where
  waits : y.2.step relay { y.1 with breaker := .initial } = .waits
  clock : y.1.now.nanos + d.started.nanos ≤ s.now.nanos + y.2.started.nanos

structure ShadowSettled (relay : Relay) (since : RelayState σ) (events : List Event)
    (s : RelayState σ) (o : Outcome) (e : Event) (y : RelayState σ × Delivery) : Prop where
  claimed : e ∈ events
  event : e.id = o.event
  station : Delivery.Station relay (since.atFraction o.started) e y
  result : ∃ result, y.2.stage = .settling result ∧
    ∀ mark, o.result = .ok mark → mark = .ofResult result
  clock : Instant.SameAge o.started y.2.started o.ended y.1.now
  calls : CallsAlike e.Draws o.started y.2.started
    ((ownCalls since.calls.length o.event s.calls).map (·.1))
    ((ownCalls since.calls.length o.event y.1.calls).map (·.1))

structure Elsewhere (base : Nat) (event : Int) (s s' : RelayState σ) : Prop where
  now : s'.now = s.now
  known : s.calls.length ≤ s'.calls.length
  own : ownCalls base event s'.calls = ownCalls base event s.calls
  tally : ∀ target isCopy, tally s'.calls event target isCopy = tally s.calls event target isCopy

variable {relay : Relay} {since s s' : RelayState σ} {events : List Event} {d d' : Delivery}
  {y : RelayState σ × Delivery} {o : Outcome} {e : Event}

omit [Outbox σ] in
theorem twin_elsewhere {base : Nat} (twin : Delivery.Twin base (s, d) y)
    (h : Elsewhere base d.event.id s s') : Delivery.Twin base (s', d) y := by
  obtain ⟨kin, stage, awaits, awaits'⟩ := twin
  dsimp only at kin awaits
  refine ⟨{ kin with known := ?_, tally := fun target isCopy => ?_, own := ?_ }, stage, ?_, awaits'⟩
  · exact Nat.le_trans kin.known h.known
  · exact (h.tally target isCopy).trans (kin.tally target isCopy)
  · dsimp only
    rw [h.own]
    exact kin.own
  · dsimp only
    rw [h.own]
    exact awaits

theorem Shadow.elsewhere (shadow : Shadow relay since events s d y)
    (h : Elsewhere since.calls.length d.event.id s s') : Shadow relay since events s' d y :=
  ⟨shadow.claimed, shadow.station, twin_elsewhere shadow.twin h⟩

theorem ShadowReady.elsewhere (shadow : ShadowReady relay since events s d y)
    (h : Elsewhere since.calls.length d.event.id s s') : ShadowReady relay since events s' d y :=
  ⟨shadow.toShadow.elsewhere h, h.now ▸ shadow.clock⟩

theorem ShadowAsleep.elsewhere (shadow : ShadowAsleep relay since events s d y)
    (h : Elsewhere since.calls.length d.event.id s s') : ShadowAsleep relay since events s' d y :=
  ⟨shadow.toShadow.elsewhere h, shadow.waits, h.now ▸ shadow.clock⟩

theorem ShadowReady.alike_step (shadow : ShadowReady relay since events s d y)
    (regular : relay.Regular d.event) (closed : s.breaker.circuit = .closed) :
    Delivery.Move.Alike since.calls.length (d.step relay s)
      (y.2.step relay { y.1 with breaker := .initial }) :=
  Delivery.alike_step regular (shadow.twin.of_calls rfl rfl) shadow.clock closed rfl

theorem ShadowReady.goOn (shadow : ShadowReady relay since events s d y)
    (regular : relay.Regular d.event) (closed : s.breaker.circuit = .closed)
    (step : d.step relay s = .next s' d') :
    ∃ y', ShadowReady relay since events s' d' y' := by
  have alike := shadow.alike_step regular closed
  rw [step] at alike
  obtain ⟨y', step', twin'⟩ := alike.of_next
  have onward : Delivery.onward relay y = some y' := by
    unfold Delivery.onward
    rw [step']
  have next := Delivery.next_of_step step
  have next' := Delivery.next_of_step step'
  refine ⟨y', ⟨⟨?_, ?_, twin'⟩, ?_⟩⟩
  · rw [Delivery.event_of_next next]
    exact shadow.claimed
  · rw [Delivery.event_of_next next, Delivery.started_of_next next]
    exact shadow.station.tail onward
  · rw [Delivery.now_of_next next, Delivery.started_of_next next, Delivery.now_of_next next',
      Delivery.started_of_next next']
    exact shadow.clock

theorem ShadowReady.sleep (shadow : ShadowReady relay since events s d y)
    (regular : relay.Regular d.event) (closed : s.breaker.circuit = .closed)
    (waits : d.step relay s = .waits) :
    ShadowAsleep relay since events s d y := by
  have alike := shadow.alike_step regular closed
  rw [waits] at alike
  exact ⟨shadow.toShadow, alike.of_waits, Nat.le_of_eq shadow.clock.symm⟩

theorem ShadowReady.settle (shadow : ShadowReady relay since events s d y)
    (step : d.step relay s = .settled s' o) :
    ShadowSettled relay since events s' o d.event y := by
  obtain ⟨result, stage, settle⟩ := Delivery.settling_of_step step
  obtain ⟨⟨clock, journal, rfl⟩, rfl⟩ := Delivery.settle_spec settle
  have stages := shadow.twin.stage
  dsimp only at stages
  rw [stage] at stages
  refine ⟨shadow.claimed, rfl, shadow.station, ⟨result, ?_, ?_⟩, shadow.clock, shadow.twin.kin.own⟩
  · generalize y.2.stage = stage' at stages ⊢
    cases stages
    rfl
  · intro mark reply
    dsimp only at reply
    cases answer : (d.settleReply s result).result with
    | ok _ =>
      rw [answer] at reply
      cases reply
      rfl
    | error _ =>
      rw [answer] at reply
      cases reply

theorem ShadowAsleep.wake (shadow : ShadowAsleep relay since events s d y) {now : Instant}
    (le : s.now.nanos ≤ now.nanos) (fires : d.isDue now)
    (first : ∀ t ∈ d.timers, now.nanos ≤ t.due.nanos) :
    ∃ y', ShadowReady relay since events { s with now := now } d y' := by
  obtain ⟨due, next, same⟩ := Delivery.alike_nextDue shadow.twin.stage fires first
  -- alone no more time has passed than among the others, so the timer is not behind the clock
  have later : y.1.now.nanos ≤ due.nanos := by
    have clock := shadow.clock
    unfold Instant.SameAge at same
    dsimp only at same
    omega
  have reached : y.1.now.max due = due := if_pos (decide_eq_true later)
  have onward : Delivery.onward relay y = some ({ y.1 with now := due }, y.2) := by
    unfold Delivery.onward
    rw [shadow.waits]
    dsimp only
    rw [next, Option.map_some, reached]
  exact ⟨_, ⟨⟨shadow.claimed, shadow.station.tail onward, shadow.twin.of_calls rfl rfl⟩, same⟩⟩

theorem ShadowAsleep.rest (shadow : ShadowAsleep relay since events s d y) {now : Instant}
    (le : s.now.nanos ≤ now.nanos) : ShadowAsleep relay since events { s with now := now } d y := by
  exact ⟨⟨shadow.claimed, shadow.station, shadow.twin.of_calls rfl rfl⟩, shadow.waits,
    Nat.le_trans shadow.clock (Nat.add_le_add_right le _)⟩

/-! ### The batch -/

section Moves

variable {b : Batch} {rest : List Delivery}

end Moves

end Batch

end OutboxRelay
