import OutboxRelay.Proofs.Dispatch.Acceptance

/-! From the steps of one delivery to whole batches. What each step of a delivery keeps, in the
light of the calls and attempts of its event, holds of every delivery of a batch until its event is
settled, whatever the deliveries of other events do in between. -/

namespace OutboxRelay

namespace RelayState

variable {σ : Type} {since s : RelayState σ}

theorem ownCalls_map_fst_eq_callsSince (since s : RelayState σ) (event : Int) :
    (ownCalls since.calls.length event s.calls).map (·.1) = since.callsSince s event :=
  ownCalls_map_fst ..

theorem callsSince_of_sent {s' : RelayState σ} {c : Call} {event : Int}
    (h : since.calls.length ≤ s.calls.length) (sent : s'.calls = s.calls ++ [c])
    (same : c.event = event) : since.callsSince s' event = since.callsSince s event ++ [c] := by
  unfold callsSince
  rw [sent, List.drop_append_of_le_length h, List.filter_append]
  simp [same]

end RelayState

namespace Delivery

/-- It holds at the start of every delivery and is kept by each of its steps. -/
structure Kept (relay : Relay) (inv : List Call → List AttemptRecord → Delivery → Prop) : Prop where
  start : ∀ {σ : Type} (s : RelayState σ) (e : Event), inv [] [] (Delivery.start s e).2
  next : ∀ {σ : Type} {since s s' : RelayState σ} {d d' : Delivery}, Next relay s d s' d' →
    since.calls.length ≤ s.calls.length → since.attempts.length ≤ s.attempts.length →
    Recorded relay (ownCalls since.calls.length d.event.id s.calls)
      (since.attemptsSince s d.event.id) d →
    inv (since.callsSince s d.event.id) (since.attemptsSince s d.event.id) d →
    inv (since.callsSince s' d.event.id) (since.attemptsSince s' d.event.id) d'

end Delivery

namespace Batch

section Deliveries

variable {b : Batch} {d : Delivery} {rest : List Delivery}

theorem deliveries_takeUp (b : Batch) (pending : List Event) (d : Delivery) :
    ({ b with pending := pending, ready := b.ready ++ [d] } : Batch).deliveries.Perm
      (d :: b.deliveries) :=
  (List.perm_append_singleton d b.ready).append_right b.asleep

theorem deliveries_of_ready (first : b.ready = d :: rest) :
    b.deliveries = d :: ({ b with ready := rest } : Batch).deliveries := by
  simp [deliveries, first]

theorem deliveries_sleep (first : b.ready = d :: rest) :
    ({ b with ready := rest, asleep := b.asleep ++ [d] } : Batch).deliveries.Perm b.deliveries := by
  rw [deliveries_of_ready first]
  unfold deliveries
  rw [← List.append_assoc]
  exact List.perm_append_singleton d (rest ++ b.asleep)

theorem deliveries_of_move {σ : Type} [Outbox σ] {relay : Relay} {keeps : Delivery → Prop}
    (start : ∀ (s : RelayState σ) (e : Event), keeps (Delivery.start s e).2)
    (next : ∀ {s s' : RelayState σ} {d d' : Delivery}, Delivery.Next relay s d s' d' →
      keeps d → keeps d')
    {x y : RelayState σ × Batch} (move : Move relay x y) (h : ∀ d ∈ x.2.deliveries, keeps d) :
    ∀ d ∈ y.2.deliveries, keeps d := by
  intro x hx
  cases move with
  | @takeUp s b e pending _ _ =>
    rcases List.mem_cons.1 ((deliveries_takeUp b pending _).mem_iff.1 hx) with rfl | old
    · exact start s e
    · exact h x old
  | @goOn s b d rest s' d' first step =>
    rw [deliveries_of_ready first] at h
    rcases List.mem_cons.1 hx with rfl | old
    · exact next (Delivery.next_of_step step) (h d List.mem_cons_self)
    · exact h x (List.mem_cons_of_mem _ old)
  | sleep first _ => exact h x ((deliveries_sleep first).mem_iff.1 hx)
  | settle first _ =>
    rw [deliveries_of_ready first] at h
    exact h x (List.mem_cons_of_mem _ hx)
  | wake _ _ => exact h x ((deliveries_wake _ _).mem_iff.1 hx)

end Deliveries

variable {σ : Type} {relay : Relay} {inv : List Call → List AttemptRecord → Delivery → Prop}

/-- The events of a batch that was begun in `since`, in flight and settled. -/
structure Followed (relay : Relay) (inv : List Call → List AttemptRecord → Delivery → Prop)
    (since : RelayState (Ledger σ)) (x : RelayState (Ledger σ) × Batch) : Prop where
  inFlight : ∀ d ∈ x.2.deliveries,
    inv (since.callsSince x.1 d.event.id) (since.attemptsSince x.1 d.event.id) d
  settled : ∀ o ∈ x.2.outcomes, ∃ d result, d.event.id = o.event ∧ d.stage = .settling result ∧
    History relay (since.callsSince x.1 o.event) (since.attemptsSince x.1 o.event) ∧
    inv (since.callsSince x.1 o.event) (since.attemptsSince x.1 o.event) d

variable [Outbox σ] {since s s' : RelayState (Ledger σ)} {b : Batch} {new : List Mark}
  {d d' : Delivery} {rest : List Delivery}

omit [Outbox σ] in
theorem followed_takeUp (kept : Delivery.Kept relay inv) (told : Told relay since new (s, b))
    (h : Followed relay inv since (s, b)) {e : Event} {others : List Event}
    (first : b.pending = e :: others) :
    Followed relay inv since ((Delivery.start s e).1,
      { b with pending := others, ready := b.ready ++ [(Delivery.start s e).2] }) := by
  refine ⟨fun x hx => ?_, h.settled⟩
  rcases List.mem_cons.1 ((deliveries_takeUp b others _).mem_iff.1 hx) with rfl | old
  · obtain ⟨calls, attempts⟩ := told.pending e (first ▸ List.mem_cons_self)
    have none : since.callsSince s e.id = [] := by
      rw [← since.ownCalls_map_fst_eq_callsSince, calls]
      rfl
    have fresh := kept.start s e
    rw [← none, ← attempts] at fresh
    exact fresh
  · exact h.inFlight x old

omit [Outbox σ] in
theorem followed_others (s' : RelayState (Ledger σ)) (told : Told relay since new (s, b))
    (h : Followed relay inv since (s, b)) (first : b.ready = d :: rest)
    (calls : ∀ event, d.event.id ≠ event → since.callsSince s' event = since.callsSince s event)
    (attempts : ∀ event, d.event.id ≠ event →
      since.attemptsSince s' event = since.attemptsSince s event) :
    Followed relay inv since (s', { b with ready := rest }) := by
  have apart {id} (mem : id ∈ { b with ready := rest }.ids) : d.event.id ≠ id :=
    ne_of_mem_ids told.distinct first mem
  refine ⟨fun x hx => ?_, fun o ho => ?_⟩
  · have other := apart (id_mem_ids_of_delivery hx)
    rw [calls _ other, attempts _ other]
    exact h.inFlight x (deliveries_of_ready first ▸ List.mem_cons_of_mem _ hx)
  · have other := apart (List.mem_append_left _ (List.mem_map_of_mem ho))
    rw [calls _ other, attempts _ other]
    exact h.settled o ho

theorem followed_goOn (kept : Delivery.Kept relay inv) (told : Told relay since new (s, b))
    (h : Followed relay inv since (s, b)) (first : b.ready = d :: rest)
    (step : d.step relay s = .next s' d') :
    Followed relay inv since (s', { b with ready := d' :: rest }) := by
  have next := Delivery.next_of_step step
  have head : d ∈ b.deliveries := List.mem_append_left _ (first ▸ List.mem_cons_self)
  have recorded := told.inFlight d head
  have others := followed_others s' told h first
    (fun event other => by
      rw [← since.ownCalls_map_fst_eq_callsSince, ← since.ownCalls_map_fst_eq_callsSince,
        Delivery.ownCalls_of_next_other next recorded.awaitsLast other])
    (fun _ other => Delivery.ownAttempts_of_next_other next told.attempts other)
  refine ⟨fun x hx => ?_, others.settled⟩
  rcases List.mem_cons.1 hx with rfl | old
  · rw [Delivery.event_of_next next]
    exact kept.next next told.calls told.attempts recorded (h.inFlight d head)
  · exact others.inFlight x old

theorem followed_settle (told : Told relay since new (s, b)) (h : Followed relay inv since (s, b))
    (first : b.ready = d :: rest) {outcome : Outcome}
    (step : d.step relay s = .settled s' outcome) :
    Followed relay inv since (s'.note (outcomeJournal outcome),
      { b with ready := rest, outcomes := b.outcomes ++ [outcome] }) := by
  obtain ⟨result, stage, settle⟩ := Delivery.settling_of_step step
  have head : d ∈ b.deliveries := List.mem_append_left _ (first ▸ List.mem_cons_self)
  have recorded := (told.inFlight d head).stage
  unfold Delivery.StageRecorded at recorded
  rw [stage, since.ownCalls_map_fst_eq_callsSince] at recorded
  have others := followed_others s told h first (fun _ _ => rfl) (fun _ _ => rfl)
  obtain ⟨⟨clock, journal, rfl⟩, rfl⟩ := Delivery.settle_spec settle
  refine ⟨others.inFlight, fun o ho => ?_⟩
  rcases List.mem_append.1 ho with old | now
  · exact others.settled o old
  · cases List.mem_singleton.1 now
    exact ⟨d, result, rfl, stage, recorded.1, h.inFlight d head⟩

theorem followed_of_move (kept : Delivery.Kept relay inv)
    {x y : RelayState (Ledger σ) × Batch} (move : Move relay x y) (told : Told relay since new x)
    (h : Followed relay inv since x) : Followed relay inv since y := by
  cases move with
  | takeUp first _ => exact followed_takeUp kept told h first
  | goOn first step => exact followed_goOn kept told h first step
  | sleep first _ =>
    exact ⟨fun x hx => h.inFlight x ((deliveries_sleep first).mem_iff.1 hx), h.settled⟩
  | settle first step => exact followed_settle told h first step
  | wake _ _ => exact ⟨fun x hx => h.inFlight x ((deliveries_wake _ _).mem_iff.1 hx), h.settled⟩

theorem dispatched_kept (kept : Delivery.Kept relay inv) (targets : relay.targets ≠ [])
    (s : RelayState (Ledger σ)) {events : List Event} (distinct : (events.map (·.id)).Nodup)
    {e : Event} (claimed : e ∈ events) :
    ∃ d result, d.event.id = e.id ∧ d.stage = .settling result ∧
      History relay (s.callsSince (dispatched relay s events) e.id)
        (s.attemptsSince (dispatched relay s events) e.id) ∧
      inv (s.callsSince (dispatched relay s events) e.id)
        (s.attemptsSince (dispatched relay s events) e.id) d := by
  have begun : Followed relay inv s (s, ofEvents events) :=
    ⟨fun d hd => (by cases hd), fun o ho => (by cases ho)⟩
  obtain ⟨_, _, followed⟩ := (moves_runTo relay none s (ofEvents events)).keep
    (fun x => ∃ new, Told relay s new x ∧ Followed relay inv s x)
    (fun _ _ move ⟨_, told, followed⟩ =>
      have ⟨new, later⟩ := told_of_move targets move told
      ⟨new, later, followed_of_move kept move told followed⟩)
    ⟨[], told_ofEvents s distinct, begun⟩
  have each := outcomes_runTo relay s events
  obtain ⟨o, ho, same⟩ := List.mem_map.1 (each.mem_iff.2 (List.mem_map_of_mem claimed))
  obtain ⟨d, result, own, stage, known⟩ := followed.settled o ho
  rw [same] at own known
  exact ⟨d, result, own, stage, known⟩

end Batch

end OutboxRelay
