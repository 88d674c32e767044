import Mathlib.Data.List.Perm.Basic
import OutboxRelay.Proofs.Dispatch.Chronicle

/-! No event of a batch is lost and none is settled twice: the settled events, those in flight and
those not yet taken up are at all times the events that were claimed. -/

namespace OutboxRelay.Batch

variable {σ : Type} [Outbox σ] {relay : Relay}

def deliveries (b : Batch) : List Delivery := b.ready ++ b.asleep

def unsettled (b : Batch) : List Int := b.deliveries.map (·.event.id) ++ b.pending.map (·.id)

def ids (b : Batch) : List Int := b.outcomes.map (·.event) ++ b.unsettled

theorem ids_ofEvents (events : List Event) : (ofEvents events).ids = events.map (·.id) := rfl

theorem deliveries_wake (now : Instant) (b : Batch) :
    (b.wake now).deliveries.Perm b.deliveries := by
  have split : (b.woken now ++ b.asleep.filter fun d => !d.isDue now).Perm b.asleep :=
    (List.Perm.append_right _ (List.mergeSort_perm _ _)).trans (List.filter_append_perm _ _)
  unfold deliveries wake
  rw [List.append_assoc]
  exact split.append_left b.ready

omit [Outbox σ] in
theorem ids_takeUp {b : Batch} {event : Event} {pending : List Event} {s : RelayState σ}
    (first : b.pending = event :: pending) :
    ({ b with
      pending := pending
      ready := b.ready ++ [(Delivery.start s event).2] } : Batch).ids.Perm b.ids := by
  have same : (Delivery.start s event).2.event = event := rfl
  simp only [ids, unsettled, deliveries, first, List.map_append, List.map_cons, List.map_nil, same]
  refine List.perm_iff_count.2 fun id => ?_
  simp only [List.count_append, List.count_cons, List.count_nil]
  omega

theorem ids_of_ready {b : Batch} {d : Delivery} {rest : List Delivery} (first : b.ready = d :: rest) :
    b.ids.Perm (d.event.id :: { b with ready := rest }.ids) := by
  simp only [ids, unsettled, deliveries, first, List.map_append, List.map_cons]
  refine List.perm_iff_count.2 fun id => ?_
  simp only [List.count_append, List.count_cons]
  omega

theorem ids_move {x y : RelayState σ × Batch} (move : Move relay x y) : y.2.ids.Perm x.2.ids := by
  cases move with
  | takeUp first _ => exact ids_takeUp first
  | @goOn s b d rest s' d' first next =>
    have same : d'.event = d.event := Delivery.event_of_next (Delivery.next_of_step next)
    refine (ids_of_ready (b := { b with ready := d' :: rest }) rfl).trans ?_
    rw [same]
    exact (ids_of_ready first).symm
  | @sleep s b d rest first _ =>
    simp only [ids, unsettled, deliveries, first, List.map_append, List.map_cons, List.map_nil]
    refine List.perm_iff_count.2 fun id => ?_
    simp only [List.count_append, List.count_cons, List.count_nil]
    omega
  | @settle s b d rest s' outcome first settled =>
    obtain ⟨result, _, settle⟩ := Delivery.settling_of_step settled
    obtain ⟨_, rfl⟩ := Delivery.settle_spec settle
    simp only [ids, unsettled, deliveries, first, List.map_append, List.map_cons, List.map_nil]
    refine List.perm_iff_count.2 fun id => ?_
    simp only [List.count_append, List.count_cons, List.count_nil]
    omega
  | wake _ _ =>
    exact .append_left _ (((deliveries_wake _ _).map _).append_right _)

theorem claimed_move {x y : RelayState σ × Batch} (move : Move relay x y) :
    y.2.claimed = x.2.claimed := by
  cases move <;> rfl

/-- When a batch has run, every claimed event has an outcome, and no other event has one. -/
theorem outcomes_runTo (relay : Relay) (s : RelayState σ) (events : List Event) :
    (((ofEvents events).runTo relay none s).2.outcomes.map (·.event)).Perm
      (events.map (·.id)) := by
  have kept := (moves_runTo relay none s (ofEvents events)).keep
    (fun x => x.2.ids.Perm (ofEvents events).ids)
    (fun _ _ move perm => (ids_move move).trans perm) (.refl _)
  have done := isOver_runTo relay s events
  simp only [isOver, Bool.and_eq_true, List.isEmpty_iff] at done
  obtain ⟨⟨pending, ready⟩, asleep⟩ := done
  rw [ids_ofEvents] at kept
  simpa only [ids, unsettled, deliveries, pending, ready, asleep, List.append_nil, List.map_nil]
    using kept

theorem claimed_runTo (relay : Relay) (s : RelayState σ) (events : List Event) :
    ((ofEvents events).runTo relay none s).2.claimed = events.length :=
  (moves_runTo relay none s (ofEvents events)).keep (fun x => x.2.claimed = events.length)
    (fun _ _ move same => (claimed_move move).trans same) rfl

end OutboxRelay.Batch
