import OutboxRelay.Proofs.Dispatch.Roster

/-! A store that keeps a ledger of the marks it was asked to write, refused ones included. Behind it
stands any other store, so what is proved with a ledger holds for all stores. In a batch that runs,
the ledger grows with the outcomes, line by line. -/

namespace OutboxRelay

structure Mark where
  event : Int
  settlement : Settlement
  reply : Except StoreError Unit

def Mark.outcome (m : Mark) : Int × Except StoreError Settlement :=
  (m.event, m.reply.map fun _ => m.settlement)

structure Ledger (σ : Type) where
  store : σ
  /-- In the order of the calls, which is that of their completion. -/
  marks : List Mark

namespace Ledger

variable {σ α : Type}

def pass (s : Ledger σ) (reply : StoreReply σ α) : StoreReply (Ledger σ) α :=
  ⟨reply.result, { s with store := reply.store }, reply.journal⟩

def mark (s : Ledger σ) (event : Int) (settlement : Settlement) (reply : StoreReply σ Unit) :
    StoreReply (Ledger σ) Unit :=
  ⟨reply.result, ⟨reply.store, s.marks ++ [⟨event, settlement, reply.result⟩]⟩, reply.journal⟩

instance [Outbox σ] : Outbox (Ledger σ) where
  persist s now e := s.pass (Outbox.persist s.store now e)
  claimNew s now limit := s.pass (Outbox.claimNew s.store now limit)
  settlePublished s now id := s.mark id .published (Outbox.settlePublished s.store now id)
  settleFailed s now id reason := s.mark id .failed (Outbox.settleFailed s.store now id reason)
  stats s now := s.pass (Outbox.stats s.store now)
  staleClaims s now olderThan := s.pass (Outbox.staleClaims s.store now olderThan)

variable [Outbox σ]

theorem marks_settleReply (s : RelayState (Ledger σ)) (d : Delivery)
    (result : Except PublishError Unit) :
    (d.settleReply s result).store.marks = s.store.marks ++
      [⟨d.event.id, .ofResult result, (d.settleReply s result).result⟩] := by
  cases result <;> rfl

end Ledger

namespace Batch

variable {σ : Type} [Outbox σ] {relay : Relay}

/-- The ledger has grown by `new`, which are the outcomes. -/
structure Booked (before new : List Mark) (x : RelayState (Ledger σ) × Batch) : Prop where
  marks : x.1.store.marks = before ++ new
  outcomes : new.map Mark.outcome = x.2.outcomes.map fun o => (o.event, o.result)

omit [Outbox σ] in
theorem events_of_booked {before new : List Mark} {x : RelayState (Ledger σ) × Batch}
    (h : Booked before new x) : new.map (·.event) = x.2.outcomes.map (·.event) := by
  have events := congrArg (List.map (·.1)) h.outcomes
  rwa [List.map_map, List.map_map] at events

theorem booked_settle {s s' : RelayState (Ledger σ)} {b : Batch} {d : Delivery}
    {result : Except PublishError Unit} {outcome : Outcome} {before new : List Mark}
    (h : Booked before new (s, b)) (settle : Delivery.settle s d result = (s', outcome))
    (rest : List Delivery) :
    Booked before
      (new ++ [⟨d.event.id, .ofResult result, (d.settleReply s result).result⟩])
      (s'.note (outcomeJournal outcome),
        { b with ready := rest, outcomes := b.outcomes ++ [outcome] }) := by
  obtain ⟨⟨clock, journal, rfl⟩, rfl⟩ := Delivery.settle_spec settle
  constructor
  · simp only [RelayState.note]
    rw [Ledger.marks_settleReply, h.marks, List.append_assoc]
  · simp only [List.map_append, h.outcomes]
    rfl

theorem booked_of_move {before new : List Mark} {x y : RelayState (Ledger σ) × Batch}
    (move : Move relay x y) (h : Booked before new x) : ∃ new', Booked before new' y := by
  cases move with
  | takeUp _ _ => exact ⟨new, h.marks, h.outcomes⟩
  | goOn _ next =>
    have same := Delivery.store_of_next (Delivery.next_of_step next)
    exact ⟨new, by rw [same]; exact h.marks, h.outcomes⟩
  | sleep _ _ => exact ⟨new, h.marks, h.outcomes⟩
  | settle _ settled =>
    obtain ⟨result, _, settle⟩ := Delivery.settling_of_step settled
    exact ⟨_, booked_settle h settle _⟩
  | wake _ _ => exact ⟨new, h.marks, h.outcomes⟩

theorem booked_runTo (relay : Relay) (s : RelayState (Ledger σ)) (events : List Event) :
    ∃ new, Booked s.store.marks new ((ofEvents events).runTo relay none s) :=
  (moves_runTo relay none s (ofEvents events)).keep
    (fun x => ∃ new, Booked s.store.marks new x)
    (fun _ _ move ⟨_, booked⟩ => booked_of_move move booked)
    ⟨[], (List.append_nil _).symm, rfl⟩

end Batch

end OutboxRelay
