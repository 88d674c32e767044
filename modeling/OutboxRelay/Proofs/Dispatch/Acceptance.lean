import OutboxRelay.Proofs.Store.Ledger
import OutboxRelay.Store.Memory

/-! What becomes of each event of a batch. It is marked once, as published if every target has
accepted it and as failed if one has not, and its calls and attempts are a history as they should
be, however many events are in flight, whatever the brokers do and whatever state the breaker is in
at first. The store behind the ledger may refuse any mark. -/

namespace OutboxRelay

namespace RelayState

variable {σ : Type}

def callsSince (since s : RelayState σ) (event : Int) : List Call :=
  (s.calls.drop since.calls.length).filter (·.event = event)

def attemptsSince (since s : RelayState σ) (event : Int) : List AttemptRecord :=
  ownAttempts since.attempts.length event s.attempts

end RelayState

namespace Batch

variable {σ : Type} {relay : Relay}

theorem id_mem_ids_of_delivery {b : Batch} {d : Delivery} (h : d ∈ b.deliveries) :
    d.event.id ∈ b.ids :=
  List.mem_append_right _ (List.mem_append_left _ (List.mem_map_of_mem h))

theorem id_mem_ids_of_pending {b : Batch} {e : Event} (h : e ∈ b.pending) : e.id ∈ b.ids :=
  List.mem_append_right _ (List.mem_append_right _ (List.mem_map_of_mem h))

theorem event_mem_ids_of_mark {before new : List Mark} {x : RelayState (Ledger σ) × Batch}
    {m : Mark} (h : Booked before new x) (mem : m ∈ new) : m.event ∈ x.2.ids := by
  refine List.mem_append_left _ ?_
  rw [← events_of_booked h]
  exact List.mem_map_of_mem mem

theorem ne_of_mem_ids {b : Batch} {d : Delivery} {rest : List Delivery} {id : Int}
    (distinct : b.ids.Nodup) (first : b.ready = d :: rest)
    (mem : id ∈ { b with ready := rest }.ids) : d.event.id ≠ id := by
  have apart := (ids_of_ready first).nodup_iff.1 distinct
  exact fun same => (List.nodup_cons.1 apart).1 (same ▸ mem)

/-- The record of a batch since it was begun in `since`. -/
structure Told (relay : Relay) (since : RelayState (Ledger σ)) (new : List Mark)
    (x : RelayState (Ledger σ) × Batch) : Prop where
  booked : Booked since.store.marks new x
  timely : Timely relay x
  distinct : x.2.ids.Nodup
  calls : since.calls.length ≤ x.1.calls.length
  attempts : since.attempts.length ≤ x.1.attempts.length
  pending : ∀ e ∈ x.2.pending, ownCalls since.calls.length e.id x.1.calls = [] ∧
    since.attemptsSince x.1 e.id = []
  inFlight : ∀ d ∈ x.2.deliveries, d.Recorded relay
    (ownCalls since.calls.length d.event.id x.1.calls) (since.attemptsSince x.1 d.event.id)
  settled : ∀ m ∈ new, History relay (since.callsSince x.1 m.event)
      (since.attemptsSince x.1 m.event) ∧
    (m.settlement = .published ↔ outstanding relay (since.callsSince x.1 m.event) = [])

theorem recorded_start (targets : relay.targets ≠ []) (s : RelayState σ) (e : Event) :
    (Delivery.start s e).2.Recorded relay [] [] := by
  have left : outstanding relay [] ≠ [] := by
    intro none
    obtain ⟨c, hc, _⟩ := outstanding_eq_nil.1 none 0 (List.length_pos_iff.2 targets)
    cases hc
  exact ⟨fun i => by simp [Delivery.start, hasAccepted], .none, left, rfl⟩

section Moves

variable [Outbox σ] {since s s' : RelayState (Ledger σ)} {b : Batch} {new : List Mark} {d d' : Delivery}
  {rest : List Delivery}

theorem told_takeUp (h : Told relay since new (s, b)) (targets : relay.targets ≠ []) {e : Event}
    {others : List Event} (first : b.pending = e :: others)
    (room : b.inFlight < relay.plan.width) :
    Told relay since new ((Delivery.start s e).1,
      { b with pending := others, ready := b.ready ++ [(Delivery.start s e).2] }) := by
  refine ⟨⟨h.booked.marks, h.booked.outcomes⟩, timely_of_move (.takeUp first room) h.timely,
    (ids_takeUp first).nodup_iff.2 h.distinct, h.calls, h.attempts, fun x hx => ?_, fun x hx => ?_,
    h.settled⟩
  · exact h.pending x (first ▸ List.mem_cons_of_mem _ hx)
  · have cases : x ∈ b.deliveries ∨ x = (Delivery.start s e).2 := by
      simp only [deliveries, List.mem_append, List.mem_singleton] at hx ⊢
      tauto
    rcases cases with old | rfl
    · exact h.inFlight x old
    · obtain ⟨calls, attempts⟩ := h.pending e (first ▸ List.mem_cons_self)
      have fresh := recorded_start targets s e
      have same : (Delivery.start s e).2.event = e := rfl
      rw [same]
      change Delivery.Recorded relay (ownCalls since.calls.length e.id s.calls)
        (since.attemptsSince s e.id) (Delivery.start s e).2
      dsimp only at calls attempts
      rw [calls, attempts]
      exact fresh

omit [Outbox σ] in
theorem told_others (h : Told relay since new (s, b)) (first : b.ready = d :: rest)
    (calls : ∀ event, d.event.id ≠ event →
      ownCalls since.calls.length event s'.calls = ownCalls since.calls.length event s.calls)
    (attempts : ∀ event, d.event.id ≠ event →
      since.attemptsSince s' event = since.attemptsSince s event) :
    (∀ e ∈ b.pending, ownCalls since.calls.length e.id s'.calls = [] ∧
      since.attemptsSince s' e.id = []) ∧
    (∀ x ∈ { b with ready := rest }.deliveries, x.Recorded relay
      (ownCalls since.calls.length x.event.id s'.calls) (since.attemptsSince s' x.event.id)) ∧
    ∀ m ∈ new, History relay (since.callsSince s' m.event) (since.attemptsSince s' m.event) ∧
      (m.settlement = .published ↔ outstanding relay (since.callsSince s' m.event) = []) := by
  have apart {id} (mem : id ∈ { b with ready := rest }.ids) : d.event.id ≠ id :=
    ne_of_mem_ids h.distinct first mem
  refine ⟨fun e he => ?_, fun x hx => ?_, fun m hm => ?_⟩
  · have other := apart (id_mem_ids_of_pending (b := { b with ready := rest }) he)
    rw [calls _ other, attempts _ other]
    exact h.pending e he
  · have other := apart (id_mem_ids_of_delivery hx)
    have old : x ∈ b.deliveries := by
      simp only [deliveries, first, List.mem_append, List.mem_cons] at hx ⊢
      tauto
    rw [calls _ other, attempts _ other]
    exact h.inFlight x old
  · have booked : Booked since.store.marks new (s, { b with ready := rest }) :=
      ⟨h.booked.marks, h.booked.outcomes⟩
    have other := apart (event_mem_ids_of_mark booked hm)
    have same : since.callsSince s' m.event = since.callsSince s m.event := by
      simp only [RelayState.callsSince, ← ownCalls_map_fst, calls _ other]
    rw [same, attempts _ other]
    exact h.settled m hm

theorem told_goOn (h : Told relay since new (s, b)) (first : b.ready = d :: rest)
    (step : d.step relay s = .next s' d') :
    Told relay since new (s', { b with ready := d' :: rest }) := by
  have next := Delivery.next_of_step step
  have head : d ∈ b.deliveries := List.mem_append_left _ (first ▸ List.mem_cons_self)
  have recorded := h.inFlight d head
  have timely := h.timely.ready d (first ▸ List.mem_cons_self)
  obtain ⟨pending, others, settled⟩ := told_others h first
    (fun _ other => Delivery.ownCalls_of_next_other next recorded.awaitsLast other)
    (fun _ other => Delivery.ownAttempts_of_next_other next h.attempts other)
  have store := Delivery.store_of_next next
  refine ⟨⟨by rw [store]; exact h.booked.marks, h.booked.outcomes⟩,
    timely_of_move (.goOn first step) h.timely,
    (ids_move (.goOn first step)).nodup_iff.2 h.distinct,
    h.calls.trans (Delivery.calls_of_next next), h.attempts.trans (Delivery.attempts_of_next next),
    pending, fun x hx => ?_, settled⟩
  rcases List.mem_cons.1 hx with rfl | old
  · rw [Delivery.event_of_next next]
    exact Delivery.recorded_of_next next timely h.calls h.attempts recorded
  · exact others x old

theorem told_settle (h : Told relay since new (s, b)) (first : b.ready = d :: rest)
    {outcome : Outcome} (step : d.step relay s = .settled s' outcome) :
    ∃ m, Told relay since (new ++ [m]) (s'.note (outcomeJournal outcome),
      { b with ready := rest, outcomes := b.outcomes ++ [outcome] }) := by
  obtain ⟨result, stage, settle⟩ := Delivery.settling_of_step step
  have booked := booked_settle h.booked settle rest
  have head : d ∈ b.deliveries := List.mem_append_left _ (first ▸ List.mem_cons_self)
  have recorded := (h.inFlight d head).stage
  unfold Delivery.StageRecorded at recorded
  rw [stage] at recorded
  obtain ⟨history, ok⟩ := recorded
  rw [ownCalls_map_fst] at history ok
  have timely := timely_of_move (.settle first step) h.timely
  have distinct := (ids_move (.settle first step)).nodup_iff.2 h.distinct
  obtain ⟨⟨clock, journal, rfl⟩, rfl⟩ := Delivery.settle_spec settle
  have kept := @told_others _ _ since s s b new d rest h first (fun _ _ => rfl) (fun _ _ => rfl)
  obtain ⟨pending, others, settled⟩ := kept
  refine ⟨_, booked, timely, distinct, h.calls, h.attempts, pending, others, fun m hm => ?_⟩
  rcases List.mem_append.1 hm with old | new
  · exact settled m old
  · cases List.mem_singleton.1 new
    refine ⟨history, Iff.trans ?_ ok⟩
    cases result with
    | ok _ => exact ⟨fun _ => rfl, fun _ => rfl⟩
    | error e => exact ⟨nofun, nofun⟩

theorem told_of_move (targets : relay.targets ≠ []) {x y : RelayState (Ledger σ) × Batch}
    (move : Move relay x y) (h : Told relay since new x) : ∃ new', Told relay since new' y := by
  cases move with
  | takeUp first room => exact ⟨new, told_takeUp h targets first room⟩
  | goOn first step => exact ⟨new, told_goOn h first step⟩
  | @sleep s b d rest first waits =>
    refine ⟨new, ⟨h.booked.marks, h.booked.outcomes⟩, timely_of_move (.sleep first waits) h.timely,
      (ids_move (.sleep first waits)).nodup_iff.2 h.distinct, h.calls, h.attempts, h.pending,
      fun x hx => h.inFlight x ?_, h.settled⟩
    simp only [deliveries, first, List.mem_append, List.mem_cons, List.not_mem_nil] at hx ⊢
    tauto
  | settle first step =>
    obtain ⟨m, told⟩ := told_settle h first step
    exact ⟨_, told⟩
  | @wake s b due stopped next =>
    refine ⟨new, ⟨h.booked.marks, h.booked.outcomes⟩, timely_of_move (.wake stopped next) h.timely,
      (ids_move (.wake stopped next)).nodup_iff.2 h.distinct, h.calls, h.attempts, h.pending,
      fun x hx => h.inFlight x ?_, h.settled⟩
    exact (deliveries_wake _ b).mem_iff.1 hx

omit [Outbox σ] in
theorem told_ofEvents (s : RelayState (Ledger σ)) {events : List Event}
    (distinct : (events.map (·.id)).Nodup) : Told relay s [] (s, ofEvents events) := by
  have calls (event : Int) : ownCalls s.calls.length event s.calls = [] := by
    have none : (ownCalls s.calls.length event s.calls).map (·.1) = [] := by
      rw [ownCalls_map_fst, List.drop_length]
      rfl
    exact List.map_eq_nil_iff.1 none
  have attempts (event : Int) : s.attemptsSince s event = [] := by
    simp [RelayState.attemptsSince, ownAttempts]
  exact ⟨⟨(List.append_nil _).symm, rfl⟩, timely_ofEvents s events, distinct, Nat.le_refl _,
    Nat.le_refl _, fun e _ => ⟨calls e.id, attempts e.id⟩, fun d hd => (by cases hd),
    fun m hm => (by cases hm)⟩

end Moves

def dispatched [Outbox σ] (relay : Relay) (s : RelayState σ) (events : List Event) :
    RelayState σ :=
  ((ofEvents events).runTo relay none s).1

/-- An event was dispatched between `since` and `s`. It was marked once, as published if and only if
all targets have accepted it, and no target was sent to again after it had accepted. -/
structure Fulfilled (relay : Relay) (since s : RelayState (Ledger σ)) (event : Int) : Prop where
  marked : ∃ new mark, s.store.marks = since.store.marks ++ new ∧
    new.filter (·.event = event) = [mark] ∧
    (mark.settlement = .published ↔ ∀ target < relay.targets.length,
      ∃ c ∈ since.callsSince s event, c.target = target ∧ c.isAccepted)
  once : (since.callsSince s event).Pairwise fun c later =>
    c.isAccepted → later.target ≠ c.target
  history : History relay (since.callsSince s event) (since.attemptsSince s event)

/-- The events of a claim are rows of a table, so their ids are distinct. -/
theorem dispatched_fulfilled [Outbox σ] (relay : Relay) (targets : relay.targets ≠ [])
    (s : RelayState (Ledger σ)) {events : List Event} (distinct : (events.map (·.id)).Nodup)
    {e : Event} (claimed : e ∈ events) :
    Fulfilled relay s (dispatched relay s events) e.id := by
  obtain ⟨new, told⟩ := (moves_runTo relay none s (ofEvents events)).keep
    (fun x => ∃ new, Told relay s new x)
    (fun _ _ move ⟨_, told⟩ => told_of_move targets move told) ⟨[], told_ofEvents s distinct⟩
  have marked : (new.map (·.event)).Perm (events.map (·.id)) := by
    rw [events_of_booked told.booked]
    exact outcomes_runTo relay s events
  have once : (new.filter (·.event = e.id)).length = 1 := by
    have count := List.count_eq_one_of_mem (marked.nodup_iff.2 distinct)
      (marked.mem_iff.2 (List.mem_map_of_mem claimed))
    rwa [List.count, List.countP_map, List.countP_eq_length_filter] at count
  obtain ⟨mark, own⟩ := List.length_eq_one_iff.1 once
  have mem : mark ∈ new.filter (·.event = e.id) := own ▸ List.mem_cons_self
  obtain ⟨mem, event⟩ := List.mem_filter.1 mem
  obtain ⟨history, published⟩ := told.settled mark mem
  rw [of_decide_eq_true event] at history published
  exact ⟨⟨new, mark, told.booked.marks, own, published.trans outstanding_eq_nil⟩, history.once,
    history⟩

def unevenRelay : Relay where
  targets := [⟨"orders", .direct "late"⟩, ⟨"orders", .direct "prompt"⟩]
  retry := .standard
  breaker := .standard
  plan := .standard
  react _ past _ target _ :=
    if target = 0 ∧ past = [] then .atOnce (.error (.unavailable "late" "down"))
    else .atOnce (.ok ⟨0, 0⟩)

def placedOrder : Event := ⟨⟨"Order", "order-1", "OrderPlaced", "p", .empty⟩, 1, .inProgress, ⟨0⟩, none⟩

theorem dispatched_fulfilled_of_uneven :
    unevenRelay.targets ≠ [] ∧ ([placedOrder].map (·.id)).Nodup ∧ placedOrder ∈ [placedOrder] ∧
      Fulfilled unevenRelay (.initial ⟨MemoryStore.empty, []⟩)
        (dispatched unevenRelay (.initial ⟨MemoryStore.empty, []⟩) [placedOrder]) 1 :=
  ⟨by decide, by decide, List.mem_cons_self,
    dispatched_fulfilled unevenRelay (by decide) (.initial ⟨MemoryStore.empty, []⟩) (by decide)
      (e := placedOrder) List.mem_cons_self⟩

end Batch

end OutboxRelay
