import OutboxRelay.Proofs.Dispatch.Accounts
import OutboxRelay.Proofs.Dispatch.Keeping
import OutboxRelay.Proofs.Store.Claiming
import OutboxRelay.Proofs.Store.TableCommands
import OutboxRelay.Store.Sql

/-! How much of a batch is under way at a time. No more events are in flight than the plan has room
for, and each of them waits for one letter at most; events are taken up in the order in which they
were claimed, and none is kept waiting while there is room for it. -/

namespace OutboxRelay

def openCalls (base : Nat) (calls : List Call) : List Nat :=
  (calls.zipIdx.filter fun x => base ≤ x.2 && x.1.isInProgress).map (·.2)

section OpenCalls

variable {base number : Nat} {calls : List Call} {c : Call} {others : List Nat}

theorem openCalls_nodup (base : Nat) (calls : List Call) : (openCalls base calls).Nodup := by
  refine List.Sublist.nodup (List.Sublist.map _ List.filter_sublist) ?_
  rw [List.zipIdx_map_snd]
  exact List.nodup_range'

theorem openCalls_concat (h : base ≤ calls.length) (inProgress : c.isInProgress) :
    openCalls base (calls ++ [c]) = openCalls base calls ++ [calls.length] := by
  unfold openCalls
  rw [List.zipIdx_append, List.filter_append, List.map_append]
  simp [h, inProgress]

theorem length_openCalls (base : Nat) (calls : List Call) :
    (openCalls base calls).length = (calls.drop base).countP (·.isInProgress) := by
  induction calls using List.reverseRecOn with
  | nil => simp [openCalls]
  | append_singleton calls c ih =>
    unfold openCalls at ih ⊢
    rw [List.zipIdx_append, List.filter_append, List.map_append, List.length_append, ih]
    by_cases h : base ≤ calls.length
    · rw [List.drop_append_of_le_length h, List.countP_append]
      cases inProgress : c.isInProgress <;> simp [h, inProgress]
    · have old : (calls ++ [c]).drop base = [] := List.drop_eq_nil_of_le (by simp; omega)
      have older : calls.drop base = [] := List.drop_eq_nil_of_le (by omega)
      simp [h, old, older]

theorem openCalls_modify {f : Call → Call} (ends : ∀ c, (f c).isInProgress = false)
    (h : (openCalls base calls).Perm (number :: others)) :
    (openCalls base (calls.modify number f)).Perm others := by
  have left : openCalls base (calls.modify number f) =
      (openCalls base calls).filter (· ≠ number) := by
    unfold openCalls
    rw [zipIdx_modify, List.filter_map, List.filter_map, List.filter_filter, List.map_map]
    have positions (x : Call × Nat) : (if x.2 = number then (f x.1, x.2) else x).2 = x.2 := by
      split <;> rfl
    have kept (x : Call × Nat) : (decide (base ≤ x.2) &&
          (if x.2 = number then (f x.1, x.2) else x).1.isInProgress) =
        (decide (x.2 ≠ number) && (decide (base ≤ x.2) && x.1.isInProgress)) := by
      by_cases here : x.2 = number <;> simp [here, ends]
    simp only [Function.comp_def, positions, kept]
  have absent : number ∉ others := by
    have nodup := h.nodup_iff.1 (openCalls_nodup base calls)
    exact (List.nodup_cons.1 nodup).1
  have others_kept : (number :: others).filter (· ≠ number) = others := by
    rw [List.filter_cons_of_neg (by simp), List.filter_eq_self]
    intro x hx
    exact decide_eq_true fun same => absent (same ▸ hx)
  rw [left, ← others_kept]
  exact h.filter _

end OpenCalls

namespace Delivery

def awaited (d : Delivery) : List Nat :=
  match d.stage with
  | .awaiting _ f => [f.call]
  | _ => []

variable {σ : Type} {relay : Relay} {s s' : RelayState σ} {d d' : Delivery} {base : Nat}
  {others : List Nat}

theorem length_awaited_le (d : Delivery) : d.awaited.length ≤ 1 := by
  unfold awaited
  split <;> simp

theorem awaited_of_concluded {now : Instant} {result : Except PublishError Unit}
    (h : Concluded relay now d result d') : d'.awaited = [] := by
  cases h <;> rfl

theorem openCalls_of_next (h : Next relay s d s' d') (from_ : base ≤ s.calls.length)
    (out : (openCalls base s.calls).Perm (d.awaited ++ others)) :
    (openCalls base s'.calls).Perm (d'.awaited ++ others) := by
  have awaits {a f} (stage : d.stage = .awaiting a f) :
      (openCalls base s.calls).Perm (f.call :: others) := by
    simpa [awaited, stage] using out
  cases h with
  | refused stage _ concluded =>
    rw [awaited_of_concluded concluded]
    simpa [awaited, stage] using out
  | admitted stage _ => simpa [awaited, stage] using out
  | handed stage _ _ _ =>
    rw [openCalls_concat from_ rfl]
    have before : (openCalls base s.calls).Perm others := by simpa [awaited, stage] using out
    exact (List.perm_append_singleton _ _).trans (before.cons _)
  | completed stage _ concluded =>
    rw [awaited_of_concluded concluded]
    simpa [awaited, stage] using out
  | accepted stage _ _ _ => exact openCalls_modify (fun _ => rfl) (awaits stage)
  | failed stage _ _ _ _ => exact openCalls_modify (fun _ => rfl) (awaits stage)
  | @copied a f timer e suffix timers answer deadline journal copy stage _ _ _ _ _ _ =>
    have ended := openCalls_modify (f := fun c => { c with state := .answered s.now (.error e) })
      (fun _ => rfl) (awaits stage)
    have number : (s.endCall f.call (.answered s.now (.error e))).calls.length = s.calls.length :=
      List.length_modify ..
    rw [openCalls_concat (number ▸ from_) rfl, number]
    exact (List.perm_append_singleton _ _).trans (ended.cons _)
  | copyAnswered stage _ _ _ => exact openCalls_modify (fun _ => rfl) (awaits stage)
  | timedOut stage _ _ _ concluded =>
    rw [awaited_of_concluded concluded]
    exact openCalls_modify (fun _ => rfl) (awaits stage)
  | resumed stage _ => simpa [awaited, stage] using out

end Delivery

namespace Batch

variable {σ : Type} [Outbox σ] {relay : Relay} {base : Nat} {events : List Event}
  {x y : RelayState σ × Batch}

theorem inFlight_eq (b : Batch) : b.inFlight = b.deliveries.length :=
  (List.length_append ..).symm

theorem inFlight_of_move (move : Move relay x y) (h : x.2.inFlight ≤ relay.plan.width) :
    y.2.inFlight ≤ relay.plan.width := by
  rw [inFlight_eq] at h ⊢
  cases move with
  | takeUp first room =>
    rw [(deliveries_takeUp ..).length_eq, List.length_cons, ← inFlight_eq]
    exact room
  | goOn first _ =>
    rw [deliveries_of_ready first] at h
    exact h
  | sleep first _ =>
    rw [(deliveries_sleep first).length_eq]
    exact h
  | settle first _ =>
    rw [deliveries_of_ready first] at h
    exact Nat.le_of_succ_le h
  | wake _ _ =>
    rw [(deliveries_wake ..).length_eq]
    exact h

/-- The letters that are out are those that the deliveries in flight wait for. -/
structure Manned (base : Nat) (x : RelayState σ × Batch) : Prop where
  known : base ≤ x.1.calls.length
  out : (openCalls base x.1.calls).Perm (x.2.deliveries.flatMap Delivery.awaited)

theorem manned_of_move (move : Move relay x y) (h : Manned base x) : Manned base y := by
  cases move with
  | @takeUp s b event pending _ _ =>
    have perm := (deliveries_takeUp b pending (Delivery.start s event).2).flatMap_right
      Delivery.awaited
    exact ⟨h.known, h.out.trans perm.symm⟩
  | @goOn s b d rest s' d' first next =>
    have step := Delivery.next_of_step next
    have out := h.out
    rw [deliveries_of_ready first, List.flatMap_cons] at out
    exact ⟨Nat.le_trans h.known (Delivery.calls_of_next step),
      Delivery.openCalls_of_next step h.known out⟩
  | sleep first _ => exact ⟨h.known, h.out.trans ((deliveries_sleep first).flatMap_right _).symm⟩
  | @settle s b d rest s' outcome first settled =>
    obtain ⟨result, stage, settle⟩ := Delivery.settling_of_step settled
    obtain ⟨⟨clock, journal, rfl⟩, _⟩ := Delivery.settle_spec settle
    have out := h.out
    rw [deliveries_of_ready first, List.flatMap_cons] at out
    have none : d.awaited = [] := by rw [Delivery.awaited, stage]
    rw [none, List.nil_append] at out
    exact ⟨h.known, out⟩
  | wake _ _ => exact ⟨h.known, h.out.trans ((deliveries_wake ..).flatMap_right _).symm⟩

omit [Outbox σ] in
theorem Manned.countP_le (h : Manned base x) :
    (x.1.calls.drop base).countP (·.isInProgress) ≤ x.2.inFlight := by
  rw [← length_openCalls, h.out.length_eq, inFlight_eq, List.length_flatMap]
  induction x.2.deliveries with
  | nil => exact Nat.le_refl _
  | cons d ds ih =>
    have one := d.length_awaited_le
    simp only [List.map_cons, List.sum_cons, List.length_cons]
    omega

def Starts (x y : RelayState σ × Batch) : Prop :=
  ∃ event pending, x.2.pending = event :: pending ∧ y = ((Delivery.start x.1 event).1,
    { x.2 with pending := pending, ready := x.2.ready ++ [(Delivery.start x.1 event).2] })

theorem pending_of_move (move : Move relay x y) : Starts x y ∨ y.2.pending = x.2.pending := by
  cases move with
  | takeUp first _ => exact .inl ⟨_, _, first, rfl⟩
  | goOn _ _ => exact .inr rfl
  | sleep _ _ => exact .inr rfl
  | settle _ _ => exact .inr rfl
  | wake _ _ => exact .inr rfl

theorem starts_of_turn (turn : Turn relay x y) :
    Starts x y ∨ y.2.pending = x.2.pending ∧ Full relay x.2 := by
  rcases pending_of_move turn.move with starts | same
  · exact .inl starts
  · refine .inr ⟨same, turn.eager.resolve_right ?_⟩
    rintro ⟨event, first⟩
    rw [same] at first
    exact List.cons_ne_self _ _ first.symm

theorem started_of_move (move : Move relay x y) (h : ∃ started, started ++ x.2.pending = events) :
    ∃ started, started ++ y.2.pending = events := by
  obtain ⟨started, rfl⟩ := h
  rcases pending_of_move move with ⟨event, pending, first, rfl⟩ | same
  · exact ⟨started ++ [event], by rw [first, List.append_assoc]; rfl⟩
  · exact ⟨started, by rw [same]⟩

/-- How a batch of these events stands at any moment, if calls are counted from call `base` on. -/
structure Bounded (relay : Relay) (base : Nat) (events : List Event) (x : RelayState σ × Batch) :
    Prop where
  inFlight : x.2.inFlight ≤ max 1 relay.plan.concurrency
  sends : (x.1.calls.drop base).countP (·.isInProgress) ≤ x.2.inFlight
  started : ∃ started, started ++ x.2.pending = events ∧
    (started.map (·.id)).Perm (x.2.outcomes.map (·.event) ++ x.2.deliveries.map (·.event.id))
  /-- What happens next is the start of the next event, unless there is none or no room for it. -/
  next : ∀ y, Turn relay x y → Starts x y ∨ y.2.pending = x.2.pending ∧
    (x.2.pending = [] ∨ max 1 relay.plan.concurrency ≤ x.2.inFlight)

theorem bounded_of_turns {s : RelayState σ} (turns : Turns relay (s, ofEvents events) x) :
    Bounded relay s.calls.length events x := by
  have width : relay.plan.width = max 1 relay.plan.concurrency := Nat.max_comm ..
  have inFlight := turns.moves.keep (fun x => x.2.inFlight ≤ relay.plan.width)
    (fun _ _ => inFlight_of_move) (Nat.zero_le _)
  have none : openCalls s.calls.length s.calls = [] := by
    refine List.eq_nil_of_length_eq_zero ?_
    rw [length_openCalls, List.drop_length]
    rfl
  have manned := turns.moves.keep (Manned s.calls.length) (fun _ _ => manned_of_move)
    ⟨Nat.le_refl _, none ▸ .refl _⟩
  have roster := turns.moves.keep (fun x => x.2.ids.Perm (ofEvents events).ids)
    (fun _ _ move perm => (ids_move move).trans perm) (.refl _)
  obtain ⟨started, rfl⟩ := turns.moves.keep (fun x => ∃ started, started ++ x.2.pending = events)
    (fun _ _ => started_of_move) ⟨[], rfl⟩
  refine ⟨width ▸ inFlight, manned.countP_le, ⟨started, rfl, ?_⟩, fun y turn => ?_⟩
  -- The roster lists the pending events last on both sides; before them stand the started ones.
  · rw [ids_ofEvents, ids, unsettled, ← List.append_assoc, List.map_append,
      List.perm_append_right_iff] at roster
    exact roster.symm
  · rw [← width]
    exact starts_of_turn turn

end Batch

/-! ### Claims come in the order of ids -/

section Claims

variable {relay : Relay} {events : List Event}

theorem Cycle.claimReply_eq {σ : Type} [Outbox σ] (relay : Relay) (s : RelayState σ) :
    ∃ time, claimReply relay s = (Outbox.claimNew
      (Outbox.staleClaims s.store s.clock.read.1 relay.plan.staleAfter).store time
      relay.plan.batchSize).result := by
  obtain ⟨journal, checked⟩ := check_spec relay s
  unfold claimReply askClaim
  rw [checked]
  exact ⟨_, rfl⟩

theorem MemoryStore.claimReply_ascending {s : RelayState MemoryStore} (numbered : s.store.Numbered)
    (claimed : Cycle.claimReply relay s = .ok events) : events.Pairwise (·.id < ·.id) := by
  obtain ⟨time, reply⟩ := Cycle.claimReply_eq relay s
  rw [reply] at claimed
  cases claimed
  exact List.pairwise_map.1 (numbered.takesLowest _ relay.plan.batchSize).ascending

theorem SqlStore.claimNew_ascending {δ : Type} [Sql.Database δ] {database : δ} {limit : UInt64}
    (claimed : (claimNew database limit).result = .ok events) :
    events.Pairwise (·.id ≤ ·.id) := by
  unfold claimNew at claimed
  split at claimed
  · cases claimed
    exact .nil
  · split at claimed
    · cases claimed
    · rename_i rows _ _
      dsimp only at claimed
      split at claimed
      · cases claimed
        exact pairwise_byId _
      · cases claimed

theorem SqlStore.claimReply_ascending {δ : Type} [Sql.Database δ] {s : RelayState (SqlStore δ)}
    (claimed : Cycle.claimReply relay s = .ok events) : events.Pairwise (·.id ≤ ·.id) := by
  obtain ⟨time, reply⟩ := Cycle.claimReply_eq relay s
  rw [reply] at claimed
  generalize (Outbox.staleClaims s.store _ _).store = store at claimed
  have asked : (claimNew store.database relay.plan.batchSize).result = .ok events := claimed
  exact claimNew_ascending asked

end Claims

namespace Cycle

section Claimed

variable {σ : Type} [Outbox σ] {relay : Relay} {s : RelayState σ} {events : List Event}

def atEnd (relay : Relay) (s : RelayState σ) (events : List Event) : RelayState σ × Batch :=
  (Batch.ofEvents events).runTo relay none (askClaim relay s).2

theorem run_of_claimed (claimed : claimReply relay s = .ok events) (some : events ≠ []) :
    run relay s = close (atEnd relay s events).1 (atEnd relay s events).2 := by
  obtain ⟨e, rest, rfl⟩ := List.exists_cons_of_ne_nil some
  exact run_of_cons claimed

end Claimed

/-- How a cycle dispatches these events: by turns, at each of which the batch is bounded. -/
structure Proceeds {σ : Type} [Outbox σ] (relay : Relay) (s : RelayState σ) (events : List Event) :
    Prop where
  bounded : ∀ x, Batch.Turns relay ((askClaim relay s).2, .ofEvents events) x →
    Batch.Bounded relay (askClaim relay s).2.calls.length events x
  turns : ∀ limit, Batch.Turns relay ((askClaim relay s).2, .ofEvents events)
    ((Batch.ofEvents events).runTo relay limit (askClaim relay s).2)
  complete : (atEnd relay s events).2.isOver
  run : events ≠ [] → run relay s = close (atEnd relay s events).1 (atEnd relay s events).2

/-- Whatever the targets do, a cycle has no more events under way than its plan allows for, and no
fewer as long as there are some left; it takes them up in the order of their ids. -/
theorem keeps_width (relay : Relay) :
    (∀ {σ : Type} [Outbox σ] (s : RelayState σ) (events : List Event),
      claimReply relay s = .ok events → Proceeds relay s events) ∧
    (∀ (s : RelayState MemoryStore) (past : List MemoryStore.Act) (events : List Event),
      s.store = MemoryStore.empty.acts past → claimReply relay s = .ok events →
      events.Pairwise (·.id < ·.id)) ∧
    (∀ {δ : Type} [Sql.Database δ] (s : RelayState (SqlStore δ)) (events : List Event),
      claimReply relay s = .ok events → events.Pairwise (·.id ≤ ·.id)) := by
  refine ⟨fun s events claimed => ?_, fun s past events store claimed => ?_, fun s events => ?_⟩
  · exact ⟨fun x => Batch.bounded_of_turns, fun limit => Batch.turns_runTo ..,
      Batch.isOver_runTo .., run_of_claimed claimed⟩
  · have numbered : s.store.Numbered := store ▸ MemoryStore.numbered_empty.acts past
    exact MemoryStore.claimReply_ascending numbered claimed
  · exact SqlStore.claimReply_ascending

def narrowRelay : Relay where
  targets := [⟨"orders", .direct "silent"⟩]
  retry := .once
  breaker := .standard
  plan := { DispatchPlan.standard with concurrency := 0 }
  react _ _ _ _ _ := .never

def waitingOrder : NewEvent := ⟨"Order", "order-1", "OrderPlaced", "p", .empty⟩

def twoWaiting : RelayState MemoryStore :=
  .initial (MemoryStore.empty.acts [.persist ⟨0⟩ waitingOrder, .persist ⟨0⟩ waitingOrder])

def twoClaimed : List Event :=
  [⟨waitingOrder, 1, .inProgress, ⟨0⟩, none⟩, ⟨waitingOrder, 2, .inProgress, ⟨0⟩, none⟩]

/-- No limit up to which the batch is followed finds both events under way. -/
theorem keeps_width_of_narrow :
    claimReply narrowRelay twoWaiting = .ok twoClaimed ∧ twoClaimed.Pairwise (·.id < ·.id) ∧
      ∀ limit, ((Batch.ofEvents twoClaimed).runTo narrowRelay limit
        (askClaim narrowRelay twoWaiting).2).2.inFlight ≤ 1 := by
  have proceeds := (keeps_width narrowRelay).1 twoWaiting twoClaimed rfl
  exact ⟨rfl, (keeps_width narrowRelay).2.1 twoWaiting _ twoClaimed rfl rfl,
    fun limit => (proceeds.bounded _ (proceeds.turns limit)).inFlight⟩

end Cycle

end OutboxRelay
