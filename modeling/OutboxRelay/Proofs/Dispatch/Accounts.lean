import OutboxRelay.Dispatch.Session
import OutboxRelay.Proofs.Dispatch.Alone
import OutboxRelay.Proofs.Store.SharedTable
import OutboxRelay.Store.Trial

/-! What a cycle reports and what it has done agree. Every claimed event is settled by one call, the
report counts these calls, and refused calls are counted in its place where there are any. On a
table in memory that any number of clients share, the report is also the truth about the rows. -/

namespace OutboxRelay.Cycle

section Reply

variable {σ : Type} [Outbox σ]

theorem check_spec (relay : Relay) (s : RelayState σ) :
    ∃ journal, check relay s = { s with
      store := (Outbox.staleClaims s.store s.clock.read.1 relay.plan.staleAfter).store
      clock := s.clock.read.2
      journal := journal } := by
  unfold check
  dsimp only [RelayState.ask]
  cases (Outbox.staleClaims s.store s.clock.read.1 relay.plan.staleAfter).result with
  | ok count =>
    dsimp only
    split <;> exact ⟨_, rfl⟩
  | error e => exact ⟨_, rfl⟩

def askClaim (relay : Relay) (s : RelayState σ) : Except StoreError (List Event) × RelayState σ :=
  (check relay s).ask fun store time => Outbox.claimNew store time relay.plan.batchSize

def claimReply (relay : Relay) (s : RelayState σ) : Except StoreError (List Event) :=
  (askClaim relay s).1

theorem run_of_error {relay : Relay} {s : RelayState σ} {e : StoreError}
    (reply : claimReply relay s = .error e) :
    run relay s = ((askClaim relay s).2, .error (.store e)) := by
  have ask : askClaim relay s = (.error e, (askClaim relay s).2) := Prod.ext reply rfl
  unfold run claim
  unfold askClaim at ask
  rw [ask]
  rfl

theorem run_of_nil {relay : Relay} {s : RelayState σ} (reply : claimReply relay s = .ok []) :
    run relay s = ((askClaim relay s).2, .ok Report.empty) := by
  have ask : askClaim relay s = (.ok [], (askClaim relay s).2) := Prod.ext reply rfl
  unfold run claim
  unfold askClaim at ask
  rw [ask]
  rfl

theorem run_of_cons {relay : Relay} {s : RelayState σ} {e : Event} {rest : List Event}
    (reply : claimReply relay s = .ok (e :: rest)) :
    run relay s = close ((Batch.ofEvents (e :: rest)).runTo relay none (askClaim relay s).2).1
      ((Batch.ofEvents (e :: rest)).runTo relay none (askClaim relay s).2).2 := by
  have ask : askClaim relay s = (.ok (e :: rest), (askClaim relay s).2) := Prod.ext reply rfl
  unfold run claim
  unfold askClaim at ask
  rw [ask]
  rfl

end Reply

def failure? {ε α : Type} : Except ε α → Option ε
  | .ok _ => none
  | .error e => some e

def isMarkedAs {ε : Type} (mark : Settlement) : Except ε Settlement → Bool
  | .ok m => m = mark
  | .error _ => false

def refusals (marks : List Mark) : List StoreError := marks.filterMap fun m => failure? m.reply

/-- The result of a cycle that claimed these events and asked for these marks. -/
structure Accounted (events : List Event) (marks : List Mark) (result : CycleResult) : Prop where
  each : (marks.map (·.event)).Perm (events.map (·.id))
  reported : refusals marks = [] →
    result = .ok ⟨events.length, marks.countP (·.settlement = .published),
      marks.countP (·.settlement = .failed), false⟩
  complete : marks.countP (·.settlement = .published) + marks.countP (·.settlement = .failed) =
    events.length
  unsettled : ∀ first rest, refusals marks = first :: rest →
    result = .error (.unsettled (refusals marks).length first)

section Ledger

variable {σ : Type} {before new : List Mark} {x : RelayState (Ledger σ) × Batch}

theorem settleErrors_eq (b : Batch) :
    settleErrors b = b.outcomes.filterMap fun o => failure? o.result := by
  unfold settleErrors
  apply List.filterMap_congr
  intro o _
  cases o.result <;> rfl

theorem settledAs_eq (b : Batch) (mark : Settlement) :
    settledAs b mark = b.outcomes.countP fun o => isMarkedAs mark o.result := by
  unfold settledAs
  congr 1
  funext o
  cases o.result <;> rfl

theorem settleErrors_of_booked (h : Batch.Booked before new x) :
    settleErrors x.2 = refusals new := by
  have outcomes := congrArg (List.filterMap fun r => failure? r.2) h.outcomes
  rw [List.filterMap_map, List.filterMap_map] at outcomes
  rw [settleErrors_eq]
  refine Eq.trans outcomes.symm ?_
  apply List.filterMap_congr
  intro m _
  cases reply : m.reply <;> simp [Mark.outcome, Except.map, failure?, reply]

theorem settledAs_of_booked (h : Batch.Booked before new x) (kept : refusals new = [])
    (mark : Settlement) : settledAs x.2 mark = new.countP (·.settlement = mark) := by
  have outcomes := congrArg (List.countP fun r => isMarkedAs mark r.2) h.outcomes
  rw [List.countP_map, List.countP_map] at outcomes
  rw [settledAs_eq]
  refine Eq.trans outcomes.symm ?_
  apply List.countP_congr
  intro m hm
  have accepted := List.filterMap_eq_nil_iff.1 kept m hm
  cases reply : m.reply with
  | ok _ => simp [Mark.outcome, Except.map, isMarkedAs, reply]
  | error e => simp [failure?, reply] at accepted

theorem count_settlements (marks : List Mark) :
    marks.countP (·.settlement = .published) + marks.countP (·.settlement = .failed) =
      marks.length := by
  induction marks with
  | nil => rfl
  | cons m rest ih =>
    simp only [List.countP_cons, List.length_cons]
    cases m.settlement <;> simp <;> omega

variable [Outbox σ]

theorem marks_askClaim (relay : Relay) (s : RelayState (Ledger σ)) :
    (askClaim relay s).2.store.marks = s.store.marks := by
  obtain ⟨journal, checked⟩ := check_spec relay s
  unfold askClaim
  rw [checked]
  rfl

theorem accounted_runTo (relay : Relay) (s : RelayState (Ledger σ)) (events : List Event) :
    ∃ new, ((Batch.ofEvents events).runTo relay none s).1.store.marks = s.store.marks ++ new ∧
      Accounted events new (result ((Batch.ofEvents events).runTo relay none s).2) := by
  obtain ⟨new, booked⟩ := Batch.booked_runTo relay s events
  have each : (new.map (·.event)).Perm (events.map (·.id)) := by
    rw [Batch.events_of_booked booked]
    exact Batch.outcomes_runTo relay s events
  have length : new.length = events.length := by simpa using each.length_eq
  have errors := settleErrors_of_booked booked
  refine ⟨new, booked.marks, each, fun kept => ?_, ?_, fun first rest refused => ?_⟩
  · unfold result report
    rw [errors, kept, settledAs_of_booked booked kept, settledAs_of_booked booked kept,
      Batch.claimed_runTo]
  · rw [count_settlements, length]
  · unfold result
    rw [errors, refused]
    rfl

theorem accounted_run (relay : Relay) (s : RelayState (Ledger σ)) :
    ∃ new, (run relay s).1.store.marks = s.store.marks ++ new ∧
      match claimReply relay s with
      | .error e => new = [] ∧ (run relay s).2 = .error (.store e)
      | .ok events => Accounted events new (run relay s).2 := by
  cases reply : claimReply relay s with
  | error e =>
    rw [run_of_error reply]
    exact ⟨[], by rw [marks_askClaim, List.append_nil], rfl, rfl⟩
  | ok events =>
    cases events with
    | nil =>
      rw [run_of_nil reply]
      exact ⟨[], by rw [marks_askClaim, List.append_nil], .refl _, fun _ => rfl, rfl, nofun⟩
    | cons e rest =>
      rw [run_of_cons reply]
      obtain ⟨new, marks, accounted⟩ := accounted_runTo relay (askClaim relay s).2 (e :: rest)
      rw [marks_askClaim] at marks
      exact ⟨new, marks, accounted⟩

end Ledger

section Shared

open MemoryStore

/-- The rows of a batch's events on a table that the others may change too. -/
structure Tracked (others : Nat → List Act) (turn : Nat) (ids : List Int)
    (x : RelayState SharedStore × Batch) : Prop where
  others : x.1.store.others = others
  turn : turn ≤ x.1.store.turn
  roster : x.2.ids.Perm ids
  claimed : ∀ id ∈ x.2.unsettled, x.1.store.table.statusOf id = some .inProgress
  settled : ∀ o ∈ x.2.outcomes, ∃ mark : Settlement, o.result = .ok mark ∧
    x.1.store.table.statusOf o.event = some mark.status

/-- From call `turn` on the others do not settle these rows. -/
def Untouched (others : Nat → List Act) (turn : Nat) (ids : List Int) : Prop :=
  ∀ later, turn ≤ later → ∀ a ∈ others later, ∀ id ∈ ids, ¬ a.settles id

variable {relay : Relay} {others : Nat → List Act} {turn : Nat} {ids : List Int}
  {s s' : RelayState SharedStore} {b : Batch} {d : Delivery} {rest : List Delivery}

theorem settlement_status_ne_new (mark : Settlement) : mark.status ≠ .new := by
  cases mark <;> exact nofun

theorem settleReply_shared (s : RelayState SharedStore) (d : Delivery)
    (result : Except PublishError Unit) :
    (d.settleReply s result).result = .ok () ∧
      (d.settleReply s result).store = { s.store with
        table := (s.store.found.settle s.clock.read.1 d.event.id
          (Settlement.ofResult result).status).2
        turn := s.store.turn + 1 } := by
  cases result <;> exact ⟨rfl, rfl⟩

theorem tracked_settle (distinct : ids.Nodup) (free : Untouched others turn ids)
    (h : Tracked others turn ids (s, b)) (first : b.ready = d :: rest) {outcome : Outcome}
    (step : d.step relay s = .settled s' outcome) :
    Tracked others turn ids (s'.note (Batch.outcomeJournal outcome),
      { b with ready := rest, outcomes := b.outcomes ++ [outcome] }) := by
  have roster := (Batch.ids_move (.settle first step)).trans h.roster
  have apart := (Batch.ids_of_ready first).nodup_iff.1 (h.roster.nodup_iff.2 distinct)
  have absent := (List.nodup_cons.1 apart).1
  obtain ⟨result, _, settle⟩ := Delivery.settling_of_step step
  obtain ⟨⟨clock, journal, rfl⟩, rfl⟩ := Delivery.settle_spec settle
  obtain ⟨reply, store⟩ := settleReply_shared s d result
  -- between two calls of the dispatcher the others leave its rows alone
  have kept {id : Int} {status : Status} (mem : id ∈ b.ids) (old : status ≠ .new)
      (known : s.store.table.statusOf id = some status) :
      s.store.found.statusOf id = some status := by
    refine statusOf_acts known old fun a ha => ?_
    rw [h.others] at ha
    exact free _ h.turn a ha id (h.roster.mem_iff.1 mem)
  have other {id : Int} {status : Status} (mem : id ∈ { b with ready := rest }.ids)
      (old : status ≠ .new) (known : s.store.table.statusOf id = some status) :
      (s.store.found.settle s.clock.read.1 d.event.id
        (Settlement.ofResult result).status).2.statusOf id = some status := by
    have differ : d.event.id ≠ id := fun same => absent (same ▸ mem)
    rw [statusOf_settle_other differ]
    exact kept ((Batch.ids_of_ready first).mem_iff.2 (List.mem_cons_of_mem _ mem)) old known
  simp only [RelayState.note, store]
  refine ⟨h.others, Nat.le_succ_of_le h.turn, roster, fun id hid => ?_, fun o ho => ?_⟩
  · have old : id ∈ b.unsettled := by
      simp only [Batch.unsettled, Batch.deliveries, first, List.mem_append, List.map_cons,
        List.cons_append, List.mem_cons] at hid ⊢
      exact .inr hid
    exact other (List.mem_append_right _ hid) (by decide) (h.claimed id old)
  · rcases List.mem_append.1 ho with old | new
    · obtain ⟨mark, ok, known⟩ := h.settled o old
      exact ⟨mark, ok, other (List.mem_append_left _ (List.mem_map_of_mem old))
        (settlement_status_ne_new mark) known⟩
    · cases List.mem_singleton.1 new
      have head : d.event.id ∈ b.unsettled := by
        simp [Batch.unsettled, Batch.deliveries, first]
      refine ⟨.ofResult result, by rw [reply]; rfl, ?_⟩
      exact statusOf_settle (kept (List.mem_append_right _ head) (by decide) (h.claimed _ head)) _ _

theorem tracked_of_move (distinct : ids.Nodup) (free : Untouched others turn ids)
    {x y : RelayState SharedStore × Batch} (move : Batch.Move relay x y)
    (h : Tracked others turn ids x) : Tracked others turn ids y := by
  have roster := (Batch.ids_move move).trans h.roster
  have same (outcomes : y.2.outcomes = x.2.outcomes) (store : y.1.store = x.1.store) :
      Tracked others turn ids y := by
    have unsettled : y.2.unsettled.Perm x.2.unsettled := by
      have ids := Batch.ids_move move
      unfold Batch.ids at ids
      rw [outcomes] at ids
      exact (List.perm_append_left_iff _).1 ids
    refine ⟨store ▸ h.others, store ▸ h.turn, roster, fun id hid => ?_, fun o ho => ?_⟩
    · rw [store]
      exact h.claimed id (unsettled.mem_iff.1 hid)
    · rw [store]
      exact h.settled o (outcomes ▸ ho)
  cases move with
  | takeUp _ _ => exact same rfl rfl
  | goOn _ step => exact same rfl (Delivery.store_of_next (Delivery.next_of_step step))
  | sleep _ _ => exact same rfl rfl
  | settle first step => exact tracked_settle distinct free h first step
  | wake _ _ => exact same rfl rfl

theorem askClaim_shared (relay : Relay) (s : RelayState SharedStore) :
    ∃ now, claimReply relay s = .ok (((s.store.table.acts (s.store.others s.store.turn)).acts
        (s.store.others (s.store.turn + 1))).claimNew now relay.plan.batchSize).1 ∧
      (askClaim relay s).2.store = { s.store with
        table := (((s.store.table.acts (s.store.others s.store.turn)).acts
          (s.store.others (s.store.turn + 1))).claimNew now relay.plan.batchSize).2
        turn := s.store.turn + 2 } := by
  obtain ⟨journal, checked⟩ := check_spec relay s
  unfold claimReply askClaim
  rw [checked]
  exact ⟨_, rfl, rfl⟩

theorem tracked_askClaim {s : RelayState SharedStore} {past : List Act}
    (table : s.store.table = empty.acts past) {events : List Event}
    (reply : claimReply relay s = .ok events) :
    (events.map (·.id)).Nodup ∧ Tracked s.store.others (s.store.turn + 2) (events.map (·.id))
      ((askClaim relay s).2, .ofEvents events) := by
  obtain ⟨now, claimed, store⟩ := askClaim_shared relay s
  have numbered := ((numbered_empty.acts past).acts (s.store.others s.store.turn)).acts
    (s.store.others (s.store.turn + 1))
  rw [← table] at numbered
  rw [reply] at claimed
  cases claimed
  refine ⟨numbered.claimNew_nodup now _, by rw [store], by rw [store], .refl _, fun id hid => ?_,
    fun o ho => (by cases ho)⟩
  obtain ⟨e, he, rfl⟩ := List.mem_map.1 hid
  rw [store]
  exact numbered.statusOf_of_claimNew he

/-- The rows of these events are as the report says. -/
structure Tallied (table : MemoryStore) (events : List Event) (report : Report) : Prop where
  published : events.countP (fun e => table.statusOf e.id = some .published) = report.published
  failed : events.countP (fun e => table.statusOf e.id = some .failed) = report.failed
  settled : ∀ e ∈ events, table.statusOf e.id ≠ some .inProgress

theorem settledAs_eq_countP {events : List Event} {table : MemoryStore}
    (each : (b.outcomes.map (·.event)).Perm (events.map (·.id)))
    (settled : ∀ o ∈ b.outcomes, ∃ mark : Settlement, o.result = .ok mark ∧
      table.statusOf o.event = some mark.status) (mark : Settlement) :
    events.countP (fun e => table.statusOf e.id = some mark.status) = settledAs b mark := by
  have perm := each.symm.countP_eq fun id => decide (table.statusOf id = some mark.status)
  rw [List.countP_map, List.countP_map] at perm
  refine perm.trans (List.countP_congr fun o ho => ?_)
  obtain ⟨mark', ok, status⟩ := settled o ho
  simp only [Function.comp_apply, status, ok, Option.some.injEq]
  cases mark <;> cases mark' <;> simp [Settlement.status]

theorem tallied_run {past later : List Act} {events : List Event} (relay : Relay)
    (s : RelayState SharedStore) (table : s.store.table = empty.acts past)
    (reply : claimReply relay s = .ok events)
    (free : Untouched s.store.others (s.store.turn + 2) (events.map (·.id)))
    (after : ∀ a ∈ later, ∀ id ∈ events.map (·.id), ¬ a.settles id) :
    ∃ report, (run relay s).2 = .ok report ∧
      Tallied ((run relay s).1.store.table.acts later) events report := by
  obtain ⟨distinct, tracked⟩ := tracked_askClaim table reply
  cases events with
  | nil =>
    rw [run_of_nil reply]
    exact ⟨Report.empty, rfl, rfl, rfl, by simp⟩
  | cons e rest =>
    rw [run_of_cons reply]
    have kept := (Batch.moves_runTo relay none _ _).keep _
      (fun _ _ move => tracked_of_move distinct free move) tracked
    have each := Batch.outcomes_runTo relay (askClaim relay s).2 (e :: rest)
    generalize (Batch.ofEvents (e :: rest)).runTo relay none (askClaim relay s).2 = final at *
    have settled : ∀ o ∈ final.2.outcomes, ∃ mark : Settlement, o.result = .ok mark ∧
        (final.1.store.table.acts later).statusOf o.event = some mark.status := by
      intro o ho
      obtain ⟨mark, ok, status⟩ := kept.settled o ho
      have mem : o.event ∈ (e :: rest).map (·.id) := each.mem_iff.1 (List.mem_map_of_mem ho)
      exact ⟨mark, ok, statusOf_acts status (settlement_status_ne_new mark)
        fun a ha => after a ha o.event mem⟩
    have none : settleErrors final.2 = [] := by
      refine List.filterMap_eq_nil_iff.2 fun o ho => ?_
      obtain ⟨mark, ok, _⟩ := settled o ho
      rw [ok]
    refine ⟨report final.2, ?_, settledAs_eq_countP each settled .published,
      settledAs_eq_countP each settled .failed, fun x hx => ?_⟩
    · simp only [close, result, none]
    · obtain ⟨o, ho, same⟩ := List.mem_map.1 (each.mem_iff.2 (List.mem_map_of_mem hx))
      obtain ⟨mark, _, status⟩ := settled o ho
      simp only [close, RelayState.note]
      rw [← same, status]
      cases mark <;> simp [Settlement.status]

end Shared

/-- Every claimed event gets one settle call and no other event gets any; the result counts these
calls, or those that were refused. On a shared table whose claimed rows nobody else settles, the
counts are those of the rows, then and later. -/
theorem run_settles_each_once :
    (∀ {σ : Type} [Outbox σ] (relay : Relay) (s : RelayState (Ledger σ)),
      ∃ new, (run relay s).1.store.marks = s.store.marks ++ new ∧
        match claimReply relay s with
        | .error e => new = [] ∧ (run relay s).2 = .error (.store e)
        | .ok events => Accounted events new (run relay s).2) ∧
    ∀ (relay : Relay) (s : RelayState SharedStore) (past later : List MemoryStore.Act)
      (events : List Event), s.store.table = MemoryStore.empty.acts past →
      claimReply relay s = .ok events →
      Untouched s.store.others (s.store.turn + 2) (events.map (·.id)) →
      (∀ a ∈ later, ∀ id ∈ events.map (·.id), ¬ a.settles id) →
      ∃ report, (run relay s).2 = .ok report ∧
        Tallied ((run relay s).1.store.table.acts later) events report :=
  ⟨fun relay s => accounted_run relay s,
    fun relay s _ _ _ table reply free after => tallied_run relay s table reply free after⟩

def promptRelay : Relay where
  targets := [⟨"orders", .direct "prompt"⟩]
  retry := .once
  breaker := .standard
  plan := .standard
  react _ _ _ _ _ := .atOnce (.ok ⟨0, 0⟩)

def newOrder : NewEvent := ⟨"Order", "order-1", "OrderPlaced", "p", .empty⟩

def orderInProgress (id : Int) : Event := ⟨newOrder, id, .inProgress, ⟨0⟩, none⟩

def refusingTable : RelayState (Ledger (TrialStore MemoryStore)) :=
  .initial ⟨⟨MemoryStore.empty.acts [.persist ⟨0⟩ newOrder, .persist ⟨0⟩ newOrder],
    { Faults.none with published := (· = 1) }, []⟩, []⟩

theorem run_refusingTable : (run promptRelay refusingTable).2 =
    .error (.unsettled 1 (TrialStore.fault "mark outbox event published")) := by
  obtain ⟨x, walked, refused⟩ : ∃ x ∈ Batch.walk promptRelay 30
      ((askClaim promptRelay refusingTable).2, .ofEvents [orderInProgress 1, orderInProgress 2]),
        settleErrors x.2 = [TrialStore.fault "mark outbox event published"] := by decide +kernel
  have ended := Batch.runTo_of_walk walked
  have claimed : claimReply promptRelay refusingTable =
      .ok [orderInProgress 1, orderInProgress 2] := rfl
  rw [run_of_cons claimed, ended]
  unfold close result
  rw [refused]
  rfl

def busyClient : List MemoryStore.Act := [.persist ⟨0⟩ newOrder, .claim ⟨0⟩ 1]

def crowdedTable : RelayState SharedStore :=
  .initial ⟨MemoryStore.empty.acts (List.replicate 3 (.persist ⟨0⟩ newOrder)), 0,
    fun turn => if turn = 1 then [.claim ⟨0⟩ 1] else busyClient⟩

theorem busyClient_settles_nothing (id : Int) : ∀ a ∈ busyClient, ¬ a.settles id := by
  intro a ha
  simp only [busyClient, List.mem_cons, List.not_mem_nil, or_false] at ha
  rcases ha with rfl | rfl <;> exact nofun

theorem crowdedTable_untouched (ids : List Int) : Untouched crowdedTable.store.others 2 ids := by
  intro later after a ha id _
  have busy : crowdedTable.store.others later = busyClient :=
    if_neg (show later ≠ 1 by omega)
  rw [busy] at ha
  exact busyClient_settles_nothing id a ha

theorem run_settles_each_once_of_crowded :
    (∃ new, (run promptRelay refusingTable).1.store.marks = [] ++ new ∧
      Accounted [orderInProgress 1, orderInProgress 2] new
        (.error (.unsettled 1 (TrialStore.fault "mark outbox event published")))) ∧
    crowdedTable.store.table =
        MemoryStore.empty.acts (List.replicate 3 (.persist ⟨0⟩ newOrder)) ∧
      claimReply promptRelay crowdedTable = .ok [orderInProgress 3, orderInProgress 4] ∧
      ∃ report, (run promptRelay crowdedTable).2 = .ok report ∧
        Tallied ((run promptRelay crowdedTable).1.store.table.acts busyClient)
          [orderInProgress 3, orderInProgress 4] report := by
  refine ⟨?_, rfl, rfl, run_settles_each_once.2 promptRelay crowdedTable _ _ _ rfl rfl
    (crowdedTable_untouched _) fun a ha id _ => busyClient_settles_nothing id a ha⟩
  obtain ⟨new, marks, accounted⟩ := run_settles_each_once.1 promptRelay refusingTable
  exact ⟨new, marks, run_refusingTable ▸ accounted⟩

end OutboxRelay.Cycle
