import OutboxRelay.Proofs.Dispatch.SharedHeaders

/-! The keys of the records that are handed to Kafka. A key is the aggregate id that the record's
headers name: what an event was stored with under that name, and otherwise the event's own
aggregate id. So the events of an aggregate share a key unless one of them was stored with another
aggregate id among its headers. Which partition a key leads to is left to the client. -/

namespace OutboxRelay

open Text

def Event.namedAggregate (e : Event) : String := (e.headers.get? "aggregateId").getD e.aggregateId

theorem Outgoing.get?_aggregateId (e : Event) (ids : IdSource) :
    (headers e ids).1.get? aggregateIdKey = some e.namedAggregate := by
  have own : (added e ids).lookup aggregateIdKey = some e.aggregateId :=
    lookup_added_of_mem (.tail _ (.tail _ (.tail _ (.tail _ (.tail _ (.head _))))))
  rw [get?_headers, own, Option.or_some]
  rfl

namespace Letter

def record? : Letter → Option KafkaRecord
  | kafka record => some record
  | _ => none

/-- A letter to Kafka has for its key what its headers name as the aggregate. -/
def Keyed (l : Letter) : Prop :=
  ∀ record ∈ l.record?, record.key = (record.headers.get? aggregateIdKey).map utf8

theorem Carries.get?_aggregateId {h : Headers} {publisher : Publisher} {isCopy : Bool}
    {record : KafkaRecord} (carries : (Letter.kafka record).Carries h publisher isCopy) :
    record.headers.get? aggregateIdKey = h.get? aggregateIdKey := by
  cases carries with
  | kafka => rfl
  | kafkaCopy others => exact others aggregateIdKey (by decide)

end Letter

namespace Posting

theorem keyed_firstLetter (p : Posting) (ids : IdSource) : (p.firstLetter ids).1.Keyed := by
  unfold firstLetter
  cases p.target.publisher with
  | kafka suffix => rintro record ⟨⟩; rfl
  | jms | direct => nofun

theorem keyed_deadLetterCopy (p : Posting) (suffix : String) (e : PublishError) :
    (Letter.kafka (p.deadLetterCopy suffix e)).Keyed := by
  rintro record ⟨⟩
  have same : (p.deadLetterCopy suffix e).headers.get? aggregateIdKey =
      p.headers.get? aggregateIdKey :=
    DeadLetter.get?_headersForKafka_of_other _ rfl (by decide)
  rw [same]
  rfl

end Posting

section Steps

variable {σ : Type} {relay : Relay} {s s' : RelayState σ} {n : Nat}

theorem Delivery.keyed_of_next {d d' : Delivery} (h : Next relay s d s' d')
    (known : n ≤ s.calls.length) (keyed : ∀ c ∈ s.calls.drop n, c.letter.Keyed) :
    ∀ c ∈ s'.calls.drop n, c.letter.Keyed := by
  have ended (c : Call) (state : CallState) (old : c.letter.Keyed) :
      ({ c with state := state } : Call).letter.Keyed := old
  have closed (number : Nat) (state : CallState) :
      ∀ c ∈ (s.endCall number state).calls.drop n, c.letter.Keyed :=
    forall_drop_modify (ended · state) number keyed
  cases h with
  | @handed a target rest letter ids timers answer deadline stage targets first _ =>
    have new := Posting.keyed_firstLetter (d.posting target.2) s.ids
    rw [first] at new
    exact forall_drop_concat known keyed new
  | @copied a f timer e suffix timers answer' deadline journal copy _ _ _ _ kafka letter _ =>
    have new := Posting.keyed_deadLetterCopy (d.posting f.target.2) suffix e
    rw [← letter] at new
    refine forall_drop_concat ?_ (closed f.call _) new
    rwa [RelayState.endCall, List.length_modify]
  | accepted | failed | copyAnswered | timedOut => exact closed _ _
  | refused | admitted | completed | resumed => exact keyed

variable [Outbox σ]

structure Batch.KeyedSince (n : Nat) (x : RelayState σ × Batch) : Prop where
  known : n ≤ x.1.calls.length
  keyed : ∀ c ∈ x.1.calls.drop n, c.letter.Keyed

theorem Batch.keyed_of_move {x y : RelayState σ × Batch} (move : Move relay x y)
    (h : KeyedSince n x) : KeyedSince n y := by
  cases move with
  | takeUp | sleep | wake => exact ⟨h.known, h.keyed⟩
  | goOn first step =>
    have next := Delivery.next_of_step step
    exact ⟨h.known.trans (Delivery.calls_of_next next), Delivery.keyed_of_next next h.known h.keyed⟩
  | settle first settled =>
    obtain ⟨result, _, settle⟩ := Delivery.settling_of_step settled
    obtain ⟨⟨clock, journal, rfl⟩, -⟩ := Delivery.settle_spec settle
    exact ⟨h.known, h.keyed⟩

end Steps

/-- A batch of events on its way: to its end, or up to a limit of time. -/
structure Dispatch (σ : Type) where
  relay : Relay
  limit : Option Instant
  start : RelayState σ
  events : List Event
  distinct : (events.map (·.id)).Nodup

namespace Dispatch

variable {σ σ' : Type} [Outbox σ] [Outbox σ']

def reached (d : Dispatch σ) : RelayState σ :=
  ((Batch.ofEvents d.events).runTo d.relay d.limit d.start).1

def records (d : Dispatch σ) (event : Int) : List KafkaRecord :=
  (d.start.callsSince d.reached event).filterMap (·.letter.record?)

theorem key_eq (d : Dispatch σ) {e : Event} (claimed : e ∈ d.events) :
    ∀ record ∈ d.records e.id, record.key = some (utf8 e.namedAggregate) := by
  intro record member
  obtain ⟨c, own, letter⟩ := List.mem_filterMap.1 member
  obtain ⟨since, event⟩ := List.mem_filter.1 own
  obtain ⟨⟨started, split, sharing⟩, keyed⟩ :=
    (Batch.moves_runTo d.relay d.limit d.start (.ofEvents d.events)).keep
      (fun x => (∃ started, started ++ x.2.pending = d.events ∧
        Batch.Sharing d.relay d.start started x) ∧ Batch.KeyedSince d.start.calls.length x)
      (fun _ _ move ⟨⟨_, split, sharing⟩, keyed⟩ =>
        have ⟨started, still, later⟩ := Batch.sharing_of_move move sharing
        ⟨⟨started, still.trans split, later⟩, Batch.keyed_of_move move keyed⟩)
      ⟨⟨[], rfl, Batch.sharing_ofEvents d.relay d.start d.events⟩, Nat.le_refl _, by simp⟩
  obtain ⟨e', h, ⟨before, after, place, rfl⟩, sent⟩ := sharing.sent c since
  -- ids tell the events of a batch apart
  have same : e' = e := by
    have started : e' ∈ d.events := split ▸ List.mem_append_left _ (by simp [place])
    exact List.inj_on_of_nodup_map d.distinct started claimed
      (sent.own.symm.trans (of_decide_eq_true event))
  subst same
  obtain ⟨target, -, carries⟩ := sent.carries
  have key := keyed.keyed c since record letter
  cases kind : c.letter with
  | kafka record' =>
    rw [kind] at letter carries
    cases letter
    rw [key, carries.get?_aggregateId, Outgoing.get?_aggregateId, Option.map_some]
  | jms | direct => rw [kind] at letter; cases letter

/-- The key of an event's records is settled by its aggregate id and by what it was stored with
under that name; so events of one aggregate share a key, in whatever batches and by whatever
dispatchers they are sent, unless one of them was stored under another aggregate's id. -/
theorem records_keyed (d : Dispatch σ) {e : Event} (claimed : e ∈ d.events) :
    (∀ record ∈ d.records e.id,
      record.key = some (utf8 ((e.headers.get? "aggregateId").getD e.aggregateId))) ∧
    ∀ (d' : Dispatch σ') (e' : Event), e' ∈ d'.events → e'.aggregateId = e.aggregateId →
      (∀ x ∈ [e, e'], ∀ stored, x.headers.get? "aggregateId" = some stored →
        stored = e.aggregateId) →
      ∀ record ∈ d.records e.id, ∀ record' ∈ d'.records e'.id,
        record.key = some (utf8 e.aggregateId) ∧ record'.key = some (utf8 e.aggregateId) := by
  refine ⟨d.key_eq claimed, fun d' e' claimed' same own record sent record' sent' => ?_⟩
  have named {x : Event} (member : x ∈ [e, e']) (aggregate : x.aggregateId = e.aggregateId) :
      x.namedAggregate = e.aggregateId := by
    unfold Event.namedAggregate
    cases stored : x.headers.get? "aggregateId" with
    | none => exact aggregate
    | some value => exact own x member value stored
  rw [d.key_eq claimed record sent, d'.key_eq claimed' record' sent',
    named List.mem_cons_self rfl, named (List.mem_cons_of_mem _ List.mem_cons_self) same]
  exact ⟨rfl, rfl⟩

/-! ### Two events of one aggregate -/

def paidOrder : Event :=
  { Batch.placedOrder with
    eventType := "OrderPaid"
    headers := .ofList [("aggregateId", "order-1")]
    id := 2 }

def strayOrder : Event := { paidOrder with headers := .ofList [("aggregateId", "order-2")] }

def startingRelay : Relay where
  targets := [⟨"orders", .kafka "-dlq"⟩]
  retry := .standard
  breaker := .standard
  plan := { DispatchPlan.standard with concurrency := 1 }
  react _ past event _ _ :=
    if past.countP (·.event = event) < 2 then .atOnce (.error (.unavailable "kafka" "down"))
    else .atOnce (.ok ⟨0, 0⟩)

def bothOf (first second : Event) (distinct : first.id ≠ second.id) :
    Dispatch (Ledger MemoryStore) where
  relay := startingRelay
  limit := none
  start := Batch.freshState
  events := [first, second]
  distinct := by simp [distinct]

def placedAndPaid : Dispatch (Ledger MemoryStore) := bothOf Batch.placedOrder paidOrder (by decide)

def placedAndStray : Dispatch (Ledger MemoryStore) :=
  bothOf Batch.placedOrder strayOrder (by decide)

theorem records_of_walk {d : Dispatch σ} (unlimited : d.limit = none) (moves : Nat)
    (holds : (Int → List KafkaRecord) → Prop)
    (h : ∃ x ∈ Batch.walk d.relay moves (d.start, .ofEvents d.events),
      holds fun event => (d.start.callsSince x.1 event).filterMap (·.letter.record?)) :
    holds d.records := by
  obtain ⟨x, walked, there⟩ := h
  have ended : d.reached = x.1 := by
    unfold reached
    rw [unlimited]
    exact congrArg Prod.fst (Batch.runTo_of_walk walked)
  rw [← ended] at there
  exact there

theorem records_keyed_of_starting :
    Batch.placedOrder ∈ placedAndPaid.events ∧ paidOrder ∈ placedAndPaid.events ∧
      (placedAndPaid.records 1).map (·.topic) = ["orders", "orders-dlq", "orders"] ∧
      (placedAndPaid.records 2).map (·.topic) = ["orders", "orders-dlq", "orders"] ∧
      ∀ record ∈ placedAndPaid.records 1, ∀ record' ∈ placedAndPaid.records 2,
        record.key = some (utf8 "order-1") ∧ record'.key = some (utf8 "order-1") := by
  have first : Batch.placedOrder ∈ placedAndPaid.events := List.mem_cons_self
  have second : paidOrder ∈ placedAndPaid.events := List.mem_cons_of_mem _ List.mem_cons_self
  obtain ⟨sent, sent'⟩ := records_of_walk (d := placedAndPaid) rfl 80
    (fun records => (records 1).map (·.topic) = ["orders", "orders-dlq", "orders"] ∧
      (records 2).map (·.topic) = ["orders", "orders-dlq", "orders"]) (by decide +kernel)
  refine ⟨first, second, sent, sent', ?_⟩
  exact (records_keyed placedAndPaid first).2 placedAndPaid paidOrder second rfl (by decide)

/-- An aggregate id among the stored headers of an event takes it away from its aggregate. -/
theorem stored_aggregate_parts_events :
    ¬ ∀ (d : Dispatch (Ledger MemoryStore)) (e e' : Event), e ∈ d.events → e' ∈ d.events →
      e.aggregateId = e'.aggregateId →
      ∀ record ∈ d.records e.id, ∀ record' ∈ d.records e'.id,
        record.key = some (utf8 e.aggregateId) ∧ record'.key = record.key := by
  intro all
  obtain ⟨⟨record, sent, key⟩, record', sent', key'⟩ := records_of_walk (d := placedAndStray) rfl 80
    (fun records => (∃ record ∈ records 1, record.key = some (utf8 "order-1")) ∧
      ∃ record ∈ records 2, record.key = some (utf8 "order-2")) (by decide +kernel)
  have same := (all placedAndStray Batch.placedOrder strayOrder List.mem_cons_self
    (List.mem_cons_of_mem _ List.mem_cons_self) rfl record sent record' sent').2
  rw [key, key'] at same
  exact absurd same (by decide)

end Dispatch

end OutboxRelay
