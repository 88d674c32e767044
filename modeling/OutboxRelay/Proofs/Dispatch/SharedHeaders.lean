import Mathlib.Algebra.BigOperators.Group.List.Basic
import OutboxRelay.Proofs.DeadLetter.Diagnostics
import OutboxRelay.Proofs.Dispatch.Alike
import OutboxRelay.Proofs.Dispatch.Alone
import OutboxRelay.Proofs.Dispatch.Course
import OutboxRelay.Proofs.Dispatch.Solo
import OutboxRelay.Proofs.Outgoing.Completion

/-! The headers that all letters of a dispatched event share. They are completed when the event is
taken up, and identifiers are drawn then and never again: which draws an event gets depends on the
events taken up before it alone. What the letters carry next to the headers is not followed here. -/

namespace OutboxRelay

/-! ### The headers of one event -/

def Outgoing.drawsOf (events : List Event) : Nat :=
  (events.map fun e => correlationDraws e.headers + contextDraws e.headers).sum

theorem Outgoing.drawsOf_concat (e : Event) (events : List Event) : drawsOf (events ++ [e]) =
    drawsOf events + (correlationDraws e.headers + contextDraws e.headers) := by
  simp [drawsOf]

structure Event.GoesUnder (e : Event) (ids : IdSource) (h : Headers) : Prop where
  stored : ∀ key value, e.headers.get? key = some value → h.get? key = some value
  correlationId : e.headers.get? correlationIdKey = none →
    h.get? correlationIdKey = some (ids.draws ids.used).hyphenated
  traceparent : e.headers.get? traceparentKey = none →
    h.get? traceparentKey = some (Traceparent.ofUuids
      (ids.draws (ids.used + Outgoing.correlationDraws e.headers))
      (ids.draws (ids.used + Outgoing.correlationDraws e.headers + 1)))

theorem Outgoing.goesUnder_headers (e : Event) (ids : IdSource) :
    e.GoesUnder ids (headers e ids).1 where
  stored key value known := by rw [get?_headers, known, Option.some_or]
  correlationId missing := by
    rw [get?_headers, missing]
    rfl
  traceparent missing := by
    rw [get?_headers, missing]
    rfl

/-! ### The headers of one letter -/

/-- A letter to a broker, or the copy of one that failed, that carries these headers. -/
inductive Letter.Carries (h : Headers) : Publisher → (isCopy : Bool) → Letter → Prop
  | kafka {suffix topic key payload} :
    Carries h (.kafka suffix) false (.kafka ⟨topic, key, payload, h⟩)
  | kafkaCopy {suffix record}
    (others : ∀ key ∉ DeadLetter.diagnosticKeys, record.headers.get? key = h.get? key) :
    Carries h (.kafka suffix) true (.kafka record)
  | jms {destination id body} (correlationId : h.get? correlationIdKey = some id) :
    Carries h .jms false (.jms ⟨destination, some id, body, h.erase correlationIdKey⟩)
  | direct {name destination body} : Carries h (.direct name) false (.direct destination body h)

namespace Posting

variable {p : Posting}

theorem firstLetter_carries (ids : IdSource)
    (correlated : (p.headers.get? correlationIdKey).isSome) :
    (p.firstLetter ids).1.Carries p.headers p.target.publisher false ∧
      (p.firstLetter ids).2 = ids := by
  obtain ⟨id, known⟩ := Option.isSome_iff_exists.1 correlated
  unfold firstLetter
  cases p.target.publisher with
  | kafka suffix => exact ⟨.kafka, rfl⟩
  | jms =>
    unfold JmsMessage.ofHeaders
    rw [known]
    exact ⟨.jms known, rfl⟩
  | direct name => exact ⟨.direct, rfl⟩

theorem deadLetterCopy_carries {suffix : String} (kafka : p.target.publisher = .kafka suffix)
    (e : PublishError) :
    (Letter.kafka (p.deadLetterCopy suffix e)).Carries p.headers p.target.publisher true := by
  rw [kafka]
  exact .kafkaCopy fun key other => DeadLetter.get?_headersForKafka_of_other _ rfl other

end Posting

/-- A letter to one of the dispatcher's targets, for this event and under these headers. What came of
it is not looked at. -/
structure Call.SentUnder (relay : Relay) (event : Int) (h : Headers) (c : Call) : Prop where
  own : c.event = event
  carries : ∃ target, relay.targets[c.target]? = some target ∧
    c.letter.Carries h target.publisher c.isCopy

/-! ### The steps of a delivery -/

section Calls

variable {calls : List Call} {n : Nat} {P : Call → Prop}

theorem forall_drop_concat {c : Call} (known : n ≤ calls.length) (old : ∀ x ∈ calls.drop n, P x)
    (new : P c) : ∀ x ∈ (calls ++ [c]).drop n, P x := by
  rw [List.drop_append_of_le_length known]
  exact List.forall_mem_append.2 ⟨old, List.forall_mem_singleton.2 new⟩

theorem forall_drop_modify {f : Call → Call} (kept : ∀ c, P c → P (f c)) (number : Nat)
    (old : ∀ x ∈ calls.drop n, P x) : ∀ x ∈ (calls.modify number f).drop n, P x := by
  intro x member
  obtain ⟨i, here⟩ := List.mem_iff_getElem?.1 member
  rw [List.getElem?_drop, List.getElem?_modify] at here
  obtain ⟨c, there, rfl⟩ := Option.map_eq_some_iff.1 here
  have before : P c := old c (List.mem_iff_getElem?.2 ⟨i, (List.getElem?_drop ..).trans there⟩)
  split
  · exact kept c before
  · exact before

end Calls

namespace Delivery

variable {σ : Type} {relay : Relay} {s s' : RelayState σ} {d d' : Delivery}

theorem headers_of_next (h : Next relay s d s' d') : d'.headers = d.headers := by
  have concluded {now result d'} (h : Concluded relay now d result d') :
      d'.headers = d.headers := by
    cases h <;> rfl
  cases h with
  | refused _ _ h => exact concluded h
  | completed _ _ h => exact concluded h
  | timedOut _ _ _ _ h => exact concluded h
  | _ => rfl

theorem ids_of_next (h : Next relay s d s' d')
    (correlated : (d.headers.get? correlationIdKey).isSome) : s'.ids = s.ids := by
  cases h with
  | handed _ _ first _ =>
    exact (congrArg Prod.snd first).symm.trans (Posting.firstLetter_carries s.ids correlated).2
  | _ => rfl

theorem forall_calls_of_next {P : Call → Prop} {n : Nat} (h : Next relay s d s' d')
    (known : n ≤ s.calls.length) (aims : Aims relay d)
    (correlated : (d.headers.get? correlationIdKey).isSome)
    (ended : ∀ c state, P c → P { c with state := state })
    (sent : ∀ c : Call, c.SentUnder relay d.event.id d.headers → P c)
    (old : ∀ c ∈ s.calls.drop n, P c) : ∀ c ∈ s'.calls.drop n, P c := by
  unfold Aims at aims
  have closed (number : Nat) (state : CallState) :
      ∀ c ∈ (s.endCall number state).calls.drop n, P c :=
    forall_drop_modify (ended · state) number old
  cases h with
  | @handed a target rest letter ids timers answer deadline stage targets first _ =>
    rw [stage] at aims
    have carries := (Posting.firstLetter_carries (p := d.posting target.2) s.ids correlated).1
    rw [first] at carries
    exact forall_drop_concat known old
      (sent _ ⟨rfl, target.2, aims target (targets ▸ List.mem_cons_self), carries⟩)
  | @copied a f timer e suffix timers answer' deadline journal copy stage _ _ _ kafka letter _ =>
    rw [stage] at aims
    have carries := Posting.deadLetterCopy_carries (p := d.posting f.target.2) kafka e
    rw [← letter] at carries
    refine forall_drop_concat ?_ (closed f.call _) (sent _ ⟨rfl, f.target.2, aims.1, carries⟩)
    rwa [RelayState.endCall, List.length_modify]
  | accepted | failed | copyAnswered | timedOut => exact closed _ _
  | refused | admitted | completed | resumed => exact old

end Delivery

/-! ### Batches -/

namespace Batch

variable {σ : Type} [Outbox σ] {relay : Relay} {since : RelayState σ} {started : List Event}

/-- The event was taken up after those that stand before it, with the headers it got then. -/
def TookUp (ids : IdSource) (started : List Event) (e : Event) (h : Headers) : Prop :=
  ∃ before after, started = before ++ e :: after ∧
    h = (Outgoing.headers e (ids.skip (Outgoing.drawsOf before))).1

theorem TookUp.concat {ids : IdSource} {e : Event} {h : Headers} (took : TookUp ids started e h)
    (event : Event) : TookUp ids (started ++ [event]) e h := by
  obtain ⟨before, after, rfl, same⟩ := took
  exact ⟨before, after ++ [event], by simp, same⟩

theorem TookUp.correlated {ids : IdSource} {e : Event} {h : Headers}
    (took : TookUp ids started e h) : (h.get? correlationIdKey).isSome := by
  obtain ⟨_, _, _, rfl⟩ := took
  exact Outgoing.isSome_correlationId ..

structure Sharing (relay : Relay) (since : RelayState σ) (started : List Event)
    (x : RelayState σ × Batch) : Prop where
  ids : x.1.ids = since.ids.skip (Outgoing.drawsOf started)
  known : since.calls.length ≤ x.1.calls.length
  aims : ∀ d ∈ x.2.deliveries, d.Aims relay
  inFlight : ∀ d ∈ x.2.deliveries, TookUp since.ids started d.event d.headers
  sent : ∀ c ∈ x.1.calls.drop since.calls.length, ∃ e h, TookUp since.ids started e h ∧
    c.SentUnder relay e.id h

variable {s s' : RelayState σ} {b : Batch} {d d' : Delivery} {rest : List Delivery}

omit [Outbox σ] in
theorem sharing_ofEvents (relay : Relay) (since : RelayState σ) (events : List Event) :
    Sharing relay since [] (since, ofEvents events) := by
  have none : (ofEvents events).deliveries = [] := rfl
  refine ⟨?_, Nat.le_refl _, ?_, ?_, ?_⟩
  · simp [Outgoing.drawsOf, IdSource.skip]
  · simp [none]
  · simp [none]
  · simp

omit [Outbox σ] in
theorem sharing_takeUp (h : Sharing relay since started (s, b)) (event : Event)
    (pending : List Event) :
    Sharing relay since (started ++ [event]) ((Delivery.start s event).1,
      { b with pending := pending, ready := b.ready ++ [(Delivery.start s event).2] }) := by
  have each {keeps : Delivery → Prop} (new : keeps (Delivery.start s event).2)
      (old : ∀ d ∈ b.deliveries, keeps d) : ∀ d ∈ ({ b with
        pending := pending
        ready := b.ready ++ [(Delivery.start s event).2] } : Batch).deliveries, keeps d := by
    intro d member
    rcases List.mem_cons.1 ((deliveries_takeUp b pending _).mem_iff.1 member) with rfl | member
    · exact new
    · exact old d member
  refine ⟨?_, h.known, each trivial h.aims, ?_, fun c member => ?_⟩
  · have drawn : s.ids = since.ids.skip (Outgoing.drawsOf started) := h.ids
    rw [Delivery.start_eq, Outgoing.drawsOf_concat, ← IdSource.skip_skip, ← drawn,
      Outgoing.headers_eq]
  · refine each ⟨started, [], rfl, ?_⟩ fun d member => (h.inFlight d member).concat event
    exact congrArg (fun ids => (Outgoing.headers event ids).1) h.ids
  · obtain ⟨e, headers, took, sent⟩ := h.sent c member
    exact ⟨e, headers, took.concat event, sent⟩

theorem sharing_goOn (h : Sharing relay since started (s, b)) (first : b.ready = d :: rest)
    (step : d.step relay s = .next s' d') :
    Sharing relay since started (s', { b with ready := d' :: rest }) := by
  have next := Delivery.next_of_step step
  have head : d ∈ b.deliveries := List.mem_append_left _ (first ▸ List.mem_cons_self)
  have took := h.inFlight d head
  have each {keeps : Delivery → Prop} (new : keeps d') (old : ∀ d ∈ b.deliveries, keeps d) :
      ∀ d ∈ ({ b with ready := d' :: rest } : Batch).deliveries, keeps d := by
    rw [deliveries_of_ready first] at old
    exact List.forall_mem_cons.2 ⟨new, (List.forall_mem_cons.1 old).2⟩
  refine ⟨(Delivery.ids_of_next next took.correlated).trans h.ids,
    h.known.trans (Delivery.calls_of_next next),
    each (Delivery.aims_of_next next (h.aims d head)) h.aims, each ?_ h.inFlight, ?_⟩
  · rw [Delivery.event_of_next next, Delivery.headers_of_next next]
    exact took
  · exact Delivery.forall_calls_of_next next h.known (h.aims d head) took.correlated
      (fun _ _ ⟨e, headers, took, sent⟩ => ⟨e, headers, took, sent.own, sent.carries⟩)
      (fun _ sent => ⟨d.event, d.headers, took, sent⟩) h.sent

theorem sharing_of_move {x y : RelayState σ × Batch} (move : Move relay x y)
    (h : Sharing relay since started x) :
    ∃ started', started' ++ y.2.pending = started ++ x.2.pending ∧
      Sharing relay since started' y := by
  cases move with
  | @takeUp s b event pending first _ =>
    exact ⟨started ++ [event], by simp [first], sharing_takeUp h event pending⟩
  | goOn first step => exact ⟨started, rfl, sharing_goOn h first step⟩
  | sleep first _ =>
    exact ⟨started, rfl, h.ids, h.known,
      fun d member => h.aims d ((deliveries_sleep first).mem_iff.1 member),
      fun d member => h.inFlight d ((deliveries_sleep first).mem_iff.1 member), h.sent⟩
  | settle first settled =>
    obtain ⟨result, _, settle⟩ := Delivery.settling_of_step settled
    obtain ⟨⟨clock, journal, rfl⟩, rfl⟩ := Delivery.settle_spec settle
    obtain ⟨ids, known, aims, inFlight, sent⟩ := h
    rw [deliveries_of_ready first] at aims inFlight
    exact ⟨started, rfl, ids, known, (List.forall_mem_cons.1 aims).2,
      (List.forall_mem_cons.1 inFlight).2, sent⟩
  | wake _ _ =>
    exact ⟨started, rfl, h.ids, h.known,
      fun d member => h.aims d ((deliveries_wake _ _).mem_iff.1 member),
      fun d member => h.inFlight d ((deliveries_wake _ _).mem_iff.1 member), h.sent⟩

theorem split_unique {events : List Event} (distinct : (events.map (·.id)).Nodup)
    {before before' after after' : List Event} {e e' : Event} (split : events = before ++ e :: after)
    (split' : events = before' ++ e' :: after') (same : e.id = e'.id) :
    before = before' ∧ e = e' := by
  have place : (events.map (·.id))[before.length]? = some e.id := by simp [split]
  have place' : (events.map (·.id))[before'.length]? = some e'.id := by simp [split']
  have inside : before.length < (events.map (·.id)).length := by simp [split]
  have lengths : before.length = before'.length :=
    (List.getElem?_inj inside distinct).1 (place.trans (same ▸ place'.symm))
  obtain ⟨sameBefore, rest⟩ := List.append_inj (split.symm.trans split') lengths
  exact ⟨sameBefore, (List.cons.inj rest).1⟩

/-- What the events that were taken up went out under. -/
structure SharesHeaders (relay : Relay) (since s : RelayState σ) (started : List Event) : Prop where
  drawn : s.ids = since.ids.skip (Outgoing.drawsOf started)
  /-- One map of headers for all attempts, targets and dead-letter copies of an event. -/
  shared : ∀ before e after, started = before ++ e :: after → ∃ h,
    e.GoesUnder (since.ids.skip (Outgoing.drawsOf before)) h ∧
      ∀ c ∈ since.callsSince s e.id, c.SentUnder relay e.id h

/-- Whatever the brokers do, at any time of a batch and at its end. -/
theorem runTo_sharesHeaders (relay : Relay) (limit : Option Instant) (s : RelayState σ)
    {events : List Event} (distinct : (events.map (·.id)).Nodup) :
    ∃ started, events = started ++ ((ofEvents events).runTo relay limit s).2.pending ∧
      (limit = none → started = events) ∧
      SharesHeaders relay s ((ofEvents events).runTo relay limit s).1 started := by
  obtain ⟨started, split, sharing⟩ := (moves_runTo relay limit s (ofEvents events)).keep
    (fun x => ∃ started, started ++ x.2.pending = events ∧ Sharing relay s started x)
    (fun _ _ move ⟨_, split, sharing⟩ =>
      have ⟨started, still, later⟩ := sharing_of_move move sharing
      ⟨started, still.trans split, later⟩)
    ⟨[], rfl, sharing_ofEvents relay s events⟩
  refine ⟨started, split.symm, fun whole => ?_, sharing.ids, fun before e after place =>
    ⟨_, Outgoing.goesUnder_headers e _, fun c member => ?_⟩⟩
  · subst whole
    have done := isOver_runTo relay s events
    simp only [isOver, Bool.and_eq_true, List.isEmpty_iff] at done
    rw [done.1.1, List.append_nil] at split
    exact split
  · obtain ⟨since, own⟩ := List.mem_filter.1 member
    obtain ⟨e', h, ⟨before', after', place', rfl⟩, sent⟩ := sharing.sent c since
    have distinct : (started.map (·.id)).Nodup := by
      rw [← split, List.map_append] at distinct
      exact (List.nodup_append.1 distinct).1
    obtain ⟨rfl, rfl⟩ := split_unique distinct place place'
      ((of_decide_eq_true own).symm.trans sent.own)
    exact sent

def stumblingRelay : Relay where
  targets := [⟨"orders", .kafka "-dlq"⟩, ⟨"orders", .jms⟩]
  retry := .standard
  breaker := .standard
  plan := .standard
  react _ past _ _ _ :=
    if past.length < 3 then .atOnce (.error (.unavailable "broker" "down"))
    else .atOnce (.ok ⟨0, 0⟩)

theorem sharesHeaders_of_stumbling :
    ([placedOrder].map (·.id)).Nodup ∧
      (freshState.callsSince (dispatched stumblingRelay freshState [placedOrder]) 1).map
        (fun c => (c.target, c.attempt, c.isCopy)) =
          [(0, 1, false), (0, 1, true), (1, 1, false), (0, 2, false), (1, 2, false)] ∧
      SharesHeaders stumblingRelay freshState
        (dispatched stumblingRelay freshState [placedOrder]) [placedOrder] := by
  obtain ⟨s, way, calls⟩ : ∃ s ∈ wholeWay stumblingRelay 40 freshState placedOrder,
      (freshState.callsSince s 1).map (fun c => (c.target, c.attempt, c.isCopy)) =
        [(0, 1, false), (0, 1, true), (1, 1, false), (0, 2, false), (1, 2, false)] := by
    decide +kernel
  obtain rfl := eq_dispatched_of_wholeWay way
  have distinct : ([placedOrder].map (·.id)).Nodup := by decide
  obtain ⟨started, _, all, shares⟩ := runTo_sharesHeaders stumblingRelay none freshState distinct
  cases all rfl
  exact ⟨distinct, calls, shares⟩

end Batch

end OutboxRelay
