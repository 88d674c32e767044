import OutboxRelay.Dispatch.Relay

/-! One claimed event on its way to all targets. It is published when every target has accepted it,
in whatever attempts. An attempt sends to every target that has not accepted yet, in order, one
after the other, also after one of them failed; the breaker stands before it and its budget around
it. `Delivery.step` does one thing at a time: a call of the store, a letter handed over, an answer
taken, a pause begun or ended. -/

namespace OutboxRelay

structure Attempt where
  started : Instant
  /-- The end of the budget, set when the attempt first has to wait. -/
  deadline : Option Timer
  targets : List (Nat × Target)
  firstError : Option PublishError

structure Flight where
  target : Nat × Target
  letter : Letter
  call : Nat
  cause : Option PublishError
  /-- The answer and when it is there, unless it never comes. -/
  answer : Option (Timer × Except PublishError Receipt)

inductive Stage
  | beginning
  | sending (attempt : Attempt)
  | awaiting (attempt : Attempt) (flight : Flight)
  | pausing (timer : Timer)
  | settling (result : Except PublishError Unit)

inductive Settlement
  | published
  | failed
deriving DecidableEq

structure Outcome where
  event : Int
  started : Instant
  ended : Instant
  result : Except StoreError Settlement

structure Delivery where
  event : Event
  headers : Headers
  started : Instant
  attempt : UInt32
  accepted : List Nat
  stage : Stage

namespace Delivery

variable {σ : Type}

inductive Move (σ : Type)
  | next (state : RelayState σ) (delivery : Delivery)
  | waits
  | settled (state : RelayState σ) (outcome : Outcome)

/-- Take an event up. Its headers are completed once, for all attempts and targets. -/
def start (s : RelayState σ) (event : Event) : RelayState σ × Delivery :=
  let (headers, ids) := Outgoing.headers event s.ids
  ({ s with ids := ids }, ⟨event, headers, s.now, 1, [], .beginning⟩)

def posting (d : Delivery) (target : Target) : Posting := ⟨target, d.event.payload, d.headers⟩

def attemptEntry (d : Delivery) : JournalEntry :=
  ⟨.debug, "publishing outbox event",
    [("event_id", toString d.event.id), ("attempt", toString d.attempt.toNat)]⟩

def targetFailedEntry (target : Target) (e : PublishError) : JournalEntry :=
  ⟨.debug, "publish target failed", [("to", target.text), ("error", e.message)]⟩

def publishedEntry (e : Event) : JournalEntry :=
  ⟨.info, "outbox event published", [("event_id", toString e.id), ("event_type", e.eventType),
    ("aggregate_id", e.aggregateId)]⟩

def failedEntry (e : Event) (cause : PublishError) : JournalEntry :=
  ⟨.warn, "outbox event failed", [("event_id", toString e.id), ("event_type", e.eventType),
    ("kind", cause.kind), ("error", cause.message)]⟩

def waitingTargets (relay : Relay) (d : Delivery) : List (Nat × Target) :=
  (relay.targets.zipIdx.map fun (t, i) => (i, t)).filter fun (i, _) => !d.accepted.contains i

def conclude (relay : Relay) (s : RelayState σ) (d : Delivery) (result : Except PublishError Unit) :
    RelayState σ × Delivery :=
  match relay.retry.decide d.attempt result with
  | .finish result => (s, { d with stage := .settling result })
  | .retry next delay entry =>
    let s := s.note [entry]
    if delay.nanos = 0 then (s, { d with attempt := next, stage := .beginning })
    else
      let (timer, s) := s.setTimer (s.now.timerAfter delay)
      (s, { d with attempt := next, stage := .pausing timer })

def record (s : RelayState σ) (d : Delivery) (start : Instant) (admitted : Bool)
    (result : Except PublishError Unit) : AttemptRecord :=
  ⟨d.event.id, d.attempt, start, s.now, admitted, result⟩

def endAttempt (relay : Relay) (s : RelayState σ) (d : Delivery) (a : Attempt)
    (result : Except PublishError Unit) : RelayState σ × Delivery :=
  let (breaker, journal) := s.breaker.settle relay.breaker s.now result
  conclude relay (({ s with breaker := breaker }.note journal).recordAttempt
    (record s d a.started true result)) d result

def begin (relay : Relay) (s : RelayState σ) (d : Delivery) : RelayState σ × Delivery :=
  let s := s.note [d.attemptEntry]
  match s.breaker.request relay.breaker s.now with
  | .rejected =>
    let result := .error (Breaker.rejection relay.breaker)
    conclude relay (s.recordAttempt (record s d s.now false result)) d result
  | .admitted breaker journal =>
    ({ s with breaker := breaker }.note journal,
      { d with stage := .sending ⟨s.now, none, d.waitingTargets relay, none⟩ })

/-- Hand a letter over and wait for its answer, which is there as soon as its delay is over. Where
there is something to wait for, a timer is set the first time for the end of the budget. -/
def handOver (relay : Relay) (s : RelayState σ) (d : Delivery) (a : Attempt)
    (target : Nat × Target) (letter : Letter) (cause : Option PublishError) :
    RelayState σ × Delivery :=
  let (call, reaction, s) :=
    s.handOver relay d.event.id d.attempt target.1 cause.isSome letter
  let deadline (s : RelayState σ) : Attempt × RelayState σ :=
    match a.deadline with
    | some _ => (a, s)
    | none =>
      let (timer, s) := s.setTimer (a.started.timerAfter relay.plan.publishTimeout)
      ({ a with deadline := some timer }, s)
  match reaction with
  | .never =>
    let (a, s) := deadline s
    (s, { d with stage := .awaiting a ⟨target, letter, call, cause, none⟩ })
  | .after delay answer =>
    let (timer, s) := s.setTimer (s.now.add delay)
    let (a, s) := if timer.isDue s.now then (a, s) else deadline s
    (s, { d with stage := .awaiting a ⟨target, letter, call, cause, some (timer, answer)⟩ })

def send (relay : Relay) (s : RelayState σ) (d : Delivery) (a : Attempt) :
    RelayState σ × Delivery :=
  match a.targets with
  | [] => endAttempt relay s d a (match a.firstError with
    | some e => .error e
    | none => .ok ())
  | target :: rest =>
    let (letter, ids) := (d.posting target.2).firstLetter s.ids
    handOver relay { s with ids := ids } d { a with targets := rest } target letter none

def endPosting (s : RelayState σ) (d : Delivery) (a : Attempt) (target : Nat × Target)
    (result : Except PublishError Unit) : RelayState σ × Delivery :=
  match result with
  | .ok _ => (s, { d with accepted := target.1 :: d.accepted, stage := .sending a })
  | .error e =>
    (s.note [targetFailedEntry target.2 e],
      { d with stage := .sending { a with firstError := some (a.firstError.getD e) } })

def takeAnswer (relay : Relay) (s : RelayState σ) (d : Delivery) (a : Attempt) (f : Flight)
    (answer : Except PublishError Receipt) : RelayState σ × Delivery :=
  let s := s.endCall f.call (.answered s.now answer)
  let posting := d.posting f.target.2
  match f.cause with
  | none =>
    match posting.afterFirst f.letter answer with
    | (.finished result, journal) => endPosting (s.note journal) d a f.target result
    | (.another copy cause, journal) =>
      handOver relay (s.note journal) d a f.target copy (some cause)
  | some cause => endPosting (s.note (posting.afterCopy cause answer)) d a f.target (.error cause)

def timeOut (relay : Relay) (s : RelayState σ) (d : Delivery) (a : Attempt) (f : Flight) :
    RelayState σ × Delivery :=
  endAttempt relay (s.endCall f.call .abandoned) d a
    (.error (.timeout relay.plan.publishTimeout))

def settle [Outbox σ] (s : RelayState σ) (d : Delivery) (result : Except PublishError Unit) :
    RelayState σ × Outcome :=
  let id := d.event.id
  match result with
  | .ok _ =>
    match s.ask fun store time => Outbox.settlePublished store time id with
    | (.ok _, s) => (s.note [publishedEntry d.event], ⟨id, d.started, s.now, .ok .published⟩)
    | (.error e, s) => (s, ⟨id, d.started, s.now, .error e⟩)
  | .error cause =>
    let s := s.note [failedEntry d.event cause]
    match s.ask fun store time => Outbox.settleFailed store time id cause.message with
    | (.ok _, s) => (s, ⟨id, d.started, s.now, .ok .failed⟩)
    | (.error e, s) => (s, ⟨id, d.started, s.now, .error e⟩)

/-- An answer that is there is taken even where the budget ends at the same instant. -/
def step [Outbox σ] (relay : Relay) (s : RelayState σ) (d : Delivery) : Move σ :=
  let next (x : RelayState σ × Delivery) : Move σ := .next x.1 x.2
  match d.stage with
  | .beginning => next (begin relay s d)
  | .sending a => next (send relay s d a)
  | .awaiting a f =>
    match f.answer with
    | some (timer, answer) =>
      if timer.isDue s.now then next (takeAnswer relay s d a f answer)
      else if a.deadline.any (·.isDue s.now) then next (timeOut relay s d a f)
      else .waits
    | none => if a.deadline.any (·.isDue s.now) then next (timeOut relay s d a f) else .waits
  | .pausing timer =>
    if timer.isDue s.now then .next s { d with stage := .beginning } else .waits
  | .settling result => let (s, outcome) := settle s d result; .settled s outcome

def timers (d : Delivery) : List Timer :=
  match d.stage with
  | .awaiting a f => (f.answer.map (·.1)).toList ++ a.deadline.toList
  | .pausing timer => [timer]
  | _ => []

end Delivery

end OutboxRelay
