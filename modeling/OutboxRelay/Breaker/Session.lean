import OutboxRelay.Breaker

/-! A circuit breaker under overlapping calls: each call is begun, and later finished or dropped,
in any order and at any time. Calls are told apart by identifiers of the caller's choice. -/

namespace OutboxRelay.Breaker

inductive Action (ι : Type)
  | begin (id : ι)
  | finish (id : ι) (outcome : Except PublishError Unit)
  | drop (id : ι)
  | advance (nanos : Nat)

inductive Response
  | pending
  | rejected
  | ended (outcome : Except PublishError Unit)
  | none

structure Session (ι : Type) where
  config : BreakerConfig
  breaker : Breaker
  now : Instant
  inFlight : List ι
  journal : Journal

namespace Session

variable {ι : Type} [DecidableEq ι]

def start (config : BreakerConfig) : Session ι := ⟨config, .initial, .start, [], []⟩

def close (s : Session ι) (id : ι) (settled : Breaker × Journal) : Session ι :=
  { s with
    breaker := settled.1
    inFlight := s.inFlight.erase id
    journal := s.journal ++ settled.2 }

/-- One action. Ending a call that is not in flight does nothing. -/
def step (s : Session ι) : Action ι → Session ι × Response
  | .begin id =>
    match s.breaker.request s.config s.now with
    | .rejected => (s, .rejected)
    | .admitted breaker journal =>
      ({ s with
        breaker := breaker
        inFlight := id :: s.inFlight
        journal := s.journal ++ journal }, .pending)
  | .finish id outcome =>
    if id ∈ s.inFlight then
      (s.close id (s.breaker.settle s.config s.now outcome), .ended outcome)
    else (s, .none)
  | .drop id =>
    if id ∈ s.inFlight then (s.close id (s.breaker.abandon s.now, []), .none) else (s, .none)
  | .advance nanos => ({ s with now := ⟨s.now.nanos + nanos⟩ }, .none)

def run (s : Session ι) (actions : List (Action ι)) : Session ι :=
  actions.foldl (fun s a => (s.step a).1) s

inductive CallEnd
  | rejected
  | finished (outcome : Except PublishError Unit)
  | cancelled
  | endless

def advanceTo (s : Session ι) (t : Instant) : Session ι :=
  (s.step (.advance (t.nanos - s.now.nanos))).1

/-- Make a call and wait for its outcome, for as long as `patience` if that is given. An outcome
that is there when the wait ends still counts. -/
def call (s : Session ι) (id : ι) (reaction : Reaction Unit) (patience : Option Duration) :
    Session ι × CallEnd :=
  match s.step (.begin id) with
  | (s, .rejected) => (s, .rejected)
  | (s, _) =>
    let limit := patience.map s.now.wokenAfter
    let cancel (t : Instant) := (((s.advanceTo t).step (.drop id)).1, CallEnd.cancelled)
    match reaction, limit with
    | .never, none => (s, .endless)
    | .never, some t => cancel t
    | .after delay outcome, limit =>
      let due := s.now.wokenAfter delay
      if limit.all due.le then
        (((s.advanceTo due).step (.finish id outcome)).1, .finished outcome)
      else cancel (limit.getD due)

end Session

end OutboxRelay.Breaker
