import OutboxRelay.Breaker
import OutboxRelay.Broker.Publisher
import OutboxRelay.Retry
import OutboxRelay.Store

/-! A dispatcher as it is set up, and what changes while it works: the clock, the circuit breaker,
the store and the record of what was handed to the brokers. Brokers are a function from that record
to reactions, so every behaviour of theirs that rests on the past is covered. -/

namespace OutboxRelay

structure DispatchPlan where
  batchSize : UInt64
  pollInterval : Duration
  /-- Events dispatched at the same time within a cycle; zero counts as one. -/
  concurrency : Nat
  /-- Budget of one attempt over all targets. -/
  publishTimeout : Duration
  staleAfter : Duration
deriving DecidableEq

namespace DispatchPlan

def standard : DispatchPlan := ⟨25, .ofMillis 5000, 4, .ofSecs 10, .ofSecs 300⟩

def width (c : DispatchPlan) : Nat := max c.concurrency 1

end DispatchPlan

/-- A timer that is set. Of timers that are due together the one set first fires first. -/
structure Timer where
  due : Instant
  order : Nat
deriving DecidableEq

def Timer.isDue (t : Timer) (now : Instant) : Bool := t.due.le now

inductive CallState
  | inProgress
  | answered (time : Instant) (answer : Except PublishError Receipt)
  | abandoned

structure Call where
  target : Nat
  event : Int
  attempt : UInt32
  /-- Whether the letter is the dead-letter copy of one that failed. -/
  isCopy : Bool
  letter : Letter
  start : Instant
  load : Nat
  state : CallState

def Call.isInProgress (c : Call) : Bool :=
  match c.state with
  | .inProgress => true
  | _ => false

structure AttemptRecord where
  event : Int
  number : UInt32
  start : Instant
  finish : Instant
  admitted : Bool
  result : Except PublishError Unit

structure Relay where
  targets : List Target
  retry : RetryPolicy
  breaker : BreakerConfig
  plan : DispatchPlan
  /-- How the brokers react, at an instant and after the calls so far, to a letter for an event and a
  target. -/
  react : (now : Instant) → (past : List Call) → (event : Int) → (target : Nat) → Letter →
    Reaction Receipt

structure RelayState (σ : Type) where
  now : Instant
  breaker : Breaker
  store : σ
  clock : WallClock
  ids : IdSource
  calls : List Call
  attempts : List AttemptRecord
  timers : Nat
  journal : Journal

namespace RelayState

variable {σ α : Type}

def initial (store : σ) : RelayState σ :=
  ⟨.start, .initial, store, .steady, .counting, [], [], 0, []⟩

def note (s : RelayState σ) (entries : Journal) : RelayState σ :=
  { s with journal := s.journal ++ entries }

def setTimer (s : RelayState σ) (due : Instant) : Timer × RelayState σ :=
  (⟨due, s.timers⟩, { s with timers := s.timers + 1 })

def ask (s : RelayState σ) (request : σ → Timestamp → StoreReply σ α) :
    Except StoreError α × RelayState σ :=
  let (time, clock) := s.clock.read
  let reply := request s.store time
  (reply.result, { s with
    store := reply.store
    clock := clock
    journal := s.journal ++ reply.journal })

def load (s : RelayState σ) (target : Nat) : Nat :=
  s.calls.countP fun c => c.target = target && c.isInProgress

def handOver (s : RelayState σ) (relay : Relay) (event : Int) (attempt : UInt32) (target : Nat)
    (isCopy : Bool) (letter : Letter) : Nat × Reaction Receipt × RelayState σ :=
  (s.calls.length, relay.react s.now s.calls event target letter,
    { s with calls := s.calls ++
        [⟨target, event, attempt, isCopy, letter, s.now, s.load target + 1, .inProgress⟩] })

def recordAttempt (s : RelayState σ) (record : AttemptRecord) : RelayState σ :=
  { s with attempts := s.attempts ++ [record] }

def endCall (s : RelayState σ) (number : Nat) (state : CallState) : RelayState σ :=
  { s with calls := s.calls.modify number fun c => { c with state := state } }

end RelayState

end OutboxRelay
