import OutboxRelay.Dispatch.Session

/-! A dispatcher that runs a cycle at every tick until it is told to stop. It hears of that between
cycles only, so a cycle that has begun is brought to its end; a cycle that ends with an error does
not end the loop. Where a tick and the word to stop are there together, either may be taken.
Ticks come at a fixed period, the first one at once. A tick that is taken late by more than five
milliseconds does not shift the others: those that were missed are left out, and the next one is the
next of the old beat. -/

namespace OutboxRelay

structure Ticker where
  period : Duration
  period_pos : 0 < period.nanos
  next : Instant

namespace Ticker

def tolerance : Nat := 5 * nanosPerMilli

def tick (t : Ticker) (now : Instant) : Ticker :=
  let late := now.nanos - t.next.nanos
  { t with
    next := if tolerance < late then ⟨now.nanos + (t.period.nanos - late % t.period.nanos)⟩
      else t.next.add t.period }

theorem lt_next_tick (t : Ticker) {now : Instant} (h : t.next.nanos ≤ now.nanos) :
    t.next.nanos < (t.tick now).next.nanos := by
  have pos := t.period_pos
  have := Nat.mod_lt (now.nanos - t.next.nanos) pos
  simp only [tick, Instant.add]
  split <;> dsimp only <;> omega

/-- When the next tick can be taken: timers fire on whole milliseconds. -/
def due (t : Ticker) : Instant := t.next.roundUp

end Ticker

structure StopLine where
  value : Bool
  pending : Bool
deriving DecidableEq

inductive PollerPhase
  | idle
  | cycling
  | stopped
deriving DecidableEq

structure Poller (σ : Type) where
  session : Session Unit σ
  ticker : Ticker
  line : StopLine
  phase : PollerPhase

/-- What to take where a tick and the word to stop are there together. -/
inductive Preference
  | stop
  | tick
deriving DecidableEq

namespace Poller

variable {σ : Type}

def startedEntry (relay : Relay) : JournalEntry :=
  ⟨.info, "outbox dispatcher started",
    [("batch_size", toString relay.plan.batchSize.toNat),
     ("poll_interval_ms", toString relay.plan.pollInterval.millisField),
     ("concurrency", toString relay.plan.concurrency), ("targets", Target.listText relay.targets)]⟩

def stoppedEntry : JournalEntry := ⟨.info, "outbox dispatcher stopped", []⟩

def abortedEntry (e : CycleError) : JournalEntry :=
  ⟨.error, "dispatch cycle aborted", [("error", e.message)]⟩

def now (p : Poller σ) : Instant := p.session.state.now

def note (p : Poller σ) (entries : Journal) : Poller σ :=
  { p with session := { p.session with state := p.session.state.note entries } }

def start? (relay : Relay) (state : RelayState σ) (stopAtOnce : Bool) : Option (Poller σ) :=
  if h : 0 < relay.plan.pollInterval.nanos then
    some { session := ⟨state.note [startedEntry relay], false, [], []⟩
           ticker := ⟨relay.plan.pollInterval, h, state.now⟩
           line := ⟨stopAtOnce, false⟩
           phase := .idle }
  else none

def stop (p : Poller σ) : Poller σ := { p with phase := .stopped }.note [stoppedEntry]

/-- The cycle has ended: with an error or not, what counts is whether to stop. -/
def endCycle (p : Poller σ) (result : CycleResult) : Poller σ :=
  let p := match result with
    | .ok _ => p
    | .error e => p.note [abortedEntry e]
  let p := { p with session := { p.session with ended := [] } }
  if p.line.value then p.stop else { p with phase := .idle }

def lookUp (p : Poller σ) : Poller σ :=
  match p.session.resultOf () with
  | some (_, result) => p.endCycle result
  | none => p

def beginCycle [Outbox σ] (relay : Relay) (p : Poller σ) : Poller σ :=
  { p with
    ticker := p.ticker.tick p.now
    session := p.session.call relay ()
    phase := .cycling }.lookUp

def hasTick (p : Poller σ) : Bool := p.ticker.due.le p.now

def openCycle (p : Poller σ) : Poller σ :=
  { p with ticker := p.ticker.tick p.now, session := p.session.begin (), phase := .cycling }

/-- What a poller does when it is its turn, up to the next point at which others may come in. -/
def poll [Outbox σ] (relay : Relay) (preference : Preference) (p : Poller σ) : Poller σ :=
  match p.phase with
  | .idle =>
    if p.line.pending ∧ ¬ (p.hasTick ∧ preference = .tick) then p.stop
    else if p.hasTick then p.openCycle
    else p
  | .cycling => { p with session := p.session.resume relay () }.lookUp
  | .stopped => p

def continueCycle [Outbox σ] (relay : Relay) (limit : Option Instant) (p : Poller σ) : Poller σ :=
  match p.phase with
  | .cycling => { p with session := p.session.runTo relay limit }.lookUp
  | _ => p

@[simp] theorem ticker_note (p : Poller σ) (entries : Journal) :
    (p.note entries).ticker = p.ticker := rfl

@[simp] theorem ticker_stop (p : Poller σ) : p.stop.ticker = p.ticker := rfl

@[simp] theorem ticker_lookUp (p : Poller σ) : p.lookUp.ticker = p.ticker := by
  unfold lookUp
  split
  · unfold endCycle
    cases ‹CycleResult› <;> (dsimp only; split <;> rfl)
  · rfl

@[simp] theorem ticker_continueCycle [Outbox σ] (relay : Relay) (limit : Option Instant)
    (p : Poller σ) : (p.continueCycle relay limit).ticker = p.ticker := by
  unfold continueCycle; split <;> simp

@[simp] theorem ticker_beginCycle [Outbox σ] (relay : Relay) (p : Poller σ) :
    (p.beginCycle relay).ticker = p.ticker.tick p.now := by
  simp [beginCycle]

def waitTo (p : Poller σ) (now : Instant) : Poller σ :=
  { p with session := p.session.advance (p.now.max now) }

theorem le_now_waitTo (p : Poller σ) (t : Instant) : t.nanos ≤ (p.waitTo t).now.nanos := by
  simp only [waitTo, now, Session.advance, Instant.max_nanos]
  exact Nat.le_max_right _ _

def runTicks [Outbox σ] (relay : Relay) (limit : Instant) (p : Poller σ) : Poller σ :=
  if p.phase = .idle ∧ p.line.pending = false ∧ p.ticker.due.nanos ≤ limit.nanos then
    runTicks relay limit
      (((p.waitTo p.ticker.due).beginCycle relay).continueCycle relay (some limit))
  else p
termination_by limit.nanos + 1 - p.ticker.next.nanos
decreasing_by
  have le := p.ticker.next.le_roundUp
  have due : p.ticker.next.roundUp.nanos ≤ (p.waitTo p.ticker.due).now.nanos := p.le_now_waitTo _
  have limited : p.ticker.next.roundUp.nanos ≤ limit.nanos := ‹_ ∧ _ ∧ _›.2.2
  have lt := p.ticker.lt_next_tick (Nat.le_trans le due)
  rw [ticker_continueCycle, ticker_beginCycle]
  simp only [waitTo] at lt ⊢
  omega

def runTo [Outbox σ] (relay : Relay) (limit : Instant) (p : Poller σ) : Poller σ :=
  let p := p.continueCycle relay (some limit)
  if p.phase = .idle ∧ p.line.pending then p.stop else p.runTicks relay limit

inductive Occurrence
  | feed (event : NewEvent)
  | say (stop : Bool)
  | hangUp

def take [Outbox σ] (p : Poller σ) : Occurrence → Poller σ
  | .feed event =>
    let (_, state) := p.session.state.ask fun store time => Outbox.persist store time event
    { p with session := { p.session with state := state } }
  | .say stop => { p with line := ⟨stop, true⟩ }
  | .hangUp => { p with line := { p.line with pending := true } }

inductive Action (σ : Type)
  | poll (preference : Preference)
  | wait (now : Instant)
  | take (occurrence : Occurrence)
  | elsewhere (change : σ → σ)

def act [Outbox σ] (relay : Relay) (p : Poller σ) : Action σ → Poller σ
  | .poll preference => p.poll relay preference
  | .wait now => p.waitTo now
  | .take occurrence => p.take occurrence
  | .elsewhere change =>
    { p with session := { p.session with
      state := { p.session.state with store := change p.session.state.store } } }

def run [Outbox σ] (relay : Relay) (p : Poller σ) (actions : List (Action σ)) : Poller σ :=
  actions.foldl (act relay) p

/-- Follow occurrences, the last of which is a word on the line or its end, until the poller has
stopped. At one instant the poller goes first. -/
def follow [Outbox σ] (relay : Relay) (p : Poller σ) (occurrences : List (Instant × Occurrence)) :
    Poller σ :=
  let p := occurrences.foldl (fun p (time, o) => ((p.runTo relay time).waitTo time).take o) p
  let p := p.continueCycle relay none
  if p.phase = .idle ∧ p.line.pending then p.stop else p

end Poller

end OutboxRelay
