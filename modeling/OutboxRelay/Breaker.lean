import OutboxRelay.Journal
import OutboxRelay.PublishError

/-! A circuit breaker that counts consecutive failures. After enough of them calls are rejected
for a cooldown; then one trial call is admitted, whose outcome closes the circuit or opens it again.
Admission and outcome are separate steps, so that any number of calls may overlap. -/

namespace OutboxRelay

inductive Circuit
  | closed
  | opened
  | halfOpen
deriving DecidableEq

def Circuit.text : Circuit → String
  | .closed => "closed"
  | .opened => "open"
  | .halfOpen => "half_open"

structure BreakerConfig where
  name : String
  failureThreshold : UInt32
  openDuration : Duration
deriving DecidableEq

def BreakerConfig.standard : BreakerConfig := ⟨"outbox-publish", 5, .ofSecs 30⟩

structure Breaker where
  circuit : Circuit
  consecutiveFailures : UInt32
  openedAt : Option Instant
deriving DecidableEq

namespace Breaker

def initial : Breaker := ⟨.closed, 0, none⟩

def cooledDown (b : Breaker) (c : BreakerConfig) (now : Instant) : Bool :=
  match b.openedAt with
  | none => true
  | some opening => c.openDuration.nanos ≤ now.elapsed opening

inductive Admission
  | rejected
  | admitted (b : Breaker) (journal : Journal)

def trialEntry (c : BreakerConfig) (level : Level) (message : String) : JournalEntry :=
  ⟨level, message, [("breaker", c.name)]⟩

def request (b : Breaker) (c : BreakerConfig) (now : Instant) : Admission :=
  match b.circuit with
  | .closed => .admitted b []
  | .halfOpen => .rejected
  | .opened =>
    if b.cooledDown c now then
      .admitted { b with circuit := .halfOpen }
        [trialEntry c .info "circuit half-open, admitting trial call"]
    else .rejected

theorem request_of_closed {b : Breaker} (closed : b.circuit = .closed) (c : BreakerConfig)
    (now : Instant) : b.request c now = .admitted b [] := by
  unfold request
  rw [closed]

def succeed (b : Breaker) (c : BreakerConfig) : Breaker × Journal :=
  (initial, if b.circuit = .halfOpen
    then [trialEntry c .info "trial call succeeded, circuit closed"] else [])

def openedEntry (c : BreakerConfig) (failures : UInt32) : JournalEntry :=
  ⟨.warn, "circuit opened", [("breaker", c.name), ("failures", toString failures.toNat),
    ("open_ms", toString c.openDuration.millisField)]⟩

/-- An admitted call failed. The failure of a call admitted before the circuit opened changes
nothing. -/
def fail (b : Breaker) (c : BreakerConfig) (now : Instant) : Breaker × Journal :=
  match b.circuit with
  | .halfOpen =>
    ({ b with circuit := .opened, openedAt := some now },
      [trialEntry c .warn "trial call failed, circuit re-opened"])
  | .closed =>
    let failures := b.consecutiveFailures + 1
    if c.failureThreshold ≤ failures then
      (⟨.opened, failures, some now⟩, [openedEntry c failures])
    else ({ b with consecutiveFailures := failures }, [])
  | .opened => (b, [])

/-- An admitted call was dropped before it had an outcome. -/
def abandon (b : Breaker) (now : Instant) : Breaker :=
  if b.circuit = .halfOpen then { b with circuit := .opened, openedAt := some now } else b

def settle {α : Type} (b : Breaker) (c : BreakerConfig) (now : Instant)
    (result : Except PublishError α) : Breaker × Journal :=
  match result with
  | .ok _ => b.succeed c
  | .error _ => b.fail c now

def rejection (c : BreakerConfig) : PublishError := .circuitOpen c.name

end Breaker

end OutboxRelay
