import OutboxRelay.Duration

/-! Why a message was not published: failures of a broker, and of the policies around it. And how a
broker reacts to what it is handed: never, or after some time with an answer. -/

namespace OutboxRelay

inductive PublishError
  | unavailable (broker cause : String)
  | rejected (broker cause : String)
  | timeout (budget : Duration)
  | circuitOpen (name : String)
deriving DecidableEq

namespace PublishError

def kind : PublishError → String
  | .unavailable .. => "BROKER_UNAVAILABLE"
  | .rejected .. => "BROKER_REJECTED"
  | .timeout _ => "TIMEOUT"
  | .circuitOpen _ => "CIRCUIT_OPEN"

def message : PublishError → String
  | .unavailable broker cause => broker ++ " unavailable: " ++ cause
  | .rejected broker cause => broker ++ " rejected message: " ++ cause
  | .timeout budget => "publish timed out after " ++ budget.text
  | .circuitOpen name => "circuit breaker " ++ name ++ " is open"

def isTransient : PublishError → Bool
  | .unavailable .. | .timeout _ => true
  | .rejected .. | .circuitOpen _ => false

def className : String := "herald_dispatcher::error::PublishError"

end PublishError

inductive Reaction (α : Type)
  | never
  | after (delay : Duration) (answer : Except PublishError α)

namespace Reaction

variable {α : Type}

def atOnce (answer : Except PublishError α) : Reaction α := .after .zero answer

/-- The reaction at `now` of a broker that sleeps before it answers. -/
def slept (now : Instant) : Reaction α → Reaction α
  | .never => .never
  | .after delay answer => .after (.ofNanos ((now.wokenAfter delay).elapsed now)) answer

end Reaction

end OutboxRelay
