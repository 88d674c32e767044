import OutboxRelay.Dispatch.Poller
import OutboxRelay.Startup

/-! The service while it starts: the dispatcher's worker is set going once everything but the
consumer and the port is in order, and from then on works beside the rest of start-up. When start-up
fails the worker gets no more turns, and nobody tells it to stop. -/

namespace OutboxRelay

abbrev Brokers := (now : Instant) → (past : List Call) → (event : Int) → (target : Nat) → Letter →
  Reaction Receipt

def Settings.relay (s : Settings) (brokers : Brokers) : Relay where
  targets := s.targets s.enableKafka
  retry := s.retryPolicy
  breaker := s.breakerConfig
  plan := s.dispatchPlan
  react := brokers

inductive ServiceStage
  | preparing
  | subscribing (settings : Settings)
  | binding (settings : Settings)
  | serving (settings : Settings)
  | failed (e : StartupError)

structure Service (σ : Type) where
  stage : ServiceStage
  resources : RelayState σ
  worker : Option (Poller σ)

namespace Service

variable {σ : Type}

def initial (resources : RelayState σ) : Service σ := ⟨.preparing, resources, none⟩

def proceed (clients : Clients) (env : Environment) (host : Host) (brokers : Brokers)
    (s : Service σ) : Service σ :=
  match s.stage with
  | .preparing =>
    match Startup.prepare clients env host with
    | .error e => { s with stage := .failed e }
    | .ok settings =>
      { s with
        stage := .subscribing settings
        worker := Poller.start? (settings.relay brokers) s.resources false }
  | .subscribing settings =>
    { s with
      stage := match Startup.consume clients settings with
        | .error e => .failed e
        | .ok _ => .binding settings }
  | .binding settings =>
    { s with
      stage := if host.binds settings.port then .serving settings
        else .failed (.bind settings.port) }
  | .serving _ | .failed _ => s

def going? (s : Service σ) : Option Settings :=
  match s.stage with
  | .subscribing settings | .binding settings | .serving settings => some settings
  | .preparing | .failed _ => none

def work [Outbox σ] (brokers : Brokers) (preference : Preference) (s : Service σ) :
    Service σ :=
  match s.going? with
  | some settings => { s with worker := s.worker.map (·.poll (settings.relay brokers) preference) }
  | none => s

def wait (now : Instant) (s : Service σ) : Service σ :=
  match s.going? with
  | some _ => { s with worker := s.worker.map (·.waitTo now) }
  | none => s

inductive Action
  | proceed
  | work (preference : Preference)
  | wait (now : Instant)

def act [Outbox σ] (clients : Clients) (env : Environment) (host : Host) (brokers : Brokers)
    (s : Service σ) : Action → Service σ
  | .proceed => s.proceed clients env host brokers
  | .work preference => s.work brokers preference
  | .wait now => s.wait now

def run [Outbox σ] (clients : Clients) (env : Environment) (host : Host) (brokers : Brokers)
    (resources : RelayState σ) (actions : List Action) : Service σ :=
  actions.foldl (act clients env host brokers) (initial resources)

def store (s : Service σ) : σ :=
  match s.worker with
  | some worker => worker.session.state.store
  | none => s.resources.store

end Service

end OutboxRelay
