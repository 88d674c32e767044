import OutboxRelay.Broker.Publisher
import OutboxRelay.Text.Blank

/-! Guards around message handlers. A handler that fails, or panics, or is not run because the
message asks for a failure, makes the message a dead letter; the failure goes no further. -/

namespace OutboxRelay

open Text

def failureKey : String := "x-force-error"

def asksForFailure (h : Headers) : Bool :=
  match h.get? failureKey with
  | some value => lowerAscii (trim value) = "true"
  | none => false

inductive Handling
  | completed
  | failed (failure : Failure)
  | panicked (payload : PanicPayload)

def Handling.failure? : Handling → Option Failure
  | completed => none
  | failed failure => some failure
  | panicked payload => some (.ofPanic payload)

inductive Disposal
  | handled
  | deadLettered (destination : String)
  | deadLetterFailed (destination : String)
deriving DecidableEq

structure Guarded (μ σ : Type) where
  outcome : Disposal
  sent : List (μ × Except PublishError Receipt)
  journal : Journal
  state : σ

structure ReceivedRecord extends KafkaRecord where
  partition : Int
  offset : Int
deriving DecidableEq

structure KafkaGuard where
  suffix : String

namespace KafkaGuard

def deadLetterTopic (g : KafkaGuard) (topic : String) : String := topic ++ g.suffix

def deadLetterOf (r : ReceivedRecord) (failure : Failure) : DeadLetter :=
  (((DeadLetter.ofPayload r.topic r.payload failure).setKey r.key).setHeaders
    r.headers).setPosition r.partition r.offset

def positionFields (g : KafkaGuard) (r : ReceivedRecord) : List (String × String) :=
  [("topic", r.topic), ("partition", toString r.partition), ("offset", toString r.offset),
   ("dlq_topic", g.deadLetterTopic r.topic)]

def setAsideEntry (g : KafkaGuard) (r : ReceivedRecord) (failure : Failure) : JournalEntry :=
  ⟨.warn, "consumer handler failed, record dead-lettered", g.positionFields r ++
    [("error_class", failure.className), ("error", failure.message)]⟩

def lostEntry (g : KafkaGuard) (r : ReceivedRecord) (failure : Failure) (e : PublishError) :
    JournalEntry :=
  ⟨.error, "consumer handler failed and dead-letter send failed", g.positionFields r ++
    [("error", failure.message), ("dlq_error", e.message)]⟩

variable {σ : Type}

def setAside (g : KafkaGuard) (client : KafkaRecord → Except PublishError Receipt)
    (r : ReceivedRecord) (failure : Failure) (state : σ) : Guarded KafkaRecord σ :=
  let topic := g.deadLetterTopic r.topic
  let record := (deadLetterOf r failure).toKafka topic
  let answer := client record
  match answer with
  | .ok _ => ⟨.deadLettered topic, [(record, answer)], [g.setAsideEntry r failure], state⟩
  | .error e => ⟨.deadLetterFailed topic, [(record, answer)], [g.lostEntry r failure e], state⟩

def handle (g : KafkaGuard) (client : KafkaRecord → Except PublishError Receipt)
    (handler : ReceivedRecord → σ → Handling × σ) (r : ReceivedRecord) (state : σ) :
    Guarded KafkaRecord σ :=
  if asksForFailure r.headers then g.setAside client r .forced state
  else
    let (handling, state) := handler r state
    match handling.failure? with
    | none => ⟨.handled, [], [], state⟩
    | some failure => g.setAside client r failure state

end KafkaGuard

structure JmsGuard where
  destination : String

namespace JmsGuard

def standardDestination : String := "ActiveMQ.DLQ"

def deadLetterOf (m : JmsMessage) (failure : Failure) : DeadLetter :=
  ((DeadLetter.ofPayload m.destination (some (utf8 m.body)) failure).setCorrelationId
    m.correlationId).setHeaders m.properties

def addressFields (g : JmsGuard) (m copy : JmsMessage) (failure : Failure) :
    List (String × String) :=
  [("destination", m.destination), ("dlq_destination", g.destination),
   ("correlation_id", copy.correlationId.getD ""), ("error", failure.message)]

def setAsideEntry (g : JmsGuard) (m copy : JmsMessage) (failure : Failure) : JournalEntry :=
  ⟨.warn, "listener failed, message dead-lettered", g.addressFields m copy failure⟩

def lostEntry (g : JmsGuard) (m copy : JmsMessage) (failure : Failure) (e : PublishError) :
    JournalEntry :=
  ⟨.error, "listener failed and dead-letter send failed",
    g.addressFields m copy failure ++ [("dlq_error", e.message)]⟩

variable {σ : Type}

def setAside (g : JmsGuard) (client : JmsMessage → Except PublishError Receipt)
    (m : JmsMessage) (failure : Failure) (ids : IdSource) (state : σ) :
    Guarded JmsMessage σ × IdSource :=
  let (copy, ids) := (deadLetterOf m failure).toJms g.destination ids
  let answer := client copy
  let guarded : Guarded JmsMessage σ := match answer with
    | .ok _ => ⟨.deadLettered g.destination, [(copy, answer)],
        [g.setAsideEntry m copy failure], state⟩
    | .error e => ⟨.deadLetterFailed g.destination, [(copy, answer)],
        [g.lostEntry m copy failure e], state⟩
  (guarded, ids)

def handle (g : JmsGuard) (client : JmsMessage → Except PublishError Receipt)
    (handler : JmsMessage → σ → Handling × σ) (m : JmsMessage) (ids : IdSource) (state : σ) :
    Guarded JmsMessage σ × IdSource :=
  if asksForFailure m.properties then g.setAside client m .forced ids state
  else
    let (handling, state) := handler m state
    match handling.failure? with
    | none => (⟨.handled, [], [], state⟩, ids)
    | some failure => g.setAside client m failure ids state

end JmsGuard

end OutboxRelay
