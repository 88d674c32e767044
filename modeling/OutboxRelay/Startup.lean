import OutboxRelay.Settings
import OutboxRelay.Text.Quoted

/-! Start-up of the service, up to the moment it serves: settings, database, Kafka producer,
targets, consumer and the port, each of which can be the end of it. -/

namespace OutboxRelay

inductive StartupError
  | missingSetting (e : Environment.Missing)
  | database
  | kafkaNotBuiltIn
  | kafkaProducer
  | activeMqClient
  | noTarget
  | kafkaConsumer
  | subscription (topic : String)
  | bind (port : UInt16)
deriving DecidableEq

namespace StartupError

def message : StartupError → String
  | missingSetting e => e.message
  | database => "failed to connect to database"
  | kafkaNotBuiltIn =>
    "OUTBOX_ENABLE_KAFKA is on but this binary was built without the `kafka` feature"
  | kafkaProducer => "create kafka producer"
  | activeMqClient => "build activemq http client"
  | noTarget => "no publish target enabled; set OUTBOX_ENABLE_KAFKA or OUTBOX_ENABLE_ACTIVEMQ"
  | kafkaConsumer => "create kafka consumer"
  | subscription topic => "subscribe to [" ++ Text.quoted topic ++ "]"
  | bind port => "failed to bind 0.0.0.0:" ++ toString port.toNat

end StartupError

structure Host where
  connects : String → Bool
  binds : UInt16 → Bool

structure KafkaClient where
  makesProducer : (servers : String) → Bool
  makesConsumer : (servers group : String) → Bool
  subscribes : (topic : String) → Bool

structure Clients where
  kafka : Option KafkaClient
  http : Bool

def Clients.standard : Clients := ⟨none, true⟩

namespace Startup

def consumerIgnoredEntry : JournalEntry :=
  ⟨.warn, "KAFKA_CONSUMER_GROUP ignored: built without the `kafka` feature", []⟩

def startConsumer (s : Settings) : Bool × Journal :=
  (false, if s.kafkaConsumerGroup.isSome then [consumerIgnoredEntry] else [])

/-- A consumer of the topic that is published to, for the group that is set. There is none without
a producer, which its dead letters need. -/
def subscribe (client : KafkaClient) (s : Settings) : Except StartupError Bool :=
  match s.kafkaConsumerGroup with
  | some group =>
    if !s.enableKafka then .ok false
    else if !client.makesConsumer s.kafkaBootstrapServers group then .error .kafkaConsumer
    else if !client.subscribes s.kafkaTopic then .error (.subscription s.kafkaTopic)
    else .ok true
  | none => .ok false

def consume (clients : Clients) (s : Settings) : Except StartupError (Bool × Journal) :=
  match clients.kafka with
  | some client => (subscribe client s).map (·, [])
  | none => .ok (startConsumer s)

def makeProducer (clients : Clients) (s : Settings) : Except StartupError Unit :=
  match clients.kafka with
  | some client =>
    if client.makesProducer s.kafkaBootstrapServers then .ok () else .error .kafkaProducer
  | none => .error .kafkaNotBuiltIn

def prepare (clients : Clients) (env : Environment) (host : Host) :
    Except StartupError Settings := do
  let (s, _) ← (Settings.fromEnvironment clients.kafka.isSome env).mapError .missingSetting
  if !host.connects s.databaseUrl then throw .database
  if s.enableKafka then makeProducer clients s
  if s.enableActiveMq && !clients.http then throw .activeMqClient
  if (s.targets s.enableKafka).isEmpty then throw .noTarget
  return s

def startWith (clients : Clients) (env : Environment) (host : Host) :
    Except StartupError Settings := do
  let s ← prepare clients env host
  let _ ← consume clients s
  if !host.binds s.port then throw (.bind s.port)
  return s

def start (env : Environment) (host : Host) : Except StartupError Settings :=
  startWith .standard env host

end Startup

end OutboxRelay
