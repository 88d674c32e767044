import OutboxRelay.Breaker
import OutboxRelay.DeadLetter.Guard
import OutboxRelay.Dispatch.Relay
import OutboxRelay.Retry
import OutboxRelay.Settings.Reader

/-! The settings of the service, read from an environment, and what follows from them for its
parts. Everything but the database has a default. -/

namespace OutboxRelay

structure Settings where
  databaseUrl : String
  port : UInt16
  batchSize : UInt64
  pollIntervalMs : UInt64
  concurrency : UInt64
  publishTimeoutMs : UInt64
  staleAfterSecs : UInt64
  enableKafka : Bool
  enableActiveMq : Bool
  kafkaTopic : String
  jmsDestination : String
  kafkaBootstrapServers : String
  kafkaDeadLetterSuffix : String
  kafkaConsumerGroup : Option String
  activeMqUrl : String
  activeMqUser : String
  activeMqPassword : String
  jmsDeadLetterDestination : String
  retryMaxAttempts : UInt32
  retryBaseDelayMs : UInt64
  retryMaxDelayMs : UInt64
  breakerFailureThreshold : UInt32
  breakerOpenMs : UInt64

namespace Settings

def hasKafkaClient : Bool := false

def read64 (env : Environment) (name : String) (standard : Nat) : Reading UInt64 :=
  return .ofNat (← env.natural 64 name standard)

def read32 (env : Environment) (name : String) (standard : Nat) : Reading UInt32 :=
  return .ofNat (← env.natural 32 name standard)

def ofBuild (kafkaClient : Bool) (env : Environment) (databaseUrl : String) :
    Reading Settings := do
  let port ← env.natural 16 "DISPATCHER_PORT" 3120
  let batchSize ← read64 env "OUTBOX_BATCH_SIZE" 25
  let pollIntervalMs ← read64 env "OUTBOX_POLL_INTERVAL_MS" 5000
  let concurrency ← read64 env "OUTBOX_CONCURRENCY" 4
  let publishTimeoutMs ← read64 env "OUTBOX_PUBLISH_TIMEOUT_MS" 10000
  let staleAfterSecs ← read64 env "OUTBOX_STALE_AFTER_SECS" 300
  let enableKafka ← env.switch "OUTBOX_ENABLE_KAFKA" kafkaClient
  let enableActiveMq ← env.switch "OUTBOX_ENABLE_ACTIVEMQ" true
  let retryMaxAttempts ← read32 env "RETRY_MAX_ATTEMPTS" 3
  let retryBaseDelayMs ← read64 env "RETRY_BASE_DELAY_MS" 200
  let retryMaxDelayMs ← read64 env "RETRY_MAX_DELAY_MS" 2000
  let breakerFailureThreshold ← read32 env "BREAKER_FAILURE_THRESHOLD" 5
  let breakerOpenMs ← read64 env "BREAKER_OPEN_MS" 30000
  return {
    databaseUrl, port := .ofNat port, batchSize, pollIntervalMs, concurrency, publishTimeoutMs
    staleAfterSecs, enableKafka, enableActiveMq
    kafkaTopic := env.textOr "OUTBOX_KAFKA_TOPIC" "outbox.events"
    jmsDestination := env.textOr "OUTBOX_JMS_DESTINATION" "outbox.events"
    kafkaBootstrapServers := env.textOr "KAFKA_BOOTSTRAP_SERVERS" "localhost:9092"
    kafkaDeadLetterSuffix := env.textOr "KAFKA_DLQ_SUFFIX" Publisher.standardDeadLetterSuffix
    kafkaConsumerGroup := env.nonBlank "KAFKA_CONSUMER_GROUP"
    activeMqUrl := env.textOr "ACTIVEMQ_URL" "http://localhost:8161"
    activeMqUser := env.textOr "ACTIVEMQ_USER" "admin"
    activeMqPassword := env.textOr "ACTIVEMQ_PASSWORD" "admin"
    jmsDeadLetterDestination := env.textOr "JMS_DLQ_DESTINATION" JmsGuard.standardDestination
    retryMaxAttempts, retryBaseDelayMs, retryMaxDelayMs, breakerFailureThreshold, breakerOpenMs }

def withDatabase (env : Environment) (databaseUrl : String) : Reading Settings :=
  ofBuild hasKafkaClient env databaseUrl

def fromEnvironment (kafkaClient : Bool) (env : Environment) :
    Except Environment.Missing (Settings × Journal) :=
  (env.require "DATABASE_URL").map fun url => (ofBuild kafkaClient env url).run []

def ofEnvironment (env : Environment) : Except Environment.Missing (Settings × Journal) :=
  fromEnvironment hasKafkaClient env

/-- The interval and the concurrency are at least one. -/
def dispatchPlan (s : Settings) : DispatchPlan where
  batchSize := s.batchSize
  pollInterval := .ofMillis (max s.pollIntervalMs.toNat 1)
  concurrency := max s.concurrency.toNat 1
  publishTimeout := .ofMillis s.publishTimeoutMs.toNat
  staleAfter := .ofSecs s.staleAfterSecs.toNat

def retryPolicy (s : Settings) : RetryPolicy :=
  ⟨s.retryMaxAttempts, .ofMillis s.retryBaseDelayMs.toNat, .ofMillis s.retryMaxDelayMs.toNat⟩

def breakerConfig (s : Settings) : BreakerConfig :=
  ⟨BreakerConfig.standard.name,
    if s.breakerFailureThreshold = 0 then 1 else s.breakerFailureThreshold,
    .ofMillis s.breakerOpenMs.toNat⟩

def kafkaGuard (s : Settings) : KafkaGuard := ⟨s.kafkaDeadLetterSuffix⟩

def jmsGuard (s : Settings) : JmsGuard := ⟨s.jmsDeadLetterDestination⟩

def targets (s : Settings) (kafkaProducer : Bool) : List Target :=
  (if kafkaProducer then [⟨s.kafkaTopic, .kafka s.kafkaDeadLetterSuffix⟩] else []) ++
    (if s.enableActiveMq then [⟨s.jmsDestination, .jms⟩] else [])

end Settings

end OutboxRelay
