import OutboxRelay.Broker.Letter
import OutboxRelay.PublishError

/-! Dead letters: messages that could not be sent or processed, in the form in which they are set
aside. One failed message can be rendered for Kafka and for JMS. -/

namespace OutboxRelay

open Text

inductive PanicPayload
  | text (message : String)
  | other
deriving DecidableEq

structure Failure where
  className : String
  message : String
deriving DecidableEq

namespace Failure

def ofPublishError (e : PublishError) : Failure := ⟨PublishError.className, e.message⟩

def forced : Failure := ⟨"ForcedError", "failure forced by message header"⟩

def ofPanic : PanicPayload → Failure
  | .text message => ⟨"panic", message⟩
  | .other => ⟨"panic", "handler panicked"⟩

end Failure

structure DeadLetter where
  origin : String
  key : Option Bytes
  payload : Option Bytes
  headers : Headers
  failure : Failure
  partition : Option Int
  offset : Option Int
  correlationId : Option String
deriving DecidableEq

namespace DeadLetter

def originTopicKey : String := "dlt-original-topic"
def originPartitionKey : String := "dlt-original-partition"
def originOffsetKey : String := "dlt-original-offset"
def exceptionClassKey : String := "dlt-exception-class"
def exceptionMessageKey : String := "dlt-exception-message"

def originDestinationKey : String := "originalDestination"
def errorKey : String := "error"
def errorClassKey : String := "errorClass"

def ofPayload (destination : String) (payload : Option Bytes) (failure : Failure) : DeadLetter :=
  ⟨destination, none, payload, .empty, failure, none, none, none⟩

def setKey (d : DeadLetter) (key : Option Bytes) : DeadLetter := { d with key := key }

def setHeaders (d : DeadLetter) (headers : Headers) : DeadLetter :=
  { d with
    headers := headers
    correlationId := d.correlationId <|> headers.get? correlationIdKey }

def setPosition (d : DeadLetter) (partition offset : Int) : DeadLetter :=
  { d with partition := some partition, offset := some offset }

def setCorrelationId (d : DeadLetter) (id : Option String) : DeadLetter :=
  { d with correlationId := id <|> d.correlationId }

def putKnown (h : Headers) (key : String) : Option String → Headers
  | some value => h.insert key value
  | none => h

def headersForKafka (d : DeadLetter) : Headers :=
  let h := d.headers.insert originTopicKey d.origin
  let h := h.insert exceptionClassKey d.failure.className
  let h := h.insert exceptionMessageKey d.failure.message
  let h := putKnown h originPartitionKey (d.partition.map toString)
  let h := putKnown h originOffsetKey (d.offset.map toString)
  match d.correlationId with
  | some id => h.insertNew correlationIdKey id
  | none => h

def toKafka (d : DeadLetter) (topic : String) : KafkaRecord :=
  ⟨topic, d.key, d.payload, d.headersForKafka⟩

def propertiesForJms (d : DeadLetter) : Headers :=
  (((d.headers.erase correlationIdKey).insert originDestinationKey
    d.origin).insert errorKey d.failure.message).insert
    errorClassKey d.failure.className

/-- The same payload as text, addressed to `destination`, under the known correlation id or a
fresh one. -/
def toJms (d : DeadLetter) (destination : String) (ids : IdSource) : JmsMessage × IdSource :=
  let message (id : String) : JmsMessage :=
    ⟨destination, some id, textOfUtf8 (d.payload.getD []), d.propertiesForJms⟩
  match d.correlationId with
  | some id => (message id, ids)
  | none =>
    let (id, ids) := ids.draw
    (message id.hyphenated, ids)

end DeadLetter

end OutboxRelay
