import OutboxRelay.Outgoing
import OutboxRelay.Text.Utf8

/-! What is handed to a broker's client. -/

namespace OutboxRelay

open Text

structure KafkaRecord where
  topic : String
  key : Option Bytes
  payload : Option Bytes
  headers : Headers
deriving DecidableEq

structure JmsMessage where
  destination : String
  correlationId : Option String
  body : String
  properties : Headers
deriving DecidableEq

namespace JmsMessage

/-- The message for outgoing headers: the correlation id, a fresh one if there is none, stands
apart, and every other header is a property. -/
def ofHeaders (destination body : String) (headers : Headers) (ids : IdSource) :
    JmsMessage × IdSource :=
  let properties := headers.erase correlationIdKey
  match headers.get? correlationIdKey with
  | some id => (⟨destination, some id, body, properties⟩, ids)
  | none =>
    let (id, ids) := ids.draw
    (⟨destination, some id.hyphenated, body, properties⟩, ids)

end JmsMessage

inductive Letter
  | kafka (record : KafkaRecord)
  | jms (message : JmsMessage)
  | direct (destination body : String) (headers : Headers)
deriving DecidableEq

namespace Letter

def destination : Letter → String
  | kafka record => record.topic
  | jms message => message.destination
  | direct destination _ _ => destination

def payloadText : Letter → String
  | kafka record => textOfUtf8 (record.payload.getD [])
  | jms message => message.body
  | direct _ body _ => body

end Letter

structure Receipt where
  partition : Int
  offset : Int
deriving DecidableEq

end OutboxRelay
