import OutboxRelay.DeadLetter
import OutboxRelay.Journal
import OutboxRelay.Text.Quoted

/-! How each broker is spoken to. One payload for one target takes one letter, except that Kafka
gets a second one, to the dead-letter topic, when it does not take the first. Whatever becomes of
that copy, the payload was not published. -/

namespace OutboxRelay

open Text

inductive Publisher
  | kafka (deadLetterSuffix : String)
  | jms
  | direct (name : String)
deriving DecidableEq

namespace Publisher

def broker : Publisher → String
  | kafka _ => "kafka"
  | jms => "activemq"
  | direct name => name

def standardDeadLetterSuffix : String := "-dlq"

end Publisher

structure Target where
  destination : String
  publisher : Publisher
deriving DecidableEq

def Target.text (t : Target) : String :=
  "PublishTarget \x7b broker: " ++ quoted t.publisher.broker ++ ", destination: " ++
    quoted t.destination ++ " \x7d"

def Target.listText (ts : List Target) : String :=
  "[" ++ String.intercalate ", " (ts.map Target.text) ++ "]"

structure Posting where
  target : Target
  payload : String
  headers : Headers

namespace Posting

def deadLetterTopic (topic suffix : String) : String := topic ++ suffix

def kafkaKey (p : Posting) : Option Bytes := (p.headers.get? aggregateIdKey).map utf8

def firstLetter (p : Posting) (ids : IdSource) : Letter × IdSource :=
  match p.target.publisher with
  | .kafka _ =>
    (.kafka ⟨p.target.destination, p.kafkaKey, some (utf8 p.payload), p.headers⟩, ids)
  | .jms =>
    let (message, ids) := JmsMessage.ofHeaders p.target.destination p.payload p.headers ids
    (.jms message, ids)
  | .direct _ => (.direct p.target.destination p.payload p.headers, ids)

def deadLetterCopy (p : Posting) (suffix : String) (e : PublishError) : KafkaRecord :=
  (((DeadLetter.ofPayload p.target.destination (some (utf8 p.payload))
    (Failure.ofPublishError e)).setKey p.kafkaKey).setHeaders p.headers).toKafka
    (deadLetterTopic p.target.destination suffix)

inductive Progress
  | finished (result : Except PublishError Unit)
  | another (letter : Letter) (cause : PublishError)

def deliveredEntry (topic : String) (r : Receipt) : JournalEntry :=
  ⟨.debug, "kafka record delivered", [("topic", topic), ("partition", toString r.partition),
    ("offset", toString r.offset)]⟩

def sentEntry (destination : String) : Letter → JournalEntry
  | .jms message => ⟨.debug, "jms message sent",
      [("destination", destination), ("correlation_id", message.correlationId.getD "")]⟩
  | _ => ⟨.debug, "jms message sent", [("destination", destination), ("correlation_id", "")]⟩

def reroutedEntry (topic suffix : String) (e : PublishError) (r : Receipt) : JournalEntry :=
  ⟨.warn, "kafka send failed, routed to dead-letter topic",
    [("topic", topic), ("dlq_topic", deadLetterTopic topic suffix),
     ("partition", toString r.partition), ("offset", toString r.offset), ("error", e.message)]⟩

def lostEntry (topic suffix : String) (e copyError : PublishError) : JournalEntry :=
  ⟨.error, "kafka send failed and dead-letter send failed too",
    [("topic", topic), ("dlq_topic", deadLetterTopic topic suffix), ("error", e.message),
     ("dlq_error", copyError.message)]⟩

def afterFirst (p : Posting) (letter : Letter) (answer : Except PublishError Receipt) :
    Progress × Journal :=
  let topic := p.target.destination
  match p.target.publisher, answer with
  | .kafka _, .ok r => (.finished (.ok ()), [deliveredEntry topic r])
  | .kafka suffix, .error e => (.another (.kafka (p.deadLetterCopy suffix e)) e, [])
  | .jms, .ok _ => (.finished (.ok ()), [sentEntry topic letter])
  | .direct _, .ok _ => (.finished (.ok ()), [])
  | _, .error e => (.finished (.error e), [])

def afterCopy (p : Posting) (cause : PublishError) (answer : Except PublishError Receipt) :
    Journal :=
  match p.target.publisher, answer with
  | .kafka suffix, .ok r => [reroutedEntry p.target.destination suffix cause r]
  | .kafka suffix, .error e => [lostEntry p.target.destination suffix cause e]
  | _, _ => []

structure Exchange where
  result : Except PublishError Unit
  sent : List (Letter × Except PublishError Receipt)
  journal : Journal
  ids : IdSource

def exchange (p : Posting) (client : List Letter → Letter → Except PublishError Receipt)
    (past : List Letter) (ids : IdSource) : Exchange :=
  let (letter, ids) := p.firstLetter ids
  let answer := client past letter
  match p.afterFirst letter answer with
  | (.finished result, journal) => ⟨result, [(letter, answer)], journal, ids⟩
  | (.another copy cause, journal) =>
    let copyAnswer := client (past ++ [letter]) copy
    ⟨.error cause, [(letter, answer), (copy, copyAnswer)],
      journal ++ p.afterCopy cause copyAnswer, ids⟩

def exchangeAll (client : List Letter → Letter → Except PublishError Receipt) :
    List Posting → (past : List Letter) → IdSource → List Exchange
  | [], _, _ => []
  | p :: rest, past, ids =>
    let e := p.exchange client past ids
    e :: exchangeAll client rest (past ++ e.sent.map (·.1)) e.ids

end Posting

end OutboxRelay
