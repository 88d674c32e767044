import OutboxRelay.Broker.Publisher
import OutboxRelay.Proofs.DeadLetter.Diagnostics

/-! What Kafka is sent for one payload, and what the sender is told. A record that is taken is the only
one. A record that is refused is followed by its copy for the dead-letter topic, and the refusal is
the result, whatever becomes of the copy. That both answers come is taken for granted here. -/

namespace OutboxRelay

open Text

/-- A copy of a record that failed with `e`, for the topic with this suffix. Its headers differ from
those of the record in the diagnostics of the failure alone. -/
structure KafkaRecord.SetAside (record copy : KafkaRecord) (suffix : String) (e : PublishError) :
    Prop where
  topic : copy.topic = record.topic ++ suffix
  key : copy.key = record.key
  payload : copy.payload = record.payload
  originTopic : copy.headers.get? "dlt-original-topic" = some record.topic
  exceptionClass : copy.headers.get? "dlt-exception-class" = some PublishError.className
  exceptionMessage : copy.headers.get? "dlt-exception-message" = some e.message
  others : ∀ key ∉ ["dlt-original-topic", "dlt-exception-class", "dlt-exception-message"],
    copy.headers.get? key = record.headers.get? key

namespace Posting

def record (p : Posting) : KafkaRecord :=
  ⟨p.target.destination, p.kafkaKey, some (utf8 p.payload), p.headers⟩

variable {p : Posting} {suffix : String} {past : List Letter} {ids : IdSource}
  {client : List Letter → Letter → Except PublishError Receipt}

theorem firstLetter_of_kafka (kafka : p.target.publisher = .kafka suffix) (ids : IdSource) :
    p.firstLetter ids = (.kafka p.record, ids) := by
  unfold firstLetter
  rw [kafka]
  rfl

theorem exchange_of_ok (kafka : p.target.publisher = .kafka suffix) {receipt : Receipt}
    (answer : client past (.kafka p.record) = .ok receipt) :
    p.exchange client past ids = ⟨.ok (), [(.kafka p.record, .ok receipt)],
      [deliveredEntry p.target.destination receipt], ids⟩ := by
  unfold exchange
  rw [firstLetter_of_kafka kafka]
  dsimp only
  unfold afterFirst
  rw [answer, kafka]

theorem exchange_of_error (kafka : p.target.publisher = .kafka suffix) {e : PublishError}
    (answer : client past (.kafka p.record) = .error e) :
    p.exchange client past ids =
      let copy := Letter.kafka (p.deadLetterCopy suffix e)
      let copyAnswer := client (past ++ [.kafka p.record]) copy
      ⟨.error e, [(.kafka p.record, .error e), (copy, copyAnswer)], p.afterCopy e copyAnswer,
        ids⟩ := by
  unfold exchange
  rw [firstLetter_of_kafka kafka]
  dsimp only
  unfold afterFirst
  rw [answer, kafka]
  rfl

theorem get?_deadLetterCopy (p : Posting) (suffix : String) (e : PublishError) (key : String) :
    (p.deadLetterCopy suffix e).headers.get? key =
      (List.lookup key [("dlt-exception-message", e.message),
        ("dlt-exception-class", PublishError.className),
        ("dlt-original-topic", p.target.destination)]).or (p.headers.get? key) :=
  DeadLetter.get?_headersForKafka_of_origin
    ((DeadLetter.ofPayload p.target.destination (some (utf8 p.payload))
      (.ofPublishError e)).setKey p.kafkaKey |>.setHeaders p.headers) rfl key

theorem setAside_deadLetterCopy (p : Posting) (suffix : String) (e : PublishError) :
    p.record.SetAside (p.deadLetterCopy suffix e) suffix e where
  topic := rfl
  key := rfl
  payload := rfl
  originTopic := get?_deadLetterCopy ..
  exceptionClass := get?_deadLetterCopy ..
  exceptionMessage := get?_deadLetterCopy ..
  others key other := by
    simp only [List.mem_cons, not_or] at other
    obtain ⟨topic, exceptionClass, message, -⟩ := other
    rw [get?_deadLetterCopy, Headers.lookup_cons_eq, if_neg message, Headers.lookup_cons_eq,
      if_neg exceptionClass, Headers.lookup_cons_eq, if_neg topic]
    rfl

/-- A payload for Kafka is sent as one record, under the aggregate as its key. If the record is taken
it is the only one. If it fails, one copy of it follows, and its error is the result whatever the
copy is answered, also where the suffix is empty and the copy goes to the same topic. -/
theorem exchange_kafka (topic suffix payload : String) (headers : Headers)
    (client : List Letter → Letter → Except PublishError Receipt) (past : List Letter)
    (ids : IdSource) :
    let record : KafkaRecord :=
      ⟨topic, (headers.get? "aggregateId").map utf8, some (utf8 payload), headers⟩
    let x := Posting.exchange ⟨⟨topic, .kafka suffix⟩, payload, headers⟩ client past ids
    match client past (.kafka record) with
    | .ok receipt => x.sent = [(.kafka record, .ok receipt)] ∧ x.result = .ok ()
    | .error e => ∃ copy, record.SetAside copy suffix e ∧
        x.sent = [(.kafka record, .error e),
          (.kafka copy, client (past ++ [.kafka record]) (.kafka copy))] ∧
        x.result = .error e := by
  intro record x
  let p : Posting := ⟨⟨topic, .kafka suffix⟩, payload, headers⟩
  cases answer : client past (.kafka record) with
  | ok receipt =>
    have whole : x = _ := exchange_of_ok (p := p) rfl answer
    exact ⟨congrArg Exchange.sent whole, congrArg Exchange.result whole⟩
  | error e =>
    have whole : x = _ := exchange_of_error (p := p) rfl answer
    exact ⟨_, p.setAside_deadLetterCopy suffix e, congrArg Exchange.sent whole,
      congrArg Exchange.result whole⟩

end Posting

end OutboxRelay
