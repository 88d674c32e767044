import OutboxRelay.DeadLetter.Guard
import OutboxRelay.Proofs.Dispatch.SharedHeaders

/-! What the headers of a dead letter for Kafka say of its own failure and of earlier ones. Topic,
class and message of an earlier failure never outlast a new one; its position does, where the new
one is unknown, as it is to the publisher. -/

namespace OutboxRelay

namespace DeadLetter

/-- Headers that describe this failure and no other, next to those of the message that failed. -/
structure Describes (d : DeadLetter) (h : Headers) : Prop where
  origin : h.get? "dlt-original-topic" = some d.origin
  exceptionClass : h.get? "dlt-exception-class" = some d.failure.className
  exceptionMessage : h.get? "dlt-exception-message" = some d.failure.message
  partition : h.get? "dlt-original-partition" = d.partition.map toString
  offset : h.get? "dlt-original-offset" = d.offset.map toString
  correlationId : h.get? "correlationId" = (d.headers.get? "correlationId").or d.correlationId
  others : ∀ key ∉ "correlationId" :: diagnosticKeys, h.get? key = d.headers.get? key

/-- The message that failed names no position where that of the failure is unknown. -/
structure NamesNoOtherPosition (d : DeadLetter) : Prop where
  partition : d.partition = none → d.headers.get? "dlt-original-partition" = none
  offset : d.offset = none → d.headers.get? "dlt-original-offset" = none

variable (d : DeadLetter)

theorem lookup_known (known : Option Int) (name key : String) :
    (known.map fun value => (name, toString value)).toList.lookup key =
      if key = name then known.map toString else none := by
  cases known with
  | none => exact (ite_self none).symm
  | some value => exact Headers.lookup_cons_eq ..

theorem lookup_diagnostics (key : String) : d.diagnostics.lookup key =
    ((if key = originOffsetKey then d.offset.map toString else none).or
      (if key = originPartitionKey then d.partition.map toString else none)).or
    ([(exceptionMessageKey, d.failure.message), (exceptionClassKey, d.failure.className),
      (originTopicKey, d.origin)].lookup key) := by
  rw [diagnostics, List.lookup_append, List.lookup_append, lookup_known, lookup_known]

theorem get?_headersForKafka_of_lookup {key value : String}
    (place : key ≠ originOffsetKey ∧ key ≠ originPartitionKey)
    (known : [(exceptionMessageKey, d.failure.message), (exceptionClassKey, d.failure.className),
      (originTopicKey, d.origin)].lookup key = some value) :
    d.headersForKafka.get? key = some value := by
  rw [get?_headersForKafka, lookup_diagnostics, if_neg place.1, if_neg place.2, known]
  rfl

theorem get?_headersForKafka_eq (key : String) (own : key ≠ correlationIdKey) :
    d.headersForKafka.get? key = (d.diagnostics.lookup key).or (d.headers.get? key) := by
  rw [get?_headersForKafka, if_neg own, Option.or_none]

theorem get?_originPartition : d.headersForKafka.get? originPartitionKey =
    (d.partition.map toString).or (d.headers.get? originPartitionKey) := by
  rw [get?_headersForKafka_eq d _ (by decide), lookup_diagnostics, if_neg (by decide), if_pos rfl,
    Option.none_or]
  exact congrArg (Option.or · _) Option.or_none

theorem get?_originOffset : d.headersForKafka.get? originOffsetKey =
    (d.offset.map toString).or (d.headers.get? originOffsetKey) := by
  rw [get?_headersForKafka_eq d _ (by decide), lookup_diagnostics, if_pos rfl, if_neg (by decide),
    Option.or_none]
  exact congrArg (Option.or · _) Option.or_none

theorem or_eq_known_iff {known : Option Int} {old : Option String} :
    (known.map toString).or old = known.map toString ↔ (known = none → old = none) := by
  cases known with
  | none => simp
  | some value => simp

theorem describes_headersForKafka_iff :
    d.Describes d.headersForKafka ↔ d.NamesNoOtherPosition := by
  constructor
  · intro describes
    exact ⟨or_eq_known_iff.1 (d.get?_originPartition.symm.trans describes.partition),
      or_eq_known_iff.1 (d.get?_originOffset.symm.trans describes.offset)⟩
  · intro noOther
    refine ⟨?_, ?_, ?_, ?_, ?_, ?_, fun key other => ?_⟩
    · exact get?_headersForKafka_of_lookup d (by decide) rfl
    · exact get?_headersForKafka_of_lookup d (by decide) rfl
    · exact get?_headersForKafka_of_lookup d (by decide) rfl
    · exact d.get?_originPartition.trans (or_eq_known_iff.2 noOther.partition)
    · exact d.get?_originOffset.trans (or_eq_known_iff.2 noOther.offset)
    · exact (get?_headersForKafka ..).trans
        (by rw [lookup_diagnostics_eq_none d (by decide)]; rfl)
    · obtain ⟨own, other⟩ := not_or.1 (mt List.mem_cons.2 other)
      rw [get?_headersForKafka_eq d key own, lookup_diagnostics_eq_none d other, Option.none_or]

theorem describes_of_received (r : ReceivedRecord) (failure : Failure) :
    (KafkaGuard.deadLetterOf r failure).Describes
      (KafkaGuard.deadLetterOf r failure).headersForKafka :=
  (describes_headersForKafka_iff _).2 ⟨nofun, nofun⟩

/-! ### The publisher's copies -/

theorem get?_outgoing (e : Event) (ids : IdSource) {key : String} (own : key ∈ diagnosticKeys) :
    (Outgoing.headers e ids).1.get? key = e.headers.get? key := by
  have foreign : ∀ key ∈ diagnosticKeys, key ∉ Outgoing.addedKeys := by decide
  have notAdded : (Outgoing.added e ids).lookup key = none :=
    Option.not_isSome_iff_eq_none.1 fun added =>
      foreign key own ((Headers.isSome_lookup_iff ..).1 added)
  rw [Outgoing.get?_headers, notAdded, Option.or_none]

def ofPosting (p : Posting) (cause : PublishError) : DeadLetter :=
  ((ofPayload p.target.destination (some (Text.utf8 p.payload))
    (.ofPublishError cause)).setKey p.kafkaKey).setHeaders p.headers

theorem headers_deadLetterCopy (p : Posting) (suffix : String) (cause : PublishError) :
    (p.deadLetterCopy suffix cause).headers = (ofPosting p cause).headersForKafka := rfl

/-- The headers of a dead letter describe its failure and nothing else, except that the position of
an earlier failure stays where none is known. So the publisher's copy of an event has just the
position that the event was stored with. -/
theorem headers_describe_iff (d : DeadLetter) (e : Event) (ids : IdSource) (target : Target)
    (payload suffix : String) (cause : PublishError) :
    (d.Describes d.headersForKafka ↔ d.NamesNoOtherPosition) ∧
      let copy := Posting.deadLetterCopy ⟨target, payload, (Outgoing.headers e ids).1⟩ suffix cause
      copy.headers.get? "dlt-original-partition" = e.headers.get? "dlt-original-partition" ∧
        copy.headers.get? "dlt-original-offset" = e.headers.get? "dlt-original-offset" := by
  let p : Posting := ⟨target, payload, (Outgoing.headers e ids).1⟩
  refine ⟨describes_headersForKafka_iff d, ?_, ?_⟩
  · calc (p.deadLetterCopy suffix cause).headers.get? originPartitionKey
        = (none : Option String).or ((ofPosting p cause).headers.get? originPartitionKey) := by
          rw [headers_deadLetterCopy, get?_originPartition]
          rfl
      _ = e.headers.get? originPartitionKey := get?_outgoing e ids (by decide)
  · calc (p.deadLetterCopy suffix cause).headers.get? originOffsetKey
        = (none : Option String).or ((ofPosting p cause).headers.get? originOffsetKey) := by
          rw [headers_deadLetterCopy, get?_originOffset]
          rfl
      _ = e.headers.get? originOffsetKey := get?_outgoing e ids (by decide)

def failedAgain : DeadLetter :=
  ((ofPayload "orders" (some (Text.utf8 "v1")) .forced).setHeaders
    (.ofList [("dlt-original-partition", "7"), ("dlt-original-offset", "42")])).setCorrelationId
    "c1"

/-- The position of the earlier failure is passed on as the position of this one. -/
theorem earlier_position_stays : ¬ failedAgain.Describes failedAgain.headersForKafka := by
  intro describes
  have stays : failedAgain.headersForKafka.get? "dlt-original-partition" = some "7" := by decide
  exact absurd (stays.symm.trans describes.partition) (by decide)

end DeadLetter

end OutboxRelay
