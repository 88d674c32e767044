import OutboxRelay.DeadLetter

/-! The headers of a dead letter for Kafka, by key: what is known of the failure stands before the
headers of the failed message, and no other header of it changes. The properties of a dead letter
for JMS are not described here. -/

namespace OutboxRelay.DeadLetter

/-- The headers that belong to the dead letter and not to the message that failed. -/
def diagnosticKeys : List String :=
  [originTopicKey, originPartitionKey, originOffsetKey, exceptionClassKey, exceptionMessageKey]

def diagnostics (d : DeadLetter) : List (String × String) :=
  (d.offset.map fun offset => (originOffsetKey, toString offset)).toList ++
    (d.partition.map fun partition => (originPartitionKey, toString partition)).toList ++
    [(exceptionMessageKey, d.failure.message), (exceptionClassKey, d.failure.className),
      (originTopicKey, d.origin)]

theorem lookup_diagnostics_eq_none (d : DeadLetter) {key : String} (other : key ∉ diagnosticKeys) :
    d.diagnostics.lookup key = none := by
  simp only [diagnosticKeys, List.mem_cons, not_or] at other
  obtain ⟨topic, partition, offset, className, message, -⟩ := other
  cases hp : d.partition <;> cases ho : d.offset <;>
    simp [diagnostics, hp, ho, Headers.lookup_cons_eq, topic, partition, offset, className, message]

theorem get?_putKnown (h : Headers) (key : String) (text : Int → String) (value : Option Int)
    (k : String) :
    (putKnown h key (value.map text)).get? k =
      ((value.map fun value => (key, text value)).toList.lookup k).or (h.get? k) := by
  cases value with
  | none => rfl
  | some value =>
    simp only [putKnown, Option.map_some, Option.toList_some, Headers.get?_insert,
      Headers.lookup_cons_eq]
    split <;> rfl

theorem get?_headersForKafka (d : DeadLetter) (key : String) :
    d.headersForKafka.get? key =
      (d.diagnostics.lookup key).or
        ((d.headers.get? key).or (if key = correlationIdKey then d.correlationId else none)) := by
  have known : (putKnown (putKnown (((d.headers.insert originTopicKey d.origin).insert
        exceptionClassKey d.failure.className).insert exceptionMessageKey d.failure.message)
        originPartitionKey (d.partition.map toString)) originOffsetKey
        (d.offset.map toString)).get? key =
      (d.diagnostics.lookup key).or (d.headers.get? key) := by
    simp only [get?_putKnown, Headers.get?_insert, diagnostics, List.lookup_append,
      Headers.lookup_cons_eq, Option.or_assoc]
    congr 2
    split
    · rfl
    · split
      · rfl
      · split <;> rfl
  rw [← Option.or_assoc, ← known]
  unfold headersForKafka
  cases d.correlationId with
  | none => simp
  | some id =>
    simp only [Headers.get?_insertNew]
    split
    · rename_i here
      subst here
      cases Headers.get? _ correlationIdKey <;> rfl
    · simp

theorem get?_headersForKafka_of_origin (d : DeadLetter)
    (origin : d.correlationId = d.headers.get? correlationIdKey) (key : String) :
    d.headersForKafka.get? key = (d.diagnostics.lookup key).or (d.headers.get? key) := by
  rw [get?_headersForKafka]
  congr 1
  split
  · rename_i here
    rw [here, origin, Option.or_self]
  · exact Option.or_none

theorem get?_headersForKafka_of_other (d : DeadLetter) {key : String}
    (origin : d.correlationId = d.headers.get? correlationIdKey) (other : key ∉ diagnosticKeys) :
    d.headersForKafka.get? key = d.headers.get? key := by
  rw [get?_headersForKafka_of_origin d origin, lookup_diagnostics_eq_none d other, Option.none_or]

end OutboxRelay.DeadLetter
