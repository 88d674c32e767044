import OutboxRelay.DeadLetter.Guard
import OutboxRelay.Proofs.DeadLetter.Diagnostics

/-! What the guard around a handler of Kafka records owes to a record: the handler is run at most
once, and a record that was not handled is sent on, whole, to the dead-letter topic, once. How the
client delivers that copy is not followed, and neither is the journal. -/

namespace OutboxRelay

open Text

/-! ### The header that asks for a failure -/

def IsTrueWord (value : String) : Prop :=
  ∃ before word after, value.toList = before ++ word ++ after ∧
    (∀ c ∈ before, isBlank c) ∧ (∀ c ∈ after, isBlank c) ∧ word.map Char.toLower = "true".toList

def AsksForFailure (h : Headers) : Prop :=
  ∃ value, h.get? failureKey = some value ∧ IsTrueWord value

theorem not_isBlank_of_toLower_mem {c : Char} (letter : c.toLower ∈ "true".toList) :
    ¬ isBlank c := by
  have letters : "true".toList.any isBlank = false := by decide
  intro blank
  refine List.any_eq_false.1 letters _ letter ?_
  rw [toLower_of_isBlank blank]
  exact blank

theorem lowerAscii_trim_eq_true_iff (value : String) :
    lowerAscii (trim value) = "true" ↔ IsTrueWord value := by
  have as_list : lowerAscii (trim value) = "true" ↔
      (trimBlanks value.toList).map Char.toLower = "true".toList := by
    rw [lowerAscii, trim, String.toList_ofList, ← String.toList_inj, String.toList_ofList]
  rw [as_list]
  constructor
  · intro lower
    obtain ⟨before, after, whole, blankBefore, blankAfter⟩ :=
      exists_blanks_around_trimBlanks value.toList
    exact ⟨before, _, after, whole, blankBefore, blankAfter, lower⟩
  · rintro ⟨before, word, after, whole, blankBefore, blankAfter, lower⟩
    have no_blank : ∀ c ∈ word, ¬ isBlank c := fun c member =>
      not_isBlank_of_toLower_mem (lower ▸ List.mem_map_of_mem member)
    rw [whole, trimBlanks_append word blankBefore blankAfter, trimBlanks_eq_self no_blank, lower]

theorem asksForFailure_iff (h : Headers) : asksForFailure h ↔ AsksForFailure h := by
  unfold asksForFailure AsksForFailure
  cases h.get? failureKey with
  | none => simp
  | some value => simp [lowerAscii_trim_eq_true_iff]

example : asksForFailure (.ofList [(failureKey, " TruE\n")]) = true := by decide

namespace KafkaGuard

variable {σ : Type}

/-! ### One failure -/

/-- How a record comes to be set aside, and the failure that its dead letter names. -/
inductive FailsWith (handler : ReceivedRecord → σ → Handling × σ) (r : ReceivedRecord)
    (state : σ) : Failure → Prop
  | forced (asks : AsksForFailure r.headers) :
    FailsWith handler r state ⟨"ForcedError", "failure forced by message header"⟩
  | failed {failure : Failure} (runs : ¬ AsksForFailure r.headers)
    (ends : (handler r state).1 = .failed failure) : FailsWith handler r state failure
  | panicked {message : String} (runs : ¬ AsksForFailure r.headers)
    (ends : (handler r state).1 = .panicked (.text message)) :
    FailsWith handler r state ⟨"panic", message⟩
  | panickedSilently (runs : ¬ AsksForFailure r.headers)
    (ends : (handler r state).1 = .panicked .other) :
    FailsWith handler r state ⟨"panic", "handler panicked"⟩

theorem failsWith_iff {handler : ReceivedRecord → σ → Handling × σ} {r : ReceivedRecord} {state : σ}
    {failure : Failure} : FailsWith handler r state failure ↔
      AsksForFailure r.headers ∧ failure = .forced ∨
        ¬ AsksForFailure r.headers ∧ (handler r state).1.failure? = some failure := by
  constructor
  · intro fails
    cases fails with
    | forced asks => exact .inl ⟨asks, rfl⟩
    | failed runs ends => exact .inr ⟨runs, by rw [ends]; rfl⟩
    | panicked runs ends => exact .inr ⟨runs, by rw [ends]; rfl⟩
    | panickedSilently runs ends => exact .inr ⟨runs, by rw [ends]; rfl⟩
  · rintro (⟨asks, rfl⟩ | ⟨runs, ends⟩)
    · exact .forced asks
    · cases how : (handler r state).1 with
      | completed => rw [how] at ends; cases ends
      | failed failure => rw [how] at ends; cases ends; exact .failed runs how
      | panicked payload =>
        rw [how] at ends
        cases payload <;> cases ends
        · exact .panicked runs how
        · exact .panickedSilently runs how

theorem FailsWith.unique {handler : ReceivedRecord → σ → Handling × σ} {r : ReceivedRecord}
    {state : σ} {failure failure' : Failure} (fails : FailsWith handler r state failure)
    (fails' : FailsWith handler r state failure') : failure = failure' := by
  rcases failsWith_iff.1 fails with ⟨asks, same⟩ | ⟨runs, ends⟩ <;>
    rcases failsWith_iff.1 fails' with ⟨asks', same'⟩ | ⟨runs', ends'⟩
  · exact same.trans same'.symm
  · exact absurd asks runs'
  · exact absurd asks' runs
  · exact Option.some.inj (ends.symm.trans ends')

structure SetAside (g : KafkaGuard) (r : ReceivedRecord) (failure : Failure)
    (copy : KafkaRecord) : Prop where
  topic : copy.topic = r.topic ++ g.suffix
  key : copy.key = r.key
  payload : copy.payload = r.payload
  originTopic : copy.headers.get? "dlt-original-topic" = some r.topic
  originPartition : copy.headers.get? "dlt-original-partition" = some (toString r.partition)
  originOffset : copy.headers.get? "dlt-original-offset" = some (toString r.offset)
  exceptionClass : copy.headers.get? "dlt-exception-class" = some failure.className
  exceptionMessage : copy.headers.get? "dlt-exception-message" = some failure.message
  others : ∀ key ∉ DeadLetter.diagnosticKeys, copy.headers.get? key = r.headers.get? key

theorem setAside_toKafka (g : KafkaGuard) (r : ReceivedRecord) (failure : Failure) :
    SetAside g r failure ((deadLetterOf r failure).toKafka (g.deadLetterTopic r.topic)) where
  topic := rfl
  key := rfl
  payload := rfl
  originTopic := DeadLetter.get?_headersForKafka ..
  originPartition := DeadLetter.get?_headersForKafka ..
  originOffset := DeadLetter.get?_headersForKafka ..
  exceptionClass := DeadLetter.get?_headersForKafka ..
  exceptionMessage := DeadLetter.get?_headersForKafka ..
  others _ other := DeadLetter.get?_headersForKafka_of_other _ rfl other

def disposalOf (topic : String) : Except PublishError Receipt → Disposal
  | .ok _ => .deadLettered topic
  | .error _ => .deadLetterFailed topic

theorem setAside_spec (g : KafkaGuard) (client : KafkaRecord → Except PublishError Receipt)
    (r : ReceivedRecord) (failure : Failure) (state : σ) :
    ∃ copy, SetAside g r failure copy ∧
      (g.setAside client r failure state).sent = [(copy, client copy)] ∧
      (g.setAside client r failure state).outcome =
        disposalOf (r.topic ++ g.suffix) (client copy) ∧
      (g.setAside client r failure state).state = state := by
  refine ⟨_, setAside_toKafka g r failure, ?_⟩
  unfold setAside
  dsimp only
  split <;> rename_i answer <;> rw [answer] <;> exact ⟨rfl, rfl, rfl⟩

/-! ### The guard -/

def logged (handler : ReceivedRecord → σ → Handling × σ) (r : ReceivedRecord)
    (state : σ × List ReceivedRecord) : Handling × σ × List ReceivedRecord :=
  let (handling, after) := handler r state.1
  (handling, after, state.2 ++ [r])

theorem logged_eq (handler : ReceivedRecord → σ → Handling × σ) (r : ReceivedRecord) (state : σ) :
    logged handler r (state, []) = ((handler r state).1, (handler r state).2, [r]) := rfl

/-- What the guard owes to a record. -/
structure Keeps (g : KafkaGuard) (client : KafkaRecord → Except PublishError Receipt)
    (handler : ReceivedRecord → σ → Handling × σ) (r : ReceivedRecord) (state : σ)
    (guarded : Guarded KafkaRecord (σ × List ReceivedRecord)) : Prop where
  skipped : AsksForFailure r.headers → guarded.state = (state, [])
  ran : ¬ AsksForFailure r.headers → guarded.state = ((handler r state).2, [r])
  handled : guarded.outcome = .handled ↔
    ¬ AsksForFailure r.headers ∧ (handler r state).1 = .completed
  silent : guarded.outcome = .handled → guarded.sent = []
  fails : guarded.outcome ≠ .handled → ∃ failure, FailsWith handler r state failure
  setAside : ∀ failure, FailsWith handler r state failure → ∃ copy,
    SetAside g r failure copy ∧ guarded.sent = [(copy, client copy)] ∧
      guarded.outcome = disposalOf (r.topic ++ g.suffix) (client copy)

theorem keeps_setAside {g : KafkaGuard} {client : KafkaRecord → Except PublishError Receipt}
    {handler : ReceivedRecord → σ → Handling × σ} {r : ReceivedRecord} {state : σ}
    {failure : Failure} {after : σ × List ReceivedRecord}
    (fails : FailsWith handler r state failure)
    (skipped : AsksForFailure r.headers → after = (state, []))
    (ran : ¬ AsksForFailure r.headers → after = ((handler r state).2, [r])) :
    Keeps g client handler r state (g.setAside client r failure after) := by
  obtain ⟨copy, whole, sent, outcome, same⟩ := setAside_spec g client r failure after
  have not_handled : (g.setAside client r failure after).outcome ≠ .handled := by
    rw [outcome]
    cases client copy <;> nofun
  refine ⟨fun asks => same.trans (skipped asks), fun runs => same.trans (ran runs), ?_,
    fun handled => absurd handled not_handled, fun _ => ⟨failure, fails⟩, ?_⟩
  · refine iff_of_false not_handled fun ⟨runs, completed⟩ => ?_
    rcases failsWith_iff.1 fails with ⟨asks, -⟩ | ⟨-, ends⟩
    · exact runs asks
    · rw [completed] at ends
      cases ends
  · intro failure' fails'
    cases fails.unique fails'
    exact ⟨copy, whole, sent, outcome⟩

/-- The guard's whole behaviour, for any record, handler and client. -/
theorem handle_keeps (g : KafkaGuard) (client : KafkaRecord → Except PublishError Receipt)
    (handler : ReceivedRecord → σ → Handling × σ) (r : ReceivedRecord) (state : σ) :
    Keeps g client handler r state (g.handle client (logged handler) r (state, [])) := by
  unfold handle
  by_cases asks : AsksForFailure r.headers
  · rw [if_pos ((asksForFailure_iff _).2 asks)]
    exact keeps_setAside (.forced asks) (fun _ => rfl) fun runs => absurd asks runs
  · rw [if_neg fun forced => asks ((asksForFailure_iff _).1 forced), logged_eq]
    dsimp only
    cases how : (handler r state).1.failure? with
    | some failure =>
      exact keeps_setAside (failsWith_iff.2 (.inr ⟨asks, how⟩)) (fun forced => absurd forced asks)
        fun _ => rfl
    | none =>
      have completed : (handler r state).1 = .completed := by
        cases ends : (handler r state).1 with
        | completed => rfl
        | failed _ | panicked _ => rw [ends] at how; cases how
      refine ⟨fun forced => absurd forced asks, fun _ => rfl, iff_of_true rfl ⟨asks, completed⟩,
        fun _ => rfl, fun failed => absurd rfl failed, fun failure fails => ?_⟩
      rcases failsWith_iff.1 fails with ⟨forced, -⟩ | ⟨-, ends⟩
      · exact absurd forced asks
      · rw [how] at ends
        cases ends

end KafkaGuard

end OutboxRelay
