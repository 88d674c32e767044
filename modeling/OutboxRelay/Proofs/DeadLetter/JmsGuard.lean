import OutboxRelay.Proofs.DeadLetter.KafkaGuard
import OutboxRelay.Proofs.Text.Utf8

/-! What the guard around a listener of JMS messages owes to a message: the listener is run at most
once, and a message that was not handled is sent on, once, to the guard's one destination, with its
text, under an id that ties it to the message where there is one. How the client delivers that
letter is not followed, and neither is the journal. -/

namespace OutboxRelay

open Text

/-- How a message with these headers comes to be set aside, whose handler ends like this if it is
run, and the failure that the dead letter names. -/
inductive Handling.FailsWith (h : Headers) : Handling → Failure → Prop
  | forced {handling : Handling} (asks : AsksForFailure h) :
    FailsWith h handling ⟨"ForcedError", "failure forced by message header"⟩
  | failed {failure : Failure} (runs : ¬ AsksForFailure h) : FailsWith h (.failed failure) failure
  | panicked {message : String} (runs : ¬ AsksForFailure h) :
    FailsWith h (.panicked (.text message)) ⟨"panic", message⟩
  | panickedSilently (runs : ¬ AsksForFailure h) :
    FailsWith h (.panicked .other) ⟨"panic", "handler panicked"⟩

namespace Handling.FailsWith

variable {h : Headers} {handling : Handling} {failure failure' : Failure}

theorem of_failure? (runs : ¬ AsksForFailure h) (ends : handling.failure? = some failure) :
    handling.FailsWith h failure := by
  cases handling with
  | completed => cases ends
  | failed failure => cases ends; exact .failed runs
  | panicked payload => cases payload <;> cases ends <;> constructor <;> exact runs

theorem eq_of_asks (fails : handling.FailsWith h failure) (asks : AsksForFailure h) :
    failure = .forced := by
  cases fails with
  | forced => rfl
  | failed runs | panicked runs | panickedSilently runs => exact absurd asks runs

theorem failure?_of_runs (fails : handling.FailsWith h failure) (runs : ¬ AsksForFailure h) :
    handling.failure? = some failure := by
  cases fails with
  | forced asks => exact absurd asks runs
  | failed | panicked | panickedSilently => rfl

theorem unique (fails : handling.FailsWith h failure) (fails' : handling.FailsWith h failure') :
    failure = failure' := by
  by_cases asks : AsksForFailure h
  · rw [fails.eq_of_asks asks, fails'.eq_of_asks asks]
  · exact Option.some.inj ((fails.failure?_of_runs asks).symm.trans (fails'.failure?_of_runs asks))

theorem ne_completed (fails : handling.FailsWith h failure) (runs : ¬ AsksForFailure h) :
    handling ≠ .completed := by
  rintro rfl
  cases fails.failure?_of_runs runs

end Handling.FailsWith

theorem Handling.eq_completed_of_failure? {handling : Handling} (none : handling.failure? = none) :
    handling = .completed := by
  cases handling with
  | completed => rfl
  | failed _ | panicked _ => cases none

namespace DeadLetter

def ownProperties : List String :=
  [correlationIdKey, originDestinationKey, errorKey, errorClassKey]

theorem get?_propertiesForJms (d : DeadLetter) (key : String) :
    d.propertiesForJms.get? key =
      if key = errorClassKey then some d.failure.className
      else if key = errorKey then some d.failure.message
      else if key = originDestinationKey then some d.origin
      else if key = correlationIdKey then none
      else d.headers.get? key := by
  simp only [propertiesForJms, Headers.get?_insert, Headers.get?_erase]

theorem get?_propertiesForJms_of_other (d : DeadLetter) {key : String}
    (other : key ∉ ownProperties) : d.propertiesForJms.get? key = d.headers.get? key := by
  simp only [ownProperties, List.mem_cons, List.not_mem_nil, or_false, not_or] at other
  obtain ⟨id, origin, error, errorClass⟩ := other
  rw [get?_propertiesForJms, if_neg errorClass, if_neg error, if_neg origin, if_neg id]

theorem toJms_of_known (d : DeadLetter) {id : String} (known : d.correlationId = some id)
    (destination : String) (ids : IdSource) : d.toJms destination ids =
      (⟨destination, some id, textOfUtf8 (d.payload.getD []), d.propertiesForJms⟩, ids) := by
  simp only [toJms, known]

theorem toJms_of_unknown (d : DeadLetter) (unknown : d.correlationId = none) (destination : String)
    (ids : IdSource) : d.toJms destination ids =
      (⟨destination, some ids.draw.1.hyphenated, textOfUtf8 (d.payload.getD []),
        d.propertiesForJms⟩, ids.draw.2) := by
  simp only [toJms, unknown]

end DeadLetter

namespace JmsGuard

variable {σ : Type}

/-! ### One failure -/

def knownId (m : JmsMessage) : Option String :=
  m.correlationId.or (m.properties.get? "correlationId")

structure SetAside (g : JmsGuard) (m : JmsMessage) (failure : Failure) (fresh : Uuid)
    (copy : JmsMessage) : Prop where
  destination : copy.destination = g.destination
  body : copy.body = m.body
  correlationId : copy.correlationId = some ((knownId m).getD fresh.hyphenated)
  noIdProperty : copy.properties.get? "correlationId" = none
  originDestination : copy.properties.get? "originalDestination" = some m.destination
  error : copy.properties.get? "error" = some failure.message
  errorClass : copy.properties.get? "errorClass" = some failure.className
  others : ∀ key ∉ DeadLetter.ownProperties, copy.properties.get? key = m.properties.get? key

theorem correlationId_deadLetterOf (m : JmsMessage) (failure : Failure) :
    (deadLetterOf m failure).correlationId = knownId m := by
  cases own : m.correlationId <;>
    simp [deadLetterOf, knownId, DeadLetter.ofPayload, DeadLetter.setCorrelationId,
      DeadLetter.setHeaders, correlationIdKey, own]

theorem setAside_toJms (g : JmsGuard) (m : JmsMessage) (failure : Failure) (ids : IdSource) :
    SetAside g m failure ids.draw.1 ((deadLetterOf m failure).toJms g.destination ids).1 ∧
      ((deadLetterOf m failure).toJms g.destination ids).2 =
        if (knownId m).isSome then ids else ids.draw.2 := by
  have body : textOfUtf8 ((deadLetterOf m failure).payload.getD []) = m.body :=
    textOfUtf8_utf8 m.body
  have whole (id : String) (same : id = (knownId m).getD ids.draw.1.hyphenated) :
      SetAside g m failure ids.draw.1 ⟨g.destination, some id,
        textOfUtf8 ((deadLetterOf m failure).payload.getD []),
        (deadLetterOf m failure).propertiesForJms⟩ :=
    ⟨rfl, body, congrArg some same, DeadLetter.get?_propertiesForJms ..,
      DeadLetter.get?_propertiesForJms .., DeadLetter.get?_propertiesForJms ..,
      DeadLetter.get?_propertiesForJms .., fun _ => DeadLetter.get?_propertiesForJms_of_other _⟩
  have id := correlationId_deadLetterOf m failure
  cases known : knownId m with
  | some own =>
    rw [DeadLetter.toJms_of_known _ (id.trans known)]
    exact ⟨whole own (by rw [known]; rfl), rfl⟩
  | none =>
    rw [DeadLetter.toJms_of_unknown _ (id.trans known)]
    exact ⟨whole _ (by rw [known]; rfl), rfl⟩

theorem setAside_spec (g : JmsGuard) (client : JmsMessage → Except PublishError Receipt)
    (m : JmsMessage) (failure : Failure) (ids : IdSource) (state : σ) :
    ∃ copy, SetAside g m failure ids.draw.1 copy ∧
      (g.setAside client m failure ids state).1.sent = [(copy, client copy)] ∧
      (g.setAside client m failure ids state).1.outcome =
        KafkaGuard.disposalOf g.destination (client copy) ∧
      (g.setAside client m failure ids state).1.state = state ∧
      (g.setAside client m failure ids state).2 =
        if (knownId m).isSome then ids else ids.draw.2 := by
  obtain ⟨whole, drawn⟩ := setAside_toJms g m failure ids
  refine ⟨_, whole, ?_⟩
  unfold setAside
  dsimp only
  split <;> rename_i answer <;> rw [answer] <;> exact ⟨rfl, rfl, rfl, drawn⟩

/-! ### The guard -/

def logged (handler : JmsMessage → σ → Handling × σ) (m : JmsMessage)
    (state : σ × List JmsMessage) : Handling × σ × List JmsMessage :=
  let (handling, after) := handler m state.1
  (handling, after, state.2 ++ [m])

theorem logged_eq (handler : JmsMessage → σ → Handling × σ) (m : JmsMessage) (state : σ) :
    logged handler m (state, []) = ((handler m state).1, (handler m state).2, [m]) := rfl

/-- What the guard owes to a message. -/
structure Keeps (g : JmsGuard) (client : JmsMessage → Except PublishError Receipt)
    (handler : JmsMessage → σ → Handling × σ) (m : JmsMessage) (ids : IdSource) (state : σ)
    (guarded : Guarded JmsMessage (σ × List JmsMessage)) (left : IdSource) : Prop where
  skipped : AsksForFailure m.properties → guarded.state = (state, [])
  ran : ¬ AsksForFailure m.properties → guarded.state = ((handler m state).2, [m])
  handled : guarded.outcome = .handled ↔
    ¬ AsksForFailure m.properties ∧ (handler m state).1 = .completed
  silent : guarded.outcome = .handled → guarded.sent = [] ∧ left = ids
  fails : guarded.outcome ≠ .handled →
    ∃ failure, (handler m state).1.FailsWith m.properties failure
  setAside : ∀ failure, (handler m state).1.FailsWith m.properties failure → ∃ copy,
    SetAside g m failure ids.draw.1 copy ∧ guarded.sent = [(copy, client copy)] ∧
      guarded.outcome = KafkaGuard.disposalOf g.destination (client copy) ∧
      left = if (knownId m).isSome then ids else ids.draw.2

theorem keeps_setAside {g : JmsGuard} {client : JmsMessage → Except PublishError Receipt}
    {handler : JmsMessage → σ → Handling × σ} {m : JmsMessage} {ids : IdSource} {state : σ}
    {failure : Failure} {after : σ × List JmsMessage}
    (fails : (handler m state).1.FailsWith m.properties failure)
    (skipped : AsksForFailure m.properties → after = (state, []))
    (ran : ¬ AsksForFailure m.properties → after = ((handler m state).2, [m])) :
    Keeps g client handler m ids state (g.setAside client m failure ids after).1
      (g.setAside client m failure ids after).2 := by
  obtain ⟨copy, whole, sent, outcome, same, drawn⟩ := setAside_spec g client m failure ids after
  have not_handled : (g.setAside client m failure ids after).1.outcome ≠ .handled := by
    rw [outcome]
    cases client copy <;> nofun
  refine ⟨fun asks => same.trans (skipped asks), fun runs => same.trans (ran runs), ?_,
    fun handled => absurd handled not_handled, fun _ => ⟨failure, fails⟩, ?_⟩
  · exact iff_of_false not_handled fun ⟨runs, completed⟩ => fails.ne_completed runs completed
  · intro failure' fails'
    cases fails.unique fails'
    exact ⟨copy, whole, sent, outcome, drawn⟩

/-- The guard's whole behaviour, for any message, listener and client. -/
theorem keeps_handle (g : JmsGuard) (client : JmsMessage → Except PublishError Receipt)
    (handler : JmsMessage → σ → Handling × σ) (m : JmsMessage) (ids : IdSource) (state : σ) :
    Keeps g client handler m ids state (g.handle client (logged handler) m ids (state, [])).1
      (g.handle client (logged handler) m ids (state, [])).2 := by
  unfold handle
  by_cases asks : AsksForFailure m.properties
  · rw [if_pos ((asksForFailure_iff _).2 asks)]
    exact keeps_setAside (.forced asks) (fun _ => rfl) fun runs => absurd asks runs
  · rw [if_neg fun forced => asks ((asksForFailure_iff _).1 forced), logged_eq]
    dsimp only
    cases how : (handler m state).1.failure? with
    | some failure =>
      exact keeps_setAside (.of_failure? asks how) (fun forced => absurd forced asks) fun _ => rfl
    | none =>
      have completed := Handling.eq_completed_of_failure? how
      exact ⟨fun forced => absurd forced asks, fun _ => rfl, iff_of_true rfl ⟨asks, completed⟩,
        fun _ => ⟨rfl, rfl⟩, fun failed => absurd rfl failed,
        fun failure fails => absurd completed (fails.ne_completed asks)⟩

end JmsGuard

end OutboxRelay
