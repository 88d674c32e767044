import OutboxRelay.Proofs.Dispatch.Alone
import OutboxRelay.Proofs.Dispatch.Course

/-! What becomes of an event that a target has refused for good. Another attempt rests on the first
failure of an attempt, or on the end of its budget, and it sends to every target that has not
accepted. So the target is sent the event again where another target before it was merely out of
reach, or where the budget ran out behind it. -/

namespace OutboxRelay

namespace Delivery

variable {σ : Type} {relay : Relay} {s s' : RelayState σ} {d d' : Delivery}

theorem calls_of_next_of_nil (none : relay.targets = []) (aims : Aims relay d)
    (h : Next relay s d s' d') : s'.calls = s.calls := by
  unfold Aims at aims
  cases h with
  | handed stage targets _ _ =>
    rw [stage] at aims
    have aim := aims _ (targets ▸ List.mem_cons_self)
    simp [none] at aim
  | accepted stage _ _ _ => simp [stage, none] at aims
  | failed stage _ _ _ _ => simp [stage, none] at aims
  | copied stage _ _ _ _ _ _ => simp [stage, none] at aims
  | copyAnswered stage _ _ _ => simp [stage, none] at aims
  | timedOut stage _ _ _ _ => simp [stage, none] at aims
  | _ => rfl

end Delivery

theorem Batch.calls_dispatched_of_nil {σ : Type} [Outbox σ] {relay : Relay}
    (none : relay.targets = []) (s : RelayState σ) (events : List Event) :
    (dispatched relay s events).calls = s.calls := by
  refine ((moves_runTo relay .none s (ofEvents events)).keep
    (fun x => x.1.calls = s.calls ∧ ∀ d ∈ x.2.deliveries, Delivery.Aims relay d)
    (fun x y move ⟨calls, aims⟩ => ⟨?_, ?_⟩) ⟨rfl, fun d hd => by cases hd⟩).1
  · cases move with
    | goOn first step =>
      have head := aims _ (List.mem_append_left _ (first ▸ List.mem_cons_self))
      exact (Delivery.calls_of_next_of_nil none head (Delivery.next_of_step step)).trans calls
    | settle first step =>
      obtain ⟨result, _, settle⟩ := Delivery.settling_of_step step
      obtain ⟨⟨clock, journal, rfl⟩, rfl⟩ := Delivery.settle_spec settle
      exact calls
    | _ => exact calls
  · exact deliveries_of_move (fun _ _ => trivial) (fun next => Delivery.aims_of_next next) move aims

namespace Course

variable {relay : Relay} {calls before after : List Call} {attempts : List AttemptRecord} {c : Call}
  {cause : PublishError}

theorem lt_attempt_of_failure (h : Course relay calls attempts)
    (split : calls = before ++ c :: after) (failed : c.failure?.isSome) {x : Call}
    (mem : x ∈ after) (letter : x.isCopy = false) (aim : x.target = c.target) :
    c.attempt < x.attempt := by
  have le : c.attempt ≤ x.attempt := by
    have ascending := h.history.calls_ascending
    rw [split] at ascending
    exact (List.pairwise_cons.1 (List.pairwise_append.1 ascending).2.1).1 x mem
  refine UInt32.lt_of_le_of_ne le fun same => ?_
  -- within an attempt each target gets one letter
  obtain ⟨r, made, admitted, number⟩ := h.history.attempt_of_mem (c := c) (by simp [split])
  obtain ⟨past, later, _, conducted⟩ := h.history.conducted_of_mem made admitted
  obtain ⟨rest, inOrder, _⟩ := conducted.inOrder
  have nodup := inOrder.sends_nodup
  have own : sends [c] = [c.target] := by simp [sends, not_isCopy_of_failure failed]
  rw [attemptCalls_split split number.symm, List.append_cons, sends_append, sends_append, own,
    List.nodup_append] at nodup
  exact nodup.2.2 c.target (by simp) c.target
    (mem_sends.2 ⟨x, mem_attemptCalls.2 ⟨mem, same.symm.trans number.symm⟩, letter, aim⟩) rfl

theorem mem_after (h : Course relay calls attempts) (split : calls = before ++ c :: after)
    {x : Call} (mem : x ∈ calls) (later : c.attempt < x.attempt) : x ∈ after := by
  have ascending := h.history.calls_ascending
  rw [split] at mem ascending
  rcases List.mem_append.1 mem with old | new
  · have le := (List.pairwise_append.1 ascending).2.2 x old c List.mem_cons_self
    exact absurd later (UInt32.not_lt.2 le)
  · rcases List.mem_cons.1 new with rfl | new
    · exact absurd later (UInt32.lt_irrefl _)
    · exact new

theorem mem_after_of_isAccepted (h : Course relay calls attempts)
    (split : calls = before ++ c :: after) (failed : c.failure?.isSome) {x : Call}
    (mem : x ∈ calls) (aim : x.target = c.target) (taken : x.isAccepted = true) : x ∈ after := by
  have once := h.history.once
  rw [split] at mem once
  rcases List.mem_append.1 mem with old | new
  · have apart := (List.pairwise_append.1 once).2.2 x old c List.mem_cons_self taken
    exact absurd aim.symm apart
  · rcases List.mem_cons.1 new with rfl | new
    · rw [not_isAccepted_of_failure failed] at taken
      cases taken
    · exact new

theorem mem_sends_after_iff (h : Course relay calls attempts) (split : calls = before ++ c :: after)
    (failed : c.failure?.isSome) :
    c.target ∈ sends after ↔ ∃ r ∈ attempts, c.attempt < r.number ∧ r.admitted ∧
      ∀ x ∈ attemptCalls r.number calls, x.isAbandoned → c.target ≤ x.target := by
  constructor
  · intro again
    obtain ⟨letter, mem, isLetter, aim⟩ := mem_sends.1 again
    have known : letter ∈ calls := by simp [split, mem]
    obtain ⟨r, made, number, admitted, reached⟩ := h.exists_attempt_of_letter known isLetter
    rw [aim] at reached
    refine ⟨r, made, ?_, admitted, reached⟩
    rw [number]
    exact h.lt_attempt_of_failure split failed mem isLetter aim
  · rintro ⟨r, made, next, admitted, reached⟩
    have known := h.history.target_lt (c := c) (by simp [split])
    rcases h.mem_sends_or_accepted made admitted known reached with sent | accepted
    · obtain ⟨letter, own, isLetter, aim⟩ := mem_sends.1 sent
      obtain ⟨mem, number⟩ := mem_attemptCalls.1 own
      exact mem_sends.2 ⟨letter, h.mem_after split mem (number ▸ next), isLetter, aim⟩
    · obtain ⟨x, mem, aim, taken⟩ := accepted
      exact mem_sends.2 ⟨x, h.mem_after_of_isAccepted split failed mem aim taken,
        not_isCopy_of_isAccepted taken, aim⟩

theorem exists_later_iff_of_final (h : Course relay calls attempts)
    (split : calls = before ++ c :: after) (refused : c.failure? = some cause)
    (final : cause.isTransient = false) :
    (∃ r ∈ attempts, c.attempt < r.number) ↔ c.attempt < relay.retry.attemptLimit ∧
      ((attemptCalls c.attempt after).any (·.isAbandoned) ∨
        ∃ first, (attemptCalls c.attempt before).findSome? (·.failure?) = some first ∧
          first.isTransient) := by
  obtain ⟨r, made, admitted, number⟩ := h.history.attempt_of_mem (c := c) (by simp [split])
  have own := attemptCalls_split split number.symm
  rw [← number, h.exists_later_iff_of_failure made admitted own refused]
  cases (attemptCalls r.number before).findSome? (·.failure?) <;> simp [final]

end Course

namespace Batch

/-- A target that has refused an event for good is sent it again if and only if a later attempt is
admitted and reaches it. There is a later attempt if and only if, short of the limit, the one of the
refusal was cut off behind it, or had first failed at a target before it for a transient reason. -/
theorem dispatched_resends_iff {σ : Type} [Outbox σ] (relay : Relay) (s : RelayState (Ledger σ))
    {events : List Event} (distinct : (events.map (·.id)).Nodup) {e : Event} (claimed : e ∈ events)
    {before after : List Call} {c : Call} {cause : PublishError}
    (split : s.callsSince (dispatched relay s events) e.id = before ++ c :: after)
    (refused : c.failure? = some cause) (final : cause.isTransient = false) :
    (c.target ∈ sends after ↔
      ∃ r ∈ s.attemptsSince (dispatched relay s events) e.id, c.attempt < r.number ∧ r.admitted ∧
        ∀ x ∈ attemptCalls r.number (s.callsSince (dispatched relay s events) e.id),
          x.isAbandoned → c.target ≤ x.target) ∧
    ((∃ r ∈ s.attemptsSince (dispatched relay s events) e.id, c.attempt < r.number) ↔
      c.attempt < relay.retry.attemptLimit ∧
        ((attemptCalls c.attempt after).any (·.isAbandoned) ∨
          ∃ first, (attemptCalls c.attempt before).findSome? (·.failure?) = some first ∧
            first.isTransient)) := by
  have targets : relay.targets ≠ [] := by
    intro none
    unfold RelayState.callsSince at split
    rw [calls_dispatched_of_nil none, List.drop_length] at split
    simp at split
  have course := dispatched_course relay targets s distinct claimed
  exact ⟨course.mem_sends_after_iff split (Option.isSome_iff_exists.2 ⟨cause, refused⟩),
    course.exists_later_iff_of_final split refused final⟩

def refusingRelay : Relay where
  targets := [⟨"a", .direct "plain"⟩, ⟨"b", .direct "plain"⟩]
  retry := ⟨2, .ofMillis 100, .ofMillis 100⟩
  breaker := .standard
  plan := .standard
  react _ _ _ target _ :=
    .atOnce (if target = 0 then .ok ⟨0, 0⟩ else .error (.rejected "plain" "down"))

theorem dispatched_resends_iff_of_refusing :
    ([placedOrder].map (·.id)).Nodup ∧ placedOrder ∈ [placedOrder] ∧
      ∃ before after c cause,
        freshState.callsSince (dispatched refusingRelay freshState [placedOrder]) 1 =
          before ++ c :: after ∧
        c.failure? = some cause ∧ cause.isTransient = false ∧ c.target ∉ sends after := by
  refine ⟨by decide, List.mem_cons_self, ?_⟩
  obtain ⟨s, way, c, second, refused, behind, before⟩ :
      ∃ s ∈ wholeWay refusingRelay 20 freshState placedOrder,
        ∃ c ∈ (freshState.callsSince s 1)[1]?, c.failure? = some (.rejected "plain" "down") ∧
          (attemptCalls c.attempt ((freshState.callsSince s 1).drop 2)).any (·.isAbandoned) =
            false ∧
          (attemptCalls c.attempt ((freshState.callsSince s 1).take 1)).findSome? (·.failure?) =
            none := by decide +kernel
  obtain rfl := eq_dispatched_of_wholeWay way
  have split := split_of_getElem second
  obtain ⟨again, another⟩ := dispatched_resends_iff refusingRelay freshState (by decide)
    (e := placedOrder) List.mem_cons_self split refused rfl
  refine ⟨_, _, c, _, split, refused, rfl, fun sent => ?_⟩
  obtain ⟨r, made, later, _⟩ := again.1 sent
  obtain ⟨_, cut | ⟨first, found, _⟩⟩ := another.1 ⟨r, made, later⟩
  · rw [behind] at cut
    cases cut
  · rw [before] at found
    cases found

def mixedRelay : Relay :=
  { refusingRelay with
    react := fun _ _ _ target _ => .atOnce (.error
      (if target = 0 then .unavailable "plain" "down" else .rejected "plain" "down")) }

theorem refused_event_is_sent_again :
    ¬ ∀ (relay : Relay) (s : RelayState (Ledger MemoryStore)) (events : List Event) (e : Event)
      (before after : List Call) (c : Call) (cause : PublishError),
      (events.map (·.id)).Nodup → e ∈ events →
      s.callsSince (dispatched relay s events) e.id = before ++ c :: after →
      c.failure? = some cause → cause.isTransient = false → c.target ∉ sends after := by
  intro never
  obtain ⟨s, way, c, second, refused, again⟩ :
      ∃ s ∈ wholeWay mixedRelay 20 freshState placedOrder,
        ∃ c ∈ (freshState.callsSince s 1)[1]?, c.failure? = some (.rejected "plain" "down") ∧
          c.target ∈ sends ((freshState.callsSince s 1).drop 2) := by decide +kernel
  obtain rfl := eq_dispatched_of_wholeWay way
  exact never mixedRelay freshState [placedOrder] placedOrder _ _ c _ (by decide)
    List.mem_cons_self (split_of_getElem second) refused rfl again

end Batch

end OutboxRelay
