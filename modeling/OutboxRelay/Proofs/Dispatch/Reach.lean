import OutboxRelay.Proofs.Dispatch.Alone
import OutboxRelay.Proofs.Dispatch.Course

/-! Which targets an event reaches. The targets share the budget of an attempt, so a target that
does not answer cuts off those that stand after it, and if it does so in every attempt, then they
are never sent the event. Failures of other targets cut nothing off. -/

namespace OutboxRelay

theorem Course.mem_sends_iff {relay : Relay} {calls : List Call} {attempts : List AttemptRecord}
    {target : Nat} (h : Course relay calls attempts) (known : target < relay.targets.length) :
    target ∈ sends calls ↔ ∃ r ∈ attempts, r.admitted ∧
      ∀ c ∈ attemptCalls r.number calls, c.isAbandoned → target ≤ c.target := by
  constructor
  · intro sent
    obtain ⟨letter, mem, isLetter, rfl⟩ := mem_sends.1 sent
    obtain ⟨r, made, _, admitted, reached⟩ := h.exists_attempt_of_letter mem isLetter
    exact ⟨r, made, admitted, reached⟩
  · rintro ⟨r, made, admitted, reached⟩
    rcases h.mem_sends_or_accepted made admitted known reached with sent | accepted
    · obtain ⟨letter, own, isLetter, aim⟩ := mem_sends.1 sent
      exact mem_sends.2 ⟨letter, (mem_attemptCalls.1 own).1, isLetter, aim⟩
    · obtain ⟨c, mem, aim, taken⟩ := accepted
      exact mem_sends.2 ⟨c, mem, not_isCopy_of_isAccepted taken, aim⟩

namespace Batch

/-- A target is sent the event if and only if there is an admitted attempt whose budget does not run
out at a target before it. -/
theorem dispatched_reaches_iff {σ : Type} [Outbox σ] (relay : Relay) (s : RelayState (Ledger σ))
    {events : List Event} (distinct : (events.map (·.id)).Nodup) {e : Event} (claimed : e ∈ events)
    {target : Nat} (known : target < relay.targets.length) :
    target ∈ sends (s.callsSince (dispatched relay s events) e.id) ↔
      ∃ r ∈ s.attemptsSince (dispatched relay s events) e.id, r.admitted ∧
        ∀ c ∈ attemptCalls r.number (s.callsSince (dispatched relay s events) e.id),
          c.isAbandoned → target ≤ c.target :=
  (dispatched_course relay (List.ne_nil_of_length_pos (Nat.zero_lt_of_lt known)) s distinct
    claimed).mem_sends_iff known

def wakingRelay : Relay where
  targets := [⟨"a", .direct "plain"⟩, ⟨"b", .direct "plain"⟩]
  retry := .standard
  breaker := .standard
  plan := { DispatchPlan.standard with publishTimeout := .ofMillis 1000 }
  react _ past _ _ _ := if past = [] then .never else .atOnce (.ok ⟨0, 0⟩)

theorem dispatched_reaches_iff_of_waking :
    ([placedOrder].map (·.id)).Nodup ∧ placedOrder ∈ [placedOrder] ∧
      1 < wakingRelay.targets.length ∧
      1 ∈ sends (freshState.callsSince (dispatched wakingRelay freshState [placedOrder]) 1) := by
  refine ⟨by decide, List.mem_cons_self, by decide, ?_⟩
  refine (dispatched_reaches_iff wakingRelay freshState (by decide) (e := placedOrder)
    List.mem_cons_self (by decide)).2 ?_
  obtain ⟨_, way, reached⟩ : ∃ s ∈ wholeWay wakingRelay 20 freshState placedOrder,
      ∃ r ∈ freshState.attemptsSince s 1, r.admitted ∧
        ∀ c ∈ attemptCalls r.number (freshState.callsSince s 1), c.isAbandoned → 1 ≤ c.target := by
    decide +kernel
  obtain rfl := eq_dispatched_of_wholeWay way
  exact reached

def silentRelay : Relay :=
  { wakingRelay with
    retry := .once
    react := fun _ _ _ target _ => if target = 0 then .never else .atOnce (.ok ⟨0, 0⟩) }

theorem silent_target_cuts_off_the_next :
    ¬ ∀ (relay : Relay) (s : RelayState (Ledger MemoryStore)) (events : List Event) (e : Event),
      (events.map (·.id)).Nodup → e ∈ events →
      (∃ r ∈ s.attemptsSince (dispatched relay s events) e.id, r.admitted) →
      ∀ target < relay.targets.length,
        target ∈ sends (s.callsSince (dispatched relay s events) e.id) := by
  intro all
  obtain ⟨_, way, admitted, missing⟩ : ∃ s ∈ wholeWay silentRelay 20 freshState placedOrder,
      (∃ r ∈ freshState.attemptsSince s 1, r.admitted) ∧ 1 ∉ sends (freshState.callsSince s 1) := by
    decide +kernel
  obtain rfl := eq_dispatched_of_wholeWay way
  exact missing (all silentRelay freshState [placedOrder] placedOrder (by decide)
    List.mem_cons_self admitted 1 (by decide))

end Batch

end OutboxRelay
