import OutboxRelay.Proofs.Dispatch.Alone
import OutboxRelay.Proofs.Dispatch.Course

/-! What the dead-letter copy does to the attempt that sends it. The copy goes out at once when
Kafka fails, and its answer changes nothing. But the attempt waits for that answer within its own
budget, so a copy that is not answered in time turns any failure into the end of the budget, which
is transient. -/

namespace OutboxRelay

namespace Course

variable {relay : Relay} {calls before after : List Call} {attempts : List AttemptRecord}
  {r : AttemptRecord} {c : Call} {cause : PublishError}

theorem exists_copy (h : Course relay calls attempts) (split : calls = before ++ c :: after)
    (refused : c.IsRefusedByKafka relay) :
    ∃ copy others, after = copy :: others ∧ copy.isCopy ∧ copy.target = c.target ∧
      copy.attempt = c.attempt := by
  have chain := h.orderly.chain
  rw [split] at chain
  cases after with
  | nil =>
    have last : c ∈ calls.getLast? := by simp [split]
    exact absurd refused (h.orderly.last c last)
  | cons copy others =>
    have link := (List.isChain_append_cons_cons.1 chain).2.1
    exact ⟨copy, others, rfl, link.copied refused⟩

end Course

namespace Batch

/-- Where Kafka is the first to fail, its failure is the result of the attempt unless the budget
runs out, be it while the copy is waited for or at a later target. -/
theorem dispatched_result_of_refused {σ : Type} [Outbox σ] (relay : Relay)
    (s : RelayState (Ledger σ)) {events : List Event} (distinct : (events.map (·.id)).Nodup)
    {e : Event} (claimed : e ∈ events) {r : AttemptRecord}
    (made : r ∈ s.attemptsSince (dispatched relay s events) e.id) (admitted : r.admitted = true)
    {before after : List Call} {c : Call} {target : Target} {suffix : String} {cause : PublishError}
    (split : s.callsSince (dispatched relay s events) e.id = before ++ c :: after)
    (own : c.attempt = r.number) (aim : relay.targets[c.target]? = some target)
    (kafka : target.publisher = .kafka suffix) (failed : c.failure? = some cause)
    (first : ∀ x ∈ before, x.attempt = r.number → x.failure? = none) :
    ∃ copy others, after = copy :: others ∧ copy.isCopy ∧ copy.target = c.target ∧
      copy.attempt = r.number ∧
      r.result = .error
        (if copy.isAbandoned ∨ (attemptCalls r.number others).any (·.isAbandoned)
          then .timeout relay.plan.publishTimeout else cause) ∧
      ((∃ later ∈ s.attemptsSince (dispatched relay s events) e.id, r.number < later.number) ↔
        r.number < relay.retry.attemptLimit ∧
          (copy.isAbandoned ∨ (attemptCalls r.number others).any (·.isAbandoned) ∨
            cause.isTransient)) := by
  have targets : relay.targets ≠ [] := by
    intro none
    simp [none] at aim
  have course := dispatched_course relay targets s distinct claimed
  have parts := attemptCalls_split split own
  have none : (attemptCalls r.number before).findSome? (·.failure?) = none :=
    List.findSome?_eq_none_iff.2 fun x hx =>
      first x (mem_attemptCalls.1 hx).1 (mem_attemptCalls.1 hx).2
  have result := course.result_of_failure made admitted parts failed
  have again := course.exists_later_iff_of_failure made admitted parts failed
  have refused : c.IsRefusedByKafka relay :=
    ⟨Option.isSome_iff_exists.2 ⟨cause, failed⟩, target, suffix, aim, kafka⟩
  obtain ⟨copy, others, rfl, isCopy, aimed, number⟩ := course.exists_copy split refused
  rw [own] at number
  have follows : attemptCalls r.number (copy :: others) = copy :: attemptCalls r.number others := by
    simp [attemptCalls, number]
  simp only [none, follows, List.any_cons, Bool.or_eq_true, or_assoc, Option.getD_none]
    at result again
  exact ⟨copy, others, rfl, isCopy, aimed, number, result, again⟩

def rejectingRelay (copies : Reaction Receipt) : Relay where
  targets := [⟨"orders", .kafka "-dlq"⟩]
  retry := .standard
  breaker := .standard
  plan := { DispatchPlan.standard with publishTimeout := .ofMillis 1000 }
  react _ _ _ _ letter :=
    if letter.destination = "orders" then .atOnce (.error (.rejected "kafka" "down")) else copies

def promptCopies : Relay := rejectingRelay (.atOnce (.ok ⟨0, 0⟩))

theorem dispatched_result_of_refused_of_promptCopies :
    ([placedOrder].map (·.id)).Nodup ∧ placedOrder ∈ [placedOrder] ∧
      ∃ r ∈ freshState.attemptsSince (dispatched promptCopies freshState [placedOrder]) 1,
        ∃ c after, r.admitted = true ∧
          freshState.callsSince (dispatched promptCopies freshState [placedOrder]) 1 =
            [] ++ c :: after ∧
          c.attempt = r.number ∧ promptCopies.targets[c.target]? = some ⟨"orders", .kafka "-dlq"⟩ ∧
          c.failure? = some (.rejected "kafka" "down") ∧
          r.result = .error (.rejected "kafka" "down") ∧
          ¬ ∃ later ∈ freshState.attemptsSince (dispatched promptCopies freshState [placedOrder]) 1,
            r.number < later.number := by
  refine ⟨by decide, List.mem_cons_self, ?_⟩
  obtain ⟨s, way, r, made, c, first, admitted, own, aim, failed, kept⟩ :
      ∃ s ∈ wholeWay promptCopies 20 freshState placedOrder,
        ∃ r ∈ freshState.attemptsSince s 1, ∃ c ∈ (freshState.callsSince s 1)[0]?,
          r.admitted = true ∧ c.attempt = r.number ∧
          promptCopies.targets[c.target]? = some ⟨"orders", .kafka "-dlq"⟩ ∧
          c.failure? = some (.rejected "kafka" "down") ∧
          (∀ x ∈ freshState.callsSince s 1, x.isAbandoned = false) := by decide +kernel
  obtain rfl := eq_dispatched_of_wholeWay way
  have split := split_of_getElem first
  obtain ⟨copy, others, rest, _, _, _, result, again⟩ :=
    dispatched_result_of_refused promptCopies freshState (by decide) (e := placedOrder)
      List.mem_cons_self made admitted split own aim rfl failed (by simp)
  have waited : copy.isAbandoned = false := kept copy (by rw [split, rest]; simp)
  have reached : (attemptCalls r.number others).any (·.isAbandoned) = false :=
    List.any_eq_false.2 fun x hx => by
      have mem := (mem_attemptCalls.1 hx).1
      simp [kept x (by rw [split, rest]; simp [mem])]
  rw [waited, reached] at result again
  exact ⟨r, made, c, _, admitted, split, own, aim, failed, result,
    fun later => (again.1 later).2.elim nofun (Or.elim · nofun nofun)⟩

def stuckCopies : Relay := rejectingRelay .never

theorem stuck_copy_masks_the_failure :
    ¬ ∀ (relay : Relay) (s : RelayState (Ledger MemoryStore)) (events : List Event) (e : Event)
      (r : AttemptRecord) (before after : List Call) (c : Call) (target : Target) (suffix : String)
      (cause : PublishError), (events.map (·.id)).Nodup → e ∈ events →
      r ∈ s.attemptsSince (dispatched relay s events) e.id → r.admitted = true →
      s.callsSince (dispatched relay s events) e.id = before ++ c :: after →
      c.attempt = r.number → relay.targets[c.target]? = some target →
      target.publisher = .kafka suffix → c.failure? = some cause →
      (∀ x ∈ before, x.attempt = r.number → x.failure? = none) → r.result = .error cause := by
  intro kept
  obtain ⟨s, way, r, made, c, first, admitted, own, aim, failed, masked⟩ :
      ∃ s ∈ wholeWay stuckCopies 40 freshState placedOrder,
        ∃ r ∈ freshState.attemptsSince s 1, ∃ c ∈ (freshState.callsSince s 1)[0]?,
          r.admitted = true ∧ c.attempt = r.number ∧
          stuckCopies.targets[c.target]? = some ⟨"orders", .kafka "-dlq"⟩ ∧
          c.failure? = some (.rejected "kafka" "down") ∧
          r.result ≠ .error (.rejected "kafka" "down") := by decide +kernel
  obtain rfl := eq_dispatched_of_wholeWay way
  exact masked (kept stuckCopies freshState [placedOrder] placedOrder r _ _ c _ _ _ (by decide)
    List.mem_cons_self made admitted (split_of_getElem first) own aim rfl failed (by simp))

end Batch

end OutboxRelay
