import OutboxRelay.Proofs.Dispatch.Attempts
import OutboxRelay.Proofs.Dispatch.Keeping

/-! The whole course of an event, from the first attempt to the last. An attempt is followed by
another one exactly if it failed for a transient reason and the limit of attempts is not reached.
Within an attempt a call begins only when the one before it was answered, and what Kafka refuses is
copied at once. -/

namespace OutboxRelay

def AttemptRecord.IsRetried (relay : Relay) (r : AttemptRecord) : Prop :=
  r.number < relay.retry.attemptLimit ∧ ∃ e, r.result = .error e ∧ e.isTransient = true

theorem AttemptRecord.isRetried_iff_of_error {relay : Relay} {r : AttemptRecord} {e : PublishError}
    (h : r.result = .error e) :
    r.IsRetried relay ↔ r.number < relay.retry.attemptLimit ∧ e.isTransient = true := by
  simp [IsRetried, h]

def Call.IsRefusedByKafka (relay : Relay) (c : Call) : Prop :=
  c.failure?.isSome ∧
    ∃ target suffix, relay.targets[c.target]? = some target ∧ target.publisher = .kafka suffix

structure Call.Precedes (relay : Relay) (c next : Call) : Prop where
  answered : c.attempt = next.attempt → c.IsAnswered
  copied : c.IsRefusedByKafka relay →
    next.isCopy = true ∧ next.target = c.target ∧ next.attempt = c.attempt

/-- The calls of an event, one at a time. -/
structure Orderly (relay : Relay) (calls : List Call) : Prop where
  chain : calls.IsChain (Call.Precedes relay)
  last : ∀ c ∈ calls.getLast?, ¬ c.IsRefusedByKafka relay

/-- The attempts of an event that is settled. -/
structure Exhausted (relay : Relay) (attempts : List AttemptRecord) : Prop where
  retried : ∀ r ∈ attempts.dropLast, r.IsRetried relay
  final : ∃ last ∈ attempts.getLast?, ¬ last.IsRetried relay

structure Course (relay : Relay) (calls : List Call) (attempts : List AttemptRecord) : Prop where
  history : History relay calls attempts
  orderly : Orderly relay calls
  exhausted : Exhausted relay attempts

namespace Orderly

variable {relay : Relay} {calls : List Call} {c next : Call}

theorem concat (h : Orderly relay calls)
    (answered : ∀ c ∈ calls.getLast?, c.attempt = next.attempt → c.IsAnswered)
    (new : next.failure? = none) : Orderly relay (calls ++ [next]) := by
  constructor
  · refine List.isChain_append.2 ⟨h.chain, .singleton _, fun c hc x hx => ?_⟩
    cases Option.mem_some.1 hx
    exact ⟨answered c hc, fun refused => absurd refused (h.last c hc)⟩
  · intro c hc
    rw [List.getLast?_concat] at hc
    cases Option.mem_some.1 hc
    simp [Call.IsRefusedByKafka, new]

theorem chain_endLast (h : Orderly relay (calls ++ [c])) (state : CallState) :
    (calls ++ [{ c with state := state }]).IsChain (Call.Precedes relay) := by
  obtain ⟨chain, _, link⟩ := List.isChain_append.1 h.chain
  refine List.isChain_append.2 ⟨chain, .singleton _, fun x hx y hy => ?_⟩
  cases Option.mem_some.1 hy
  obtain ⟨answered, copied⟩ := link x hx c rfl
  exact ⟨answered, copied⟩

theorem endLast (h : Orderly relay (calls ++ [c])) {state : CallState}
    (kept : ¬ ({ c with state := state } : Call).IsRefusedByKafka relay) :
    Orderly relay (calls ++ [{ c with state := state }]) := by
  refine ⟨h.chain_endLast state, fun x hx => ?_⟩
  rw [List.getLast?_concat] at hx
  cases Option.mem_some.1 hx
  exact kept

theorem sendCopy (h : Orderly relay (calls ++ [c])) {copy : Call} (time : Instant)
    (answer : Except PublishError Receipt) (isCopy : copy.isCopy = true)
    (aim : copy.target = c.target) (attempt : copy.attempt = c.attempt)
    (out : copy.failure? = none) :
    Orderly relay (calls ++ [{ c with state := .answered time answer }] ++ [copy]) := by
  constructor
  · refine List.isChain_append.2 ⟨h.chain_endLast _, .singleton _, fun x hx y hy => ?_⟩
    rw [List.getLast?_concat] at hx
    cases Option.mem_some.1 hx
    cases Option.mem_some.1 hy
    exact ⟨fun _ => ⟨time, answer, rfl⟩, fun _ => ⟨isCopy, aim, attempt⟩⟩
  · intro x hx
    rw [List.getLast?_concat] at hx
    cases Option.mem_some.1 hx
    simp [Call.IsRefusedByKafka, out]

end Orderly

namespace Delivery

variable {relay : Relay} {calls : List Call} {attempts : List AttemptRecord} {d d' : Delivery}

def Aims (relay : Relay) (d : Delivery) : Prop :=
  match d.stage with
  | .sending a => ∀ x ∈ a.targets, relay.targets[x.1]? = some x.2
  | .awaiting a f => relay.targets[f.target.1]? = some f.target.2 ∧
      ∀ x ∈ a.targets, relay.targets[x.1]? = some x.2
  | _ => True

/-- The attempts that have ended, in the light of what is to follow. -/
def Retries (relay : Relay) (attempts : List AttemptRecord) (d : Delivery) : Prop :=
  match d.stage with
  | .settling _ => Exhausted relay attempts
  | _ => ∀ r ∈ attempts, r.IsRetried relay

structure OnCourse (relay : Relay) (calls : List Call) (attempts : List AttemptRecord)
    (d : Delivery) : Prop where
  aims : Aims relay d
  orderly : Orderly relay calls
  retries : Retries relay attempts d

theorem aims_waitingTargets (relay : Relay) (d : Delivery) :
    ∀ x ∈ d.waitingTargets relay, relay.targets[x.1]? = some x.2 := by
  intro x hx
  obtain ⟨y, hy, rfl⟩ := List.mem_map.1 (List.mem_filter.1 hx).1
  exact List.mem_zipIdx_iff_getElem?.1 hy

theorem aims_of_concluded {now : Instant} {result : Except PublishError Unit}
    (h : Concluded relay now d result d') : Aims relay d' := by
  cases h <;> trivial

theorem aims_of_next {σ : Type} {s s' : RelayState σ} (h : Next relay s d s' d')
    (aims : Aims relay d) : Aims relay d' := by
  unfold Aims at aims
  cases h with
  | refused _ _ concluded => exact aims_of_concluded concluded
  | admitted stage _ => exact aims_waitingTargets relay d
  | handed stage targets _ _ =>
    rw [stage] at aims
    exact ⟨aims _ (targets ▸ List.mem_cons_self),
      fun x hx => aims x (targets ▸ List.mem_cons_of_mem _ hx)⟩
  | completed _ _ concluded => exact aims_of_concluded concluded
  | accepted stage _ _ _ =>
    rw [stage] at aims
    exact aims.2
  | failed stage _ _ _ _ =>
    rw [stage] at aims
    exact aims.2
  | copied stage _ _ _ _ _ _ =>
    rw [stage] at aims
    exact aims
  | copyAnswered stage _ _ _ =>
    rw [stage] at aims
    exact aims.2
  | timedOut _ _ _ _ concluded => exact aims_of_concluded concluded
  | resumed _ _ => trivial

theorem not_isRetried_of_finish {r : AttemptRecord}
    (final : relay.retry.decide r.number r.result = .finish r.result) : ¬ r.IsRetried relay := by
  rintro ⟨short, e, failed, transient⟩
  rw [failed] at final
  simp [RetryPolicy.decide, short, transient] at final

theorem retries_of_concluded {now : Instant} {r : AttemptRecord}
    (before : ∀ r ∈ attempts, r.IsRetried relay) (number : r.number = d.attempt)
    (h : Concluded relay now d r.result d') : Retries relay (attempts ++ [r]) d' := by
  have again {e : PublishError} (failed : r.result = .error e) (transient : e.isTransient = true)
      (short : d.attempt < relay.retry.attemptLimit) : ∀ x ∈ attempts ++ [r], x.IsRetried relay :=
    List.forall_mem_append.2
      ⟨before, List.forall_mem_singleton.2 ⟨number ▸ short, e, failed, transient⟩⟩
  cases h with
  | settling final =>
    rw [← number] at final
    refine ⟨?_, r, by simp, not_isRetried_of_finish final⟩
    rwa [List.dropLast_concat]
  | again failed transient short _ => exact again failed transient short
  | pausing failed transient short _ => exact again failed transient short

theorem Past.attempt_ne {number : UInt32} (h : Past relay calls attempts number) {c : Call}
    (mem : c ∈ calls) : c.attempt ≠ number := by
  obtain ⟨r, known, _, own⟩ := h.history.attempt_of_mem mem
  have le : r.number.toNat ∈ attempts.map (·.number.toNat) := List.mem_map_of_mem known
  rw [h.history.numbers, List.mem_range'_1] at le
  rintro rfl
  have next := h.next
  rw [← own] at next
  omega

section Step

variable {σ : Type} {since s s' : RelayState σ}

theorem callsSince_of_awaiting {a : Attempt} {f : Flight}
    (recorded : Recorded relay (ownCalls since.calls.length d.event.id s.calls) attempts d)
    (stage : d.stage = .awaiting a f) :
    ∃ earlier c, since.callsSince s d.event.id = earlier ++ [c] ∧ c.target = f.target.1 ∧
      c.isCopy = f.cause.isSome ∧ c.attempt = d.attempt ∧
      ∀ state, since.callsSince (s.endCall f.call state) d.event.id =
        earlier ++ [{ c with state := state }] := by
  have known := recorded.stage
  unfold StageRecorded at known
  rw [stage] at known
  obtain ⟨past, sent, earlier, c, log, _, _, awaiting⟩ := known
  refine ⟨earlier.map (·.1), c, ?_, awaiting.aim, awaiting.copy, ?_, fun state => ?_⟩
  · rw [← since.ownCalls_map_fst_eq_callsSince, log, List.map_append]
    rfl
  · exact awaiting.inOrder.numbered c (List.mem_append_right _ List.mem_cons_self)
  · rw [← since.ownCalls_map_fst_eq_callsSince, ownCalls_endCall log, List.map_append]
    rfl

theorem isAnswered_of_sending {a : Attempt}
    (recorded : Recorded relay (ownCalls since.calls.length d.event.id s.calls) attempts d)
    (stage : d.stage = .sending a) {c : Call} (mem : c ∈ since.callsSince s d.event.id)
    (own : c.attempt = d.attempt) : c.IsAnswered := by
  have known := recorded.stage
  unfold StageRecorded at known
  rw [stage, since.ownCalls_map_fst_eq_callsSince] at known
  obtain ⟨past, sent, log, before, sending⟩ := known
  rw [log] at mem
  rcases List.mem_append.1 mem with old | new
  · exact absurd own (before.attempt_ne old)
  · exact sending.answered c new

theorem orderly_of_sent {c : Call} {event : Int} (calls : since.calls.length ≤ s.calls.length)
    (sent : s'.calls = s.calls ++ [c]) (same : c.event = event)
    (orderly : Orderly relay (since.callsSince s event ++ [c])) :
    Orderly relay (since.callsSince s' event) := by
  rwa [RelayState.callsSince_of_sent calls sent same]

theorem orderly_of_next (h : Next relay s d s' d') (calls : since.calls.length ≤ s.calls.length)
    (recorded : Recorded relay (ownCalls since.calls.length d.event.id s.calls)
      (since.attemptsSince s d.event.id) d) (aims : Aims relay d)
    (orderly : Orderly relay (since.callsSince s d.event.id)) :
    Orderly relay (since.callsSince s' d.event.id) := by
  -- a call that is answered so that no copy is due
  have ended {a f} (stage : d.stage = .awaiting a f) (state : CallState)
      (kept : ∀ c : Call, c.target = f.target.1 → c.isCopy = f.cause.isSome →
        ¬ ({ c with state := state } : Call).IsRefusedByKafka relay) :
      Orderly relay (since.callsSince (s.endCall f.call state) d.event.id) := by
    obtain ⟨earlier, c, before, aim, copy, _, after⟩ := callsSince_of_awaiting recorded stage
    rw [before] at orderly
    rw [after]
    exact orderly.endLast (kept c aim copy)
  cases h with
  | refused => exact orderly
  | admitted => exact orderly
  | handed stage =>
    refine orderly_of_sent calls rfl rfl (orderly.concat (fun c last own => ?_) rfl)
    exact isAnswered_of_sending recorded stage (List.mem_of_getLast? last) own
  | completed => exact orderly
  | accepted stage =>
    exact ended stage _ fun c _ _ refused => by
      simp [Call.IsRefusedByKafka, Call.failure?] at refused
  | @failed a f _ _ _ stage first _ _ plain =>
    refine ended stage _ fun c aim _ refused => ?_
    unfold Aims at aims
    rw [stage] at aims
    obtain ⟨target, suffix, found, kafka⟩ := refused.2
    have same : some target = some f.target.2 := found.symm.trans (aim ▸ aims.1)
    cases same
    exact plain suffix kafka
  | @copied a f timer e suffix timers answer deadline journal copy stage first _ _ _ _ _ =>
    obtain ⟨earlier, c, before, aim, _, own, after⟩ := callsSince_of_awaiting recorded stage
    rw [before] at orderly
    have number : since.calls.length ≤
        (s.endCall f.call (.answered s.now (.error e))).calls.length := by
      simpa [RelayState.endCall] using calls
    refine orderly_of_sent number rfl rfl ?_
    rw [after]
    exact orderly.sendCopy s.now _ rfl aim.symm own.symm rfl
  | copyAnswered stage copy =>
    refine ended stage _ fun c _ isCopy refused => ?_
    have letter := not_isCopy_of_failure refused.1
    rw [copy] at isCopy
    rw [isCopy] at letter
    cases letter
  | timedOut stage =>
    exact ended stage _ fun c _ _ refused => by
      simp [Call.IsRefusedByKafka, Call.failure?] at refused
  | resumed => exact orderly

theorem isRetried_of_next (h : Next relay s d s' d') (retries : Retries relay attempts d) :
    ∀ r ∈ attempts, r.IsRetried relay := by
  have unsettled : ∀ result, d.stage ≠ .settling result := by cases h <;> simp [*]
  unfold Retries at retries
  split at retries
  · next result stage => exact absurd stage (unsettled result)
  · exact retries

theorem retries_of_recorded {now : Instant} {r : AttemptRecord}
    (attempts : since.attempts.length ≤ s.attempts.length)
    (recorded : s'.attempts = s.attempts ++ [r]) (own : r.event = d.event.id)
    (number : r.number = d.attempt)
    (before : ∀ r ∈ since.attemptsSince s d.event.id, r.IsRetried relay)
    (concluded : Concluded relay now d r.result d') :
    Retries relay (since.attemptsSince s' d.event.id) d' := by
  unfold RelayState.attemptsSince
  rw [recorded, ownAttempts_append_same attempts own]
  exact retries_of_concluded before number concluded

theorem retries_of_next (h : Next relay s d s' d')
    (attempts : since.attempts.length ≤ s.attempts.length)
    (retries : Retries relay (since.attemptsSince s d.event.id) d) :
    Retries relay (since.attemptsSince s' d.event.id) d' := by
  have before := isRetried_of_next h retries
  cases h with
  | refused _ _ concluded => exact retries_of_recorded attempts rfl rfl rfl before concluded
  | completed _ _ concluded => exact retries_of_recorded attempts rfl rfl rfl before concluded
  | timedOut _ _ _ _ concluded => exact retries_of_recorded attempts rfl rfl rfl before concluded
  | _ => exact before

theorem kept_onCourse (relay : Relay) : Kept relay (OnCourse relay) where
  start s e := ⟨trivial, ⟨.nil, by simp⟩, by simp [Retries, Delivery.start]⟩
  next step calls attempts recorded h :=
    ⟨aims_of_next step h.aims, orderly_of_next step calls recorded h.aims h.orderly,
      retries_of_next step attempts h.retries⟩

end Step

end Delivery

namespace Course

variable {relay : Relay} {calls : List Call} {attempts : List AttemptRecord} {r : AttemptRecord}
  {c : Call}

theorem exists_later_iff (h : Course relay calls attempts) (mem : r ∈ attempts) :
    (∃ later ∈ attempts, r.number < later.number) ↔ r.IsRetried relay := by
  obtain ⟨last, ends, final⟩ := h.exhausted.final
  obtain ⟨earlier, rfl⟩ := List.getLast?_eq_some_iff.1 ends
  have retried := h.exhausted.retried
  rw [List.dropLast_concat] at retried
  have before : ∀ r ∈ earlier, r.number < last.number := fun r hr =>
    (List.pairwise_append.1 h.history.ascending).2.2 r hr last List.mem_cons_self
  rcases List.mem_append.1 mem with old | new
  · exact ⟨fun _ => retried r old, fun _ => ⟨last, by simp, before r old⟩⟩
  · cases List.mem_singleton.1 new
    refine ⟨fun ⟨later, hl, lt⟩ => ?_, fun again => absurd again final⟩
    rcases List.mem_append.1 hl with old | new
    · exact absurd (before later old) (UInt32.lt_asymm lt)
    · cases List.mem_singleton.1 new
      exact absurd lt (UInt32.lt_irrefl _)

theorem chain_attemptCalls (h : Course relay calls attempts) (mem : r ∈ attempts)
    (admitted : r.admitted = true) :
    (attemptCalls r.number calls).IsChain (Call.Precedes relay) := by
  obtain ⟨past, later, split, _⟩ := h.history.conducted_of_mem mem admitted
  have chain := h.orderly.chain
  rw [split, List.isChain_append, List.isChain_append] at chain
  exact chain.1.2.1

theorem answered_before (h : Course relay calls attempts) (mem : r ∈ attempts)
    (admitted : r.admitted = true) {sent rest : List Call}
    (split : attemptCalls r.number calls = sent ++ c :: rest) : ∀ x ∈ sent, x.IsAnswered := by
  intro x hx
  obtain ⟨earlier, between, rfl⟩ := List.append_of_mem hx
  obtain ⟨next, others, follow⟩ := List.exists_cons_of_ne_nil
    (List.append_ne_nil_of_right_ne_nil between (List.cons_ne_nil c rest))
  rw [List.append_assoc, List.cons_append, follow] at split
  have chain := h.chain_attemptCalls mem admitted
  have number : ∀ y ∈ earlier ++ x :: next :: others, y.attempt = r.number := fun y hy =>
    (mem_attemptCalls.1 (split ▸ hy)).2
  rw [split] at chain
  exact (List.isChain_append_cons_cons.1 chain).2.1.answered
    ((number x (by simp)).trans (number next (by simp)).symm)

theorem le_target_of_abandoned (h : Course relay calls attempts) (mem : r ∈ attempts)
    (admitted : r.admitted = true) {target : Nat}
    (sent : target ∈ sends (attemptCalls r.number calls)) (own : c ∈ attemptCalls r.number calls)
    (abandoned : c.isAbandoned = true) : target ≤ c.target := by
  obtain ⟨past, later, _, conducted⟩ := h.history.conducted_of_mem mem admitted
  obtain ⟨rest, inOrder, _⟩ := conducted.inOrder
  obtain ⟨earlier, others, split⟩ := List.append_of_mem own
  cases others with
  | nil =>
    rw [split] at inOrder sent
    exact inOrder.le_target_of_mem_sends sent
  | cons next others =>
    rw [List.append_cons] at split
    have answered := h.answered_before mem admitted split c (by simp)
    rw [not_isAbandoned_of_isAnswered answered] at abandoned
    cases abandoned

theorem exists_attempt_of_letter (h : Course relay calls attempts) {letter : Call}
    (mem : letter ∈ calls) (isLetter : letter.isCopy = false) :
    ∃ r ∈ attempts, r.number = letter.attempt ∧ r.admitted = true ∧
      ∀ c ∈ attemptCalls r.number calls, c.isAbandoned → letter.target ≤ c.target := by
  obtain ⟨r, made, admitted, number⟩ := h.history.attempt_of_mem mem
  have sent : letter.target ∈ sends (attemptCalls r.number calls) :=
    mem_sends.2 ⟨letter, mem_attemptCalls.2 ⟨mem, number.symm⟩, isLetter, rfl⟩
  exact ⟨r, made, number, admitted, fun c own abandoned =>
    h.le_target_of_abandoned made admitted sent own abandoned⟩

theorem mem_sends_or_accepted (h : Course relay calls attempts) (mem : r ∈ attempts)
    (admitted : r.admitted = true) {target : Nat} (known : target < relay.targets.length)
    (reached : ∀ c ∈ attemptCalls r.number calls, c.isAbandoned → target ≤ c.target) :
    target ∈ sends (attemptCalls r.number calls) ∨
      ∃ c ∈ calls, c.target = target ∧ c.isAccepted := by
  obtain ⟨past, later, split, conducted⟩ := h.history.conducted_of_mem mem admitted
  cases accepted : hasAccepted past target with
  | false => exact .inl (conducted.mem_sends_of_le (mem_outstanding.2 ⟨known, accepted⟩) reached)
  | true =>
    obtain ⟨c, hc, taken⟩ := hasAccepted_iff.1 accepted
    rw [split]
    exact .inr ⟨c, List.mem_append_left _ (List.mem_append_left _ hc), taken⟩

section Failure

variable {sent rest : List Call} {e : PublishError}

theorem result_of_failure (h : Course relay calls attempts) (mem : r ∈ attempts)
    (admitted : r.admitted = true) (split : attemptCalls r.number calls = sent ++ c :: rest)
    (failed : c.failure? = some e) :
    r.result = .error (if rest.any (·.isAbandoned) then .timeout relay.plan.publishTimeout
      else (sent.findSome? (·.failure?)).getD e) := by
  obtain ⟨past, later, _, conducted⟩ := h.history.conducted_of_mem mem admitted
  rw [split] at conducted
  obtain ⟨first, found, result⟩ := conducted.result_of_failure
    (List.mem_append_right _ List.mem_cons_self) (Option.isSome_iff_exists.2 ⟨e, failed⟩)
  have before : sent.any (·.isAbandoned) = false := List.any_eq_false.2 fun x hx => by
    rw [not_isAbandoned_of_isAnswered (h.answered_before mem admitted split x hx)]
    exact Bool.false_ne_true
  have own : c.isAbandoned = false := not_isAbandoned_of_isAnswered
    (isAnswered_of_failure (Option.isSome_iff_exists.2 ⟨e, failed⟩))
  have same : (sent.findSome? (·.failure?)).getD e = first := by
    rw [List.findSome?_append, List.findSome?_cons, failed] at found
    cases earlier : sent.findSome? (·.failure?) <;> rw [earlier] at found <;>
      exact Option.some.inj found
  rw [result, same, List.any_append, List.any_cons, before, own]
  rfl

theorem exists_later_iff_of_failure (h : Course relay calls attempts) (mem : r ∈ attempts)
    (admitted : r.admitted = true) (split : attemptCalls r.number calls = sent ++ c :: rest)
    (failed : c.failure? = some e) :
    (∃ later ∈ attempts, r.number < later.number) ↔ r.number < relay.retry.attemptLimit ∧
      (rest.any (·.isAbandoned) ∨ ((sent.findSome? (·.failure?)).getD e).isTransient) := by
  rw [h.exists_later_iff mem,
    AttemptRecord.isRetried_iff_of_error (h.result_of_failure mem admitted split failed)]
  cases rest.any (·.isAbandoned) with
  | false => simp
  | true => exact ⟨fun again => ⟨again.1, .inl rfl⟩, fun again => ⟨again.1, rfl⟩⟩

end Failure

end Course

theorem Batch.dispatched_course {σ : Type} [Outbox σ] (relay : Relay) (targets : relay.targets ≠ [])
    (s : RelayState (Ledger σ)) {events : List Event} (distinct : (events.map (·.id)).Nodup)
    {e : Event} (claimed : e ∈ events) :
    Course relay (s.callsSince (dispatched relay s events) e.id)
      (s.attemptsSince (dispatched relay s events) e.id) := by
  obtain ⟨d, result, _, stage, history, onCourse⟩ :=
    dispatched_kept (Delivery.kept_onCourse relay) targets s distinct claimed
  have exhausted := onCourse.retries
  unfold Delivery.Retries at exhausted
  rw [stage] at exhausted
  exact ⟨history, onCourse.orderly, exhausted⟩

end OutboxRelay
