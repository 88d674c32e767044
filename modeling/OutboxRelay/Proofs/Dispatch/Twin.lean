import OutboxRelay.Proofs.Dispatch.Alike
import OutboxRelay.Proofs.Dispatch.Alone

/-! Two deliveries of one event, at work in different surroundings. Where the brokers only look at
how often the event was sent before, and the circuit is closed, they go on in the same way: what one
does at some time after its start, the other does at the same time after its own. -/

namespace OutboxRelay

/-- How often letters, or dead-letter copies, for an event went to a target. -/
def tally (calls : List Call) (event : Int) (target : Nat) (isCopy : Bool) : Nat :=
  calls.countP fun c => c.event = event && (c.target = target && c.isCopy = isCopy)

/-- The brokers look at the letter for the event, but not at what was drawn for it, at the target
and at how often the one was sent to the other before. They do not look at the clock. -/
def Relay.Regular (relay : Relay) (e : Event) : Prop :=
  ∀ now now' past past' target letter letter',
    (∀ isCopy, tally past e.id target isCopy = tally past' e.id target isCopy) →
    letter.Alike e.Draws letter' →
    relay.react now past e.id target letter = relay.react now' past' e.id target letter'

section Tally

variable {σ : Type} {calls : List Call} {event : Int} {target : Nat} {isCopy : Bool} {c : Call}

theorem tally_endCall (s : RelayState σ) (number : Nat) (state : CallState) :
    tally (s.endCall number state).calls event target isCopy =
      tally s.calls event target isCopy := by
  unfold tally RelayState.endCall
  dsimp only
  induction s.calls generalizing number with
  | nil => simp
  | cons c rest ih =>
    cases number with
    | zero => simp [List.countP_cons]
    | succ number => simp [List.countP_cons, ih]

end Tally

section Stages

variable (since since' : Instant)

structure Attempt.Alike (a a' : Attempt) : Prop where
  started : Instant.SameAge since since' a.started a'.started
  deadline : Option.Rel (fun t t' => Instant.SameAge since since' t.due t'.due) a.deadline
    a'.deadline
  targets : a.targets = a'.targets
  firstError : a.firstError = a'.firstError

structure Flight.Alike (f f' : Flight) : Prop where
  target : f.target = f'.target
  cause : f.cause = f'.cause
  answer : Option.Rel (fun x x' => Instant.SameAge since since' x.1.due x'.1.due ∧ x.2 = x'.2)
    f.answer f'.answer

inductive Stage.Alike : Stage → Stage → Prop
  | beginning : Alike .beginning .beginning
  | sending {a a'} (attempt : a.Alike since since' a') : Alike (.sending a) (.sending a')
  | awaiting {a a' f f'} (attempt : a.Alike since since' a') (flight : f.Alike since since' f') :
      Alike (.awaiting a f) (.awaiting a' f')
  | pausing {t t'} (due : Instant.SameAge since since' t.due t'.due) :
      Alike (.pausing t) (.pausing t')
  | settling {result} : Alike (.settling result) (.settling result)

end Stages

/-- Two deliveries of one event, whose calls so far are the same. Calls are looked at from call
`base` on. -/
structure Delivery.Kin (base : Nat) (calls calls' : List Call) (d d' : Delivery) : Prop where
  event : d.event = d'.event
  headers : d.headers.AgreeBut d.event.Draws d'.headers
  correlated : (d.headers.get? correlationIdKey).isSome
  attempt : d.attempt = d'.attempt
  accepted : d.accepted = d'.accepted
  phase : d.started.SamePhase d'.started
  known : base ≤ calls.length
  known' : base ≤ calls'.length
  tally : ∀ target isCopy,
    tally calls d.event.id target isCopy = tally calls' d.event.id target isCopy
  own : CallsAlike d.event.Draws d.started d'.started ((ownCalls base d.event.id calls).map (·.1))
    ((ownCalls base d.event.id calls').map (·.1))

structure Delivery.Twin {σ : Type} (base : Nat) (x y : RelayState σ × Delivery) : Prop where
  kin : Kin base x.1.calls y.1.calls x.2 y.2
  stage : x.2.stage.Alike x.2.started y.2.started y.2.stage
  awaits : x.2.AwaitsLast (ownCalls base x.2.event.id x.1.calls)
  awaits' : y.2.AwaitsLast (ownCalls base y.2.event.id y.1.calls)

namespace Delivery

variable {σ : Type} {relay : Relay} {base : Nat} {s s' : RelayState σ} {d d' : Delivery}

theorem Kin.waitingTargets (kin : Kin base s.calls s'.calls d d') :
    d.waitingTargets relay = d'.waitingTargets relay := by
  unfold Delivery.waitingTargets
  rw [kin.accepted]

theorem Twin.of_calls {x : RelayState σ × Delivery} (twin : Twin base (s, d) x) {t t' : RelayState σ}
    (same : t.calls = s.calls) (same' : t'.calls = x.1.calls) : Twin base (t, d) (t', x.2) := by
  obtain ⟨kin, stage, awaits, awaits'⟩ := twin
  rw [← same'] at kin awaits'
  dsimp only at kin awaits
  rw [← same] at kin awaits
  exact ⟨kin, stage, awaits, awaits'⟩

theorem twin_conclude (kin : Kin base s.calls s'.calls d d')
    (clock : Instant.SameAge d.started d'.started s.now s'.now) (result : Except PublishError Unit) :
    Twin base (conclude relay s d result) (conclude relay s' d' result) := by
  have same : relay.retry.decide d.attempt result = relay.retry.decide d'.attempt result := by
    rw [kin.attempt]
  unfold conclude
  rw [same]
  split
  · exact ⟨{ kin with attempt := kin.attempt }, .settling, trivial, trivial⟩
  · dsimp only
    split
    · exact ⟨{ kin with attempt := rfl }, .beginning, trivial, trivial⟩
    · exact ⟨{ kin with attempt := rfl },
        .pausing (clock.timerAfter kin.phase _), trivial, trivial⟩

theorem twin_endAttempt (kin : Kin base s.calls s'.calls d d')
    (clock : Instant.SameAge d.started d'.started s.now s'.now) (a a' : Attempt)
    (result : Except PublishError Unit) :
    Twin base (endAttempt relay s d a result) (endAttempt relay s' d' a' result) := by
  unfold endAttempt
  rcases s.breaker.settle relay.breaker s.now result with ⟨breaker, journal⟩
  rcases s'.breaker.settle relay.breaker s'.now result with ⟨breaker', journal'⟩
  refine twin_conclude ?_ ?_ result
  · exact kin
  · exact clock

theorem twin_begin (kin : Kin base s.calls s'.calls d d')
    (clock : Instant.SameAge d.started d'.started s.now s'.now)
    (closed : s.breaker.circuit = .closed) (closed' : s'.breaker.circuit = .closed) :
    Twin base (begin relay s d) (begin relay s' d') := by
  unfold begin RelayState.note
  dsimp only
  rw [Breaker.request_of_closed closed, Breaker.request_of_closed closed', kin.waitingTargets]
  exact ⟨{ kin with attempt := kin.attempt }, .sending ⟨clock, .none, rfl, rfl⟩, trivial, trivial⟩

theorem Kin.handed (kin : Kin base s.calls s'.calls d d')
    (clock : Instant.SameAge d.started d'.started s.now s'.now) (target : Nat) (isCopy : Bool)
    {letter letter' : Letter} (alike : letter.Alike d.event.Draws letter') :
    Kin base (s.calls ++ [newCall s d target isCopy letter])
      (s'.calls ++ [newCall s' d' target isCopy letter']) d d' := by
  have alike : (newCall s d target isCopy letter).Alike d.event.Draws d.started d'.started
      (newCall s' d' target isCopy letter') :=
    ⟨rfl, congrArg Event.id kin.event, kin.attempt, rfl, alike, clock, .inProgress⟩
  have same : d'.event.id = d.event.id := congrArg Event.id kin.event.symm
  refine { kin with known := ?_, known' := ?_, tally := fun target' isCopy' => ?_, own := ?_ }
  · rw [List.length_append]
    exact Nat.le_add_right_of_le kin.known
  · rw [List.length_append]
    exact Nat.le_add_right_of_le kin.known'
  · have before := kin.tally target' isCopy'
    unfold OutboxRelay.tally at before ⊢
    rw [List.countP_append, List.countP_append, before, List.countP_singleton,
      List.countP_singleton, alike.event, alike.target, alike.isCopy]
  · have own : (newCall s d target isCopy letter).event = d.event.id := rfl
    have own' : (newCall s' d' target isCopy letter').event = d.event.id := same
    rw [ownCalls_append_same kin.known own, ownCalls_append_same kin.known' own', List.map_append,
      List.map_append]
    exact CallsAlike.concat_iff.2 ⟨kin.own, alike⟩

theorem Kin.awaiting (kin : Kin base s.calls s'.calls d d')
    (clock : Instant.SameAge d.started d'.started s.now s'.now) {a a' : Attempt}
    (attempt : a.Alike d.started d'.started a') (target : Nat × Target) {letter letter' : Letter}
    (alike : letter.Alike d.event.Draws letter') (cause : Option PublishError)
    {answer answer' : Option (Timer × Except PublishError Receipt)}
    (answers : Option.Rel (fun x x' => Instant.SameAge d.started d'.started x.1.due x'.1.due ∧
      x.2 = x'.2) answer answer') (timers timers' : Nat) :
    Twin base
      ({ s with
          calls := s.calls ++ [newCall s d target.1 cause.isSome letter]
          timers := timers },
        { d with stage := .awaiting a ⟨target, letter, s.calls.length, cause, answer⟩ })
      ({ s' with
          calls := s'.calls ++ [newCall s' d' target.1 cause.isSome letter']
          timers := timers' },
        { d' with stage := .awaiting a' ⟨target, letter', s'.calls.length, cause, answer'⟩ }) := by
  have handed := kin.handed clock target.1 cause.isSome alike
  have log := ownCalls_newCall (d := d) kin.known target.1 cause.isSome letter
  have log' := ownCalls_newCall (d := d') kin.known' target.1 cause.isSome letter'
  exact ⟨{ handed with attempt := handed.attempt }, .awaiting attempt ⟨rfl, rfl, answers⟩,
    ⟨_, _, log⟩, ⟨_, _, log'⟩⟩

theorem twin_handOver (regular : relay.Regular d.event) (kin : Kin base s.calls s'.calls d d')
    (clock : Instant.SameAge d.started d'.started s.now s'.now) {a a' : Attempt}
    (attempt : a.Alike d.started d'.started a') (target : Nat × Target) {letter letter' : Letter}
    (alike : letter.Alike d.event.Draws letter') (cause : Option PublishError) :
    Twin base (handOver relay s d a target letter cause)
      (handOver relay s' d' a' target letter' cause) := by
  have same : relay.react s.now s.calls d.event.id target.1 letter =
      relay.react s'.now s'.calls d'.event.id target.1 letter' := by
    rw [← kin.event]
    exact regular _ _ _ _ _ _ _ (kin.tally target.1) alike
  obtain ⟨begun, deadline, waiting, first⟩ := a
  obtain ⟨begun', deadline', waiting', first'⟩ := a'
  obtain ⟨started, deadlines, targets, firstError⟩ := attempt
  have budget := started.timerAfter kin.phase relay.plan.publishTimeout
  have armed (order order' : Nat) : Attempt.Alike d.started d'.started
      ⟨begun, some ⟨begun.timerAfter relay.plan.publishTimeout, order⟩, waiting, first⟩
      ⟨begun', some ⟨begun'.timerAfter relay.plan.publishTimeout, order'⟩, waiting', first'⟩ :=
    ⟨started, .some budget, targets, firstError⟩
  unfold handOver
  simp only [RelayState.handOver, RelayState.setTimer, same]
  cases relay.react s'.now s'.calls d'.event.id target.1 letter' with
  | never =>
    cases deadlines with
    | none => exact kin.awaiting clock (armed _ _) target alike cause .none _ _
    | some due =>
      exact kin.awaiting clock ⟨started, .some due, targets, firstError⟩ target alike cause .none _ _
  | after delay reply =>
    have there := clock.add delay
    have prompt : (Timer.mk (s.now.add delay) s.timers).isDue s.now =
        (Timer.mk (s'.now.add delay) s'.timers).isDue s'.now := there.le clock
    have answers : Option.Rel (fun x x' => Instant.SameAge d.started d'.started x.1.due x'.1.due ∧
        x.2 = x'.2) (some (Timer.mk (s.now.add delay) s.timers, reply))
        (some (Timer.mk (s'.now.add delay) s'.timers, reply)) := .some ⟨there, rfl⟩
    dsimp only
    rw [prompt]
    -- an answer that is there at once sets no deadline, on either side
    by_cases due : (Timer.mk (s'.now.add delay) s'.timers).isDue s'.now
    · simp only [due, if_true]
      have given : Attempt.Alike d.started d'.started ⟨begun, deadline, waiting, first⟩
          ⟨begun', deadline', waiting', first'⟩ := ⟨started, deadlines, targets, firstError⟩
      exact kin.awaiting clock given target alike cause answers _ _
    · simp only [due]
      cases deadlines with
      | none =>
        exact kin.awaiting clock (armed _ _) target alike cause answers _ _
      | some due =>
        exact kin.awaiting clock ⟨started, .some due, targets, firstError⟩ target alike cause
          answers _ _

theorem twin_send (regular : relay.Regular d.event) (kin : Kin base s.calls s'.calls d d')
    (clock : Instant.SameAge d.started d'.started s.now s'.now) {a a' : Attempt}
    (attempt : a.Alike d.started d'.started a') :
    Twin base (send relay s d a) (send relay s' d' a') := by
  have targets := attempt.targets
  unfold send
  rw [← targets, ← attempt.firstError]
  split
  · exact twin_endAttempt kin clock a a' _
  · rename_i target rest _
    have alike := Posting.alike_firstLetter kin.headers kin.correlated target.2 d.event.payload
      s.ids s'.ids
    have payload : d'.event.payload = d.event.payload := by rw [kin.event]
    unfold posting
    rw [payload]
    generalize (Posting.mk target.2 d.event.payload d.headers).firstLetter s.ids = first at alike ⊢
    generalize (Posting.mk target.2 d.event.payload d'.headers).firstLetter s'.ids = first' at alike ⊢
    obtain ⟨letter, ids⟩ := first
    obtain ⟨letter', ids'⟩ := first'
    refine twin_handOver regular ?_ ?_ ?_ target alike none
    · exact kin
    · exact clock
    · exact ⟨attempt.started, attempt.deadline, rfl, rfl⟩

theorem twin_endPosting (kin : Kin base s.calls s'.calls d d') {a a' : Attempt}
    (attempt : a.Alike d.started d'.started a') (target : Nat × Target)
    (result : Except PublishError Unit) :
    Twin base (endPosting s d a target result) (endPosting s' d' a' target result) := by
  unfold endPosting
  cases result with
  | ok value =>
    refine ⟨{ kin with accepted := ?_ }, .sending attempt, trivial, trivial⟩
    exact congrArg (target.1 :: ·) kin.accepted
  | error e =>
    refine ⟨{ kin with attempt := kin.attempt }, .sending ?_, trivial, trivial⟩
    rw [attempt.firstError]
    exact ⟨attempt.started, attempt.deadline, attempt.targets, rfl⟩

theorem Kin.ended (kin : Kin base s.calls s'.calls d d') {number number' : Nat}
    {log log' : List (Call × Nat)} {c c' : Call}
    (last : ownCalls base d.event.id s.calls = log ++ [(c, number)])
    (last' : ownCalls base d'.event.id s'.calls = log' ++ [(c', number')])
    {state state' : CallState} (alike : state.Alike d.started d'.started state') :
    Kin base (s.endCall number state).calls (s'.endCall number' state').calls d d' := by
  have same : d'.event.id = d.event.id := congrArg Event.id kin.event.symm
  have own := kin.own
  rw [← same, last', same, last, List.map_append, List.map_append] at own
  obtain ⟨before, calls⟩ := CallsAlike.concat_iff.1 own
  refine { kin with known := ?_, known' := ?_, tally := fun target isCopy => ?_, own := ?_ }
  · rw [RelayState.endCall, List.length_modify]
    exact kin.known
  · rw [RelayState.endCall, List.length_modify]
    exact kin.known'
  · rw [tally_endCall, tally_endCall]
    exact kin.tally target isCopy
  · have ended := ownCalls_endCall last state
    have ended' := ownCalls_endCall last' state'
    rw [same] at ended'
    rw [ended, ended', List.map_append, List.map_append]
    exact CallsAlike.concat_iff.2 ⟨before, { calls with state := alike }⟩

section Letters

variable {a a' : Attempt} {f f' : Flight} {log log' : List (Call × Nat)} {c c' : Call}

theorem twin_takeAnswer (regular : relay.Regular d.event) (kin : Kin base s.calls s'.calls d d')
    (clock : Instant.SameAge d.started d'.started s.now s'.now)
    (attempt : a.Alike d.started d'.started a') (flight : f.Alike d.started d'.started f')
    (last : ownCalls base d.event.id s.calls = log ++ [(c, f.call)])
    (last' : ownCalls base d'.event.id s'.calls = log' ++ [(c', f'.call)])
    (answer : Except PublishError Receipt) :
    Twin base (takeAnswer relay s d a f answer) (takeAnswer relay s' d' a' f' answer) := by
  have answered : (CallState.answered s.now answer).Alike d.started d'.started
      (.answered s'.now answer) := .answered clock
  have ended := kin.ended last last' answered
  have payload : d'.event.payload = d.event.payload := by rw [kin.event]
  unfold takeAnswer posting
  rw [← flight.cause, ← flight.target, payload]
  cases f.cause with
  | none =>
    rcases Posting.alike_afterFirst kin.headers f.target.2 d.event.payload f.letter f'.letter
      answer with
      ⟨result, journal, journal', eq, eq'⟩ | ⟨copy, copy', cause, alike, eq, eq'⟩
    · dsimp only
      rw [eq, eq']
      refine twin_endPosting ?_ attempt f.target result
      exact ended
    · dsimp only
      rw [eq, eq']
      refine twin_handOver regular ?_ ?_ attempt f.target alike (some cause)
      · exact ended
      · exact clock
  | some cause =>
    refine twin_endPosting ?_ attempt f.target (.error cause)
    exact ended

theorem twin_timeOut (kin : Kin base s.calls s'.calls d d')
    (clock : Instant.SameAge d.started d'.started s.now s'.now)
    (last : ownCalls base d.event.id s.calls = log ++ [(c, f.call)])
    (last' : ownCalls base d'.event.id s'.calls = log' ++ [(c', f'.call)]) :
    Twin base (timeOut relay s d a f) (timeOut relay s' d' a' f') :=
  twin_endAttempt (kin.ended last last' .abandoned) clock a a' _

end Letters

/-- Both wait, both go on, or both are settled. -/
inductive Move.Alike (base : Nat) : Move σ → Move σ → Prop
  | waits : Alike base .waits .waits
  | next {x y : RelayState σ × Delivery} (twin : Twin base x y) :
      Alike base (.next x.1 x.2) (.next y.1 y.2)
  | settled {s s' : RelayState σ} {o o' : Outcome} : Alike base (.settled s o) (.settled s' o')

theorem Move.Alike.of_next {m : Move σ} (h : Move.Alike base (.next s d) m) :
    ∃ y, m = .next y.1 y.2 ∧ Twin base (s, d) y := by
  generalize first : Move.next s d = first at h
  cases h with
  | waits => cases first
  | next twin =>
    cases first
    exact ⟨_, rfl, twin⟩
  | settled => cases first

theorem Move.Alike.of_waits {m : Move σ} (h : Move.Alike base .waits m) : m = .waits := by
  generalize first : Move.waits = first at h
  cases h with
  | waits => rfl
  | next _ => cases first
  | settled => cases first

theorem alike_step_of_awaiting [Outbox σ] {a a' : Attempt} {f f' : Flight}
    (regular : relay.Regular d.event) (kin : Kin base s.calls s'.calls d d')
    (clock : Instant.SameAge d.started d'.started s.now s'.now)
    (stage : d.stage = .awaiting a f) (stage' : d'.stage = .awaiting a' f')
    (attempt : a.Alike d.started d'.started a') (flight : f.Alike d.started d'.started f')
    (awaits : d.AwaitsLast (ownCalls base d.event.id s.calls))
    (awaits' : d'.AwaitsLast (ownCalls base d'.event.id s'.calls)) :
    Move.Alike base (d.step relay s) (d'.step relay s') := by
  unfold AwaitsLast at awaits awaits'
  rw [stage] at awaits
  rw [stage'] at awaits'
  obtain ⟨log, c, last⟩ := awaits
  obtain ⟨log', c', last'⟩ := awaits'
  have due {t t' : Timer} (same : Instant.SameAge d.started d'.started t.due t'.due) :
      t.isDue s.now = t'.isDue s'.now := same.le clock
  have timedOut : Twin base (timeOut relay s d a f) (timeOut relay s' d' a' f') :=
    twin_timeOut kin clock last last'
  have spent : a.deadline.any (·.isDue s.now) = a'.deadline.any (·.isDue s'.now) := by
    have deadlines := attempt.deadline
    generalize a.deadline = deadline at deadlines ⊢
    generalize a'.deadline = deadline' at deadlines ⊢
    cases deadlines with
    | none => rfl
    | some same => exact due same
  have answers := flight.answer
  unfold Delivery.step
  rw [stage, stage']
  dsimp only
  rw [spent]
  generalize f.answer = answer at answers ⊢
  generalize f'.answer = answer' at answers ⊢
  cases answers with
  | none =>
    dsimp only
    split
    · exact .next timedOut
    · exact .waits
  | @some x x' same =>
    obtain ⟨timer, reply⟩ := x
    obtain ⟨timer', reply'⟩ := x'
    obtain ⟨there, rfl⟩ := same
    dsimp only
    rw [due there]
    split
    · exact .next (twin_takeAnswer regular kin clock attempt flight last last' reply)
    · split
      · exact .next timedOut
      · exact .waits

theorem alike_step [Outbox σ] (regular : relay.Regular d.event) (twin : Twin base (s, d) (s', d'))
    (clock : Instant.SameAge d.started d'.started s.now s'.now)
    (closed : s.breaker.circuit = .closed) (closed' : s'.breaker.circuit = .closed) :
    Move.Alike base (d.step relay s) (d'.step relay s') := by
  obtain ⟨kin, stages, awaits, awaits'⟩ := twin
  dsimp only at kin stages awaits awaits'
  -- the stages are of one kind, so both sides take the same branch of the step
  generalize stage : d.stage = st at stages
  generalize stage' : d'.stage = st' at stages
  cases stages with
  | awaiting attempt flight =>
    exact alike_step_of_awaiting regular kin clock stage stage' attempt flight awaits awaits'
  | beginning =>
    unfold Delivery.step
    rw [stage, stage']
    exact .next (twin_begin kin clock closed closed')
  | sending attempt =>
    unfold Delivery.step
    rw [stage, stage']
    exact .next (twin_send regular kin clock attempt)
  | @pausing t t' same =>
    have due : t.isDue s.now = t'.isDue s'.now := same.le clock
    have begun : Twin base (s, { d with stage := .beginning })
        (s', { d' with stage := .beginning }) :=
      ⟨{ kin with attempt := kin.attempt }, .beginning, trivial, trivial⟩
    unfold Delivery.step
    rw [stage, stage']
    dsimp only
    rw [due]
    split
    · exact .next begun
    · exact .waits
  | settling =>
    unfold Delivery.step
    rw [stage, stage']
    exact .settled

/-! ### The next timer -/

theorem exists_partner {α β : Type} {related : α → β → Prop} {xs : List α} {ys : List β}
    (h : List.Forall₂ related xs ys) {x : α} (mem : x ∈ xs) : ∃ y ∈ ys, related x y := by
  induction h with
  | nil => cases mem
  | cons first _ ih =>
    rcases List.mem_cons.1 mem with rfl | later
    · exact ⟨_, List.mem_cons_self, first⟩
    · obtain ⟨y, among, same⟩ := ih later
      exact ⟨y, List.mem_cons_of_mem _ among, same⟩

theorem alike_timers (stage : d.stage.Alike d.started d'.started d'.stage) :
    List.Forall₂ (fun t t' => Instant.SameAge d.started d'.started t.due t'.due) d.timers
      d'.timers := by
  unfold timers
  generalize d.stage = st at stage ⊢
  generalize d'.stage = st' at stage ⊢
  cases stage with
  | @awaiting a a' f f' attempt flight =>
    have answers := flight.answer
    have deadlines := attempt.deadline
    dsimp only
    generalize f.answer = answer at answers ⊢
    generalize f'.answer = answer' at answers ⊢
    generalize a.deadline = deadline at deadlines ⊢
    generalize a'.deadline = deadline' at deadlines ⊢
    cases answers with
    | none =>
      cases deadlines with
      | none => exact .nil
      | some due => exact .cons due .nil
    | some there =>
      cases deadlines with
      | none => exact .cons there.1 .nil
      | some due => exact .cons there.1 (.cons due .nil)
  | pausing due => exact .cons due .nil
  | beginning => exact .nil
  | sending _ => exact .nil
  | settling => exact .nil

theorem alike_nextDue (stage : d.stage.Alike d.started d'.started d'.stage) {now : Instant}
    (fires : d.isDue now) (first : ∀ t ∈ d.timers, now.nanos ≤ t.due.nanos) :
    ∃ due, d'.nextDue = some due ∧ Instant.SameAge d.started d'.started now due := by
  have alike := alike_timers stage
  obtain ⟨t, mem, due⟩ := List.any_eq_true.1 fires
  rw [Timer.isDue_iff] at due
  obtain ⟨t', mem', same⟩ := exists_partner alike mem
  have least : (d'.timers.map (·.due.nanos)).min? = some t'.due.nanos := by
    refine List.min?_eq_some_iff.2 ⟨List.mem_map_of_mem mem', fun nanos among => ?_⟩
    obtain ⟨u', memU', rfl⟩ := List.mem_map.1 among
    obtain ⟨u, memU, sameU⟩ := exists_partner alike.flip memU'
    have later := first u memU
    unfold Instant.SameAge at same
    omega
  refine ⟨t'.due, ?_, ?_⟩
  · rw [nextDue, least]
    rfl
  · have now_eq := Nat.le_antisymm (first t mem) due
    unfold Instant.SameAge at same ⊢
    omega

end Delivery

end OutboxRelay
