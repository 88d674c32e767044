import OutboxRelay.Dispatch.Delivery

/-! What one step of a delivery can do. `Next` lists the kinds of steps with their guards and all
that they change; what else is in the state stays as it is. Every statement about deliveries is
proved from this list, none from the text of `Delivery.step`. -/

namespace OutboxRelay

def Attempt.result (a : Attempt) : Except PublishError Unit :=
  match a.firstError with
  | some e => .error e
  | none => .ok ()

def Settlement.ofResult : Except PublishError Unit → Settlement
  | .ok _ => .published
  | .error _ => .failed

namespace RetryPolicy

variable {α : Type} {p : RetryPolicy} {attempt : UInt32} {result : Except PublishError α}

theorem eq_of_decide_finish {final : Except PublishError α}
    (h : p.decide attempt result = .finish final) : final = result := by
  unfold decide at h
  split at h
  · cases h; rfl
  · split at h
    · cases h
    · cases h; rfl

theorem error_of_decide_retry {next : UInt32} {delay : Duration} {entry : JournalEntry}
    (h : p.decide attempt result = .retry next delay entry) :
    ∃ e, result = .error e ∧ e.isTransient ∧ delay = p.delayAfter attempt := by
  unfold decide at h
  split at h
  · cases h
  · rename_i e
    split at h
    · rename_i again
      cases h
      exact ⟨e, rfl, again.2, rfl⟩
    · cases h

end RetryPolicy

theorem Posting.afterFirst_cases (p : Posting) (letter : Letter)
    (answer : Except PublishError Receipt) :
    (∃ receipt journal, answer = .ok receipt ∧
      p.afterFirst letter answer = (.finished (.ok ()), journal)) ∨
    (∃ e, answer = .error e ∧ (∀ suffix, p.target.publisher ≠ .kafka suffix) ∧
      p.afterFirst letter answer = (.finished (.error e), [])) ∨
    (∃ e suffix, answer = .error e ∧ p.target.publisher = .kafka suffix ∧
      p.afterFirst letter answer = (.another (.kafka (p.deadLetterCopy suffix e)) e, [])) := by
  unfold afterFirst
  cases kind : p.target.publisher <;> cases answer <;> simp

namespace Delivery

variable {σ : Type}

inductive Concluded (relay : Relay) (now : Instant) (d : Delivery)
    (result : Except PublishError Unit) : Delivery → Prop
  | settling (final : relay.retry.decide d.attempt result = .finish result) :
      Concluded relay now d result { d with stage := .settling result }
  | again {e : PublishError} (failed : result = .error e) (transient : e.isTransient)
      (short : d.attempt < relay.retry.attemptLimit)
      (noDelay : (relay.retry.delayAfter d.attempt).nanos = 0) :
      Concluded relay now d result { d with attempt := d.attempt + 1, stage := .beginning }
  | pausing {e : PublishError} {timer : Timer} (failed : result = .error e)
      (transient : e.isTransient) (short : d.attempt < relay.retry.attemptLimit)
      (due : timer.due = now.timerAfter (relay.retry.delayAfter d.attempt)) :
      Concluded relay now d result { d with attempt := d.attempt + 1, stage := .pausing timer }

theorem conclude_spec (relay : Relay) (s : RelayState σ) (d : Delivery)
    (result : Except PublishError Unit) :
    ∃ journal timers d', conclude relay s d result =
        ({ s with journal := journal, timers := timers }, d') ∧
      Concluded relay s.now d result d' := by
  unfold conclude
  split
  · rename_i final h
    obtain rfl := RetryPolicy.eq_of_decide_finish h
    exact ⟨_, _, _, rfl, .settling h⟩
  · rename_i next delay entry h
    obtain ⟨short, rfl⟩ := RetryPolicy.lt_attemptLimit_of_decide_retry h
    obtain ⟨e, failed, transient, rfl⟩ := RetryPolicy.error_of_decide_retry h
    dsimp only
    split
    · rename_i noDelay
      exact ⟨_, _, _, rfl, .again failed transient short noDelay⟩
    · exact ⟨_, _, _, rfl, .pausing failed transient short rfl⟩

/-- The timers for a letter that was handed over: one for its answer, unless that never comes, and
one for the end of the budget, unless the answer is there at once. -/
structure Awaits (relay : Relay) (a : Attempt) (now : Instant) (reaction : Reaction Receipt)
    (answer : Option (Timer × Except PublishError Receipt)) (deadline : Option Timer) : Prop where
  comes : match reaction with
    | .never => answer = none
    | .after delay reply => ∃ timer : Timer, timer.due = now.add delay ∧
      answer = some (timer, reply)
  armed : deadline = a.deadline ∨ a.deadline = none ∧
    ∃ timer, deadline = some timer ∧ timer.due = a.started.timerAfter relay.plan.publishTimeout
  atOnce : deadline = none → ∃ timer reply, answer = some (timer, reply) ∧ timer.isDue now

def newCall (s : RelayState σ) (d : Delivery) (target : Nat) (isCopy : Bool) (letter : Letter) :
    Call :=
  ⟨target, d.event.id, d.attempt, isCopy, letter, s.now, s.load target + 1, .inProgress⟩

theorem handOver_spec (relay : Relay) (s : RelayState σ) (d : Delivery) (a : Attempt)
    (target : Nat × Target) (letter : Letter) (cause : Option PublishError) :
    ∃ timers answer deadline, handOver relay s d a target letter cause =
        ({ s with
            calls := s.calls ++ [newCall s d target.1 cause.isSome letter]
            timers := timers },
          { d with
            stage := .awaiting { a with deadline := deadline }
              ⟨target, letter, s.calls.length, cause, answer⟩ }) ∧
      Awaits relay a s.now (relay.react s.now s.calls d.event.id target.1 letter) answer deadline := by
  unfold handOver
  simp only [RelayState.handOver, RelayState.setTimer]
  cases reacts : relay.react s.now s.calls d.event.id target.1 letter with
  | never =>
    cases ha : a.deadline with
    | some timer =>
      exact ⟨s.timers, none, some timer, by simp [← ha, newCall], rfl, .inl ha.symm, nofun⟩
    | none =>
      exact ⟨_, none, some ⟨a.started.timerAfter relay.plan.publishTimeout, s.timers⟩, rfl,
        rfl, .inr ⟨ha, _, rfl, rfl⟩, nofun⟩
  | after delay reply =>
    by_cases due : (⟨s.now.add delay, s.timers⟩ : Timer).isDue s.now
    · simp only [due, if_true]
      exact ⟨_, _, a.deadline, rfl, ⟨_, rfl, rfl⟩, .inl rfl, fun _ => ⟨_, _, rfl, due⟩⟩
    · simp only [due]
      cases ha : a.deadline with
      | some timer =>
        exact ⟨s.timers + 1, some (⟨s.now.add delay, s.timers⟩, reply), some timer,
          by simp [← ha, newCall], ⟨_, rfl, rfl⟩, .inl ha.symm, nofun⟩
      | none =>
        exact ⟨_, _, some ⟨a.started.timerAfter relay.plan.publishTimeout, s.timers + 1⟩, rfl,
          ⟨_, rfl, rfl⟩, .inr ⟨ha, _, rfl, rfl⟩, nofun⟩

/-- The kinds of steps that leave an event unsettled. -/
inductive Next (relay : Relay) (s : RelayState σ) (d : Delivery) : RelayState σ → Delivery → Prop
  | refused {journal timers d'} (stage : d.stage = .beginning)
      (rejected : s.breaker.request relay.breaker s.now = .rejected)
      (concluded : Concluded relay s.now d (.error (Breaker.rejection relay.breaker)) d') :
      Next relay s d
        { s with
          journal := journal
          timers := timers
          attempts := s.attempts ++
            [record s d s.now false (.error (Breaker.rejection relay.breaker))] } d'
  | admitted {breaker entries journal} (stage : d.stage = .beginning)
      (admits : s.breaker.request relay.breaker s.now = .admitted breaker entries) :
      Next relay s d { s with breaker := breaker, journal := journal }
        { d with stage := .sending ⟨s.now, none, d.waitingTargets relay, none⟩ }
  | handed {a target rest letter ids timers answer deadline} (stage : d.stage = .sending a)
      (targets : a.targets = target :: rest)
      (first : (d.posting target.2).firstLetter s.ids = (letter, ids))
      (awaits : Awaits relay a s.now (relay.react s.now s.calls d.event.id target.1 letter) answer
        deadline) :
      Next relay s d
        { s with
          ids := ids
          calls := s.calls ++ [newCall s d target.1 false letter]
          timers := timers }
        { d with
          stage := .awaiting ⟨a.started, deadline, rest, a.firstError⟩
            ⟨target, letter, s.calls.length, none, answer⟩ }
  | completed {a journal timers d'} (stage : d.stage = .sending a) (targets : a.targets = [])
      (concluded : Concluded relay s.now d a.result d') :
      Next relay s d
        { s with
          breaker := (s.breaker.settle relay.breaker s.now a.result).1
          journal := journal
          timers := timers
          attempts := s.attempts ++ [record s d a.started true a.result] } d'
  | accepted {a f timer receipt journal} (stage : d.stage = .awaiting a f)
      (first : f.cause = none) (answer : f.answer = some (timer, .ok receipt))
      (due : timer.isDue s.now) :
      Next relay s d
        { s.endCall f.call (.answered s.now (.ok receipt)) with journal := journal }
        { d with accepted := f.target.1 :: d.accepted, stage := .sending a }
  | failed {a f timer e journal} (stage : d.stage = .awaiting a f) (first : f.cause = none)
      (answer : f.answer = some (timer, .error e)) (due : timer.isDue s.now)
      (plain : ∀ suffix, f.target.2.publisher ≠ .kafka suffix) :
      Next relay s d
        { s.endCall f.call (.answered s.now (.error e)) with journal := journal }
        { d with stage := .sending { a with firstError := some (a.firstError.getD e) } }
  | copied {a f timer e suffix timers answer' deadline journal} {copy : Letter}
      (stage : d.stage = .awaiting a f) (first : f.cause = none)
      (answer : f.answer = some (timer, .error e)) (due : timer.isDue s.now)
      (kafka : f.target.2.publisher = .kafka suffix)
      (letter : copy = .kafka ((d.posting f.target.2).deadLetterCopy suffix e))
      (awaits : Awaits relay a s.now
        (relay.react s.now (s.endCall f.call (.answered s.now (.error e))).calls d.event.id
          f.target.1 copy) answer' deadline) :
      Next relay s d
        { s with
          calls := (s.endCall f.call (.answered s.now (.error e))).calls ++
            [newCall (s.endCall f.call (.answered s.now (.error e))) d f.target.1 true copy]
          timers := timers
          journal := journal }
        { d with
          stage := .awaiting { a with deadline := deadline }
            ⟨f.target, copy, s.calls.length, some e, answer'⟩ }
  | copyAnswered {a f timer reply e journal} (stage : d.stage = .awaiting a f)
      (copy : f.cause = some e) (answer : f.answer = some (timer, reply))
      (due : timer.isDue s.now) :
      Next relay s d
        { s.endCall f.call (.answered s.now reply) with journal := journal }
        { d with stage := .sending { a with firstError := some (a.firstError.getD e) } }
  | timedOut {a f deadline journal timers d'} (stage : d.stage = .awaiting a f)
      (budget : a.deadline = some deadline) (spent : deadline.isDue s.now)
      (late : ∀ timer reply, f.answer = some (timer, reply) → timer.isDue s.now = false)
      (concluded : Concluded relay s.now d (.error (.timeout relay.plan.publishTimeout)) d') :
      Next relay s d
        { s.endCall f.call .abandoned with
          breaker := (s.breaker.fail relay.breaker s.now).1
          journal := journal
          timers := timers
          attempts := s.attempts ++
            [record s d a.started true (.error (.timeout relay.plan.publishTimeout))] } d'
  | resumed {timer} (stage : d.stage = .pausing timer) (due : timer.isDue s.now) :
      Next relay s d s { d with stage := .beginning }

section Step

variable {relay : Relay} {s s' : RelayState σ} {d d' : Delivery}

theorem next_of_begin (stage : d.stage = .beginning) (h : begin relay s d = (s', d')) :
    Next relay s d s' d' := by
  unfold begin at h
  dsimp only at h
  split at h
  · rename_i rejected
    obtain ⟨journal, timers, d'', eq, concluded⟩ := conclude_spec relay
      ((s.note [d.attemptEntry]).recordAttempt (record (s.note [d.attemptEntry]) d
        (s.note [d.attemptEntry]).now false (.error (Breaker.rejection relay.breaker)))) d
      (.error (Breaker.rejection relay.breaker))
    rw [eq] at h
    cases h
    exact .refused stage rejected concluded
  · rename_i admits
    cases h
    exact .admitted stage admits

theorem next_of_endAttempt {a : Attempt} {result : Except PublishError Unit}
    (h : endAttempt relay s d a result = (s', d')) :
    ∃ journal timers, s' = { s with
        breaker := (s.breaker.settle relay.breaker s.now result).1
        journal := journal
        timers := timers
        attempts := s.attempts ++ [record s d a.started true result] } ∧
      Concluded relay s.now d result d' := by
  unfold endAttempt at h
  dsimp only at h
  obtain ⟨journal, timers, d'', eq, concluded⟩ := conclude_spec relay
    (({ s with breaker := (s.breaker.settle relay.breaker s.now result).1 }.note
      (s.breaker.settle relay.breaker s.now result).2).recordAttempt
        (record s d a.started true result)) d result
  rw [eq] at h
  cases h
  exact ⟨journal, timers, rfl, concluded⟩

theorem next_of_send {a : Attempt} (stage : d.stage = .sending a)
    (h : send relay s d a = (s', d')) : Next relay s d s' d' := by
  unfold send at h
  split at h
  · rename_i targets
    obtain ⟨journal, timers, rfl, concluded⟩ := next_of_endAttempt h
    exact .completed stage targets concluded
  · rename_i target rest targets
    dsimp only at h
    obtain ⟨timers, answer, deadline, eq, awaits⟩ := handOver_spec relay
      { s with ids := ((d.posting target.2).firstLetter s.ids).2 } d { a with targets := rest }
      target ((d.posting target.2).firstLetter s.ids).1 none
    rw [eq] at h
    cases h
    exact .handed (a := a) stage targets rfl ⟨awaits.comes, awaits.armed, awaits.atOnce⟩

theorem next_of_timeOut {a : Attempt} {f : Flight} {deadline : Timer}
    (stage : d.stage = .awaiting a f) (budget : a.deadline = some deadline)
    (spent : deadline.isDue s.now)
    (late : ∀ timer reply, f.answer = some (timer, reply) → timer.isDue s.now = false)
    (h : timeOut relay s d a f = (s', d')) : Next relay s d s' d' := by
  obtain ⟨journal, timers, rfl, concluded⟩ := next_of_endAttempt h
  exact .timedOut stage budget spent late concluded

theorem next_of_takeAnswer {a : Attempt} {f : Flight} {timer : Timer}
    {answer : Except PublishError Receipt} (stage : d.stage = .awaiting a f)
    (answered : f.answer = some (timer, answer)) (due : timer.isDue s.now)
    (h : takeAnswer relay s d a f answer = (s', d')) : Next relay s d s' d' := by
  unfold takeAnswer at h
  dsimp only at h
  split at h
  · rename_i first
    rcases Posting.afterFirst_cases (d.posting f.target.2) f.letter answer with
      ⟨receipt, journal, rfl, eq⟩ | ⟨e, rfl, plain, eq⟩ | ⟨e, suffix, rfl, kafka, eq⟩
    · rw [eq] at h
      cases h
      exact .accepted stage first answered due
    · rw [eq] at h
      cases h
      exact .failed stage first answered due plain
    · rw [eq] at h
      obtain ⟨timers, answer', deadline, handed, awaits⟩ := handOver_spec relay
        ((s.endCall f.call (.answered s.now (.error e))).note []) d a f.target
        (.kafka ((d.posting f.target.2).deadLetterCopy suffix e)) (some e)
      dsimp only at h
      rw [handed] at h
      cases h
      have calls : ((s.endCall f.call (.answered s.now (.error e))).note []).calls.length =
          s.calls.length := by
        simp [RelayState.note, RelayState.endCall]
      rw [calls]
      exact .copied stage first answered due kafka rfl awaits
  · rename_i e copy
    cases h
    exact .copyAnswered stage copy answered due

theorem next_of_step [Outbox σ] (h : d.step relay s = .next s' d') : Next relay s d s' d' := by
  unfold step at h
  split at h
  · rename_i stage
    exact next_of_begin stage (by injection h with hs hd; exact Prod.ext hs hd)
  · rename_i a stage
    exact next_of_send stage (by injection h with hs hd; exact Prod.ext hs hd)
  · rename_i a f stage
    split at h
    · rename_i timer answer answered
      split at h
      · rename_i due
        exact next_of_takeAnswer stage answered due
          (by injection h with hs hd; exact Prod.ext hs hd)
      · rename_i early
        split at h
        · rename_i spent
          obtain ⟨deadline, budget, spent⟩ := (Option.any_eq_true _ _).1 spent
          refine next_of_timeOut stage budget spent (fun timer' reply same => ?_)
            (by injection h with hs hd; exact Prod.ext hs hd)
          rw [answered] at same
          cases same
          simpa using early
        · cases h
    · rename_i none
      split at h
      · rename_i spent
        obtain ⟨deadline, budget, spent⟩ := (Option.any_eq_true _ _).1 spent
        refine next_of_timeOut stage budget spent (fun timer reply same => ?_)
          (by injection h with hs hd; exact Prod.ext hs hd)
        rw [none] at same
        cases same
      · cases h
  · rename_i timer stage
    split at h
    · rename_i due
      cases h
      exact .resumed stage due
    · cases h
  · cases h

theorem settling_of_step [Outbox σ] {outcome : Outcome}
    (h : d.step relay s = .settled s' outcome) :
    ∃ result, d.stage = .settling result ∧ settle s d result = (s', outcome) := by
  unfold step at h
  split at h
  · cases h
  · cases h
  · split at h
    · split at h
      · cases h
      · split at h <;> cases h
    · split at h <;> cases h
  · split at h <;> cases h
  · rename_i result stage
    injection h with hs ho
    exact ⟨result, stage, Prod.ext hs ho⟩

def settleReply [Outbox σ] (s : RelayState σ) (d : Delivery) :
    Except PublishError Unit → StoreReply σ Unit
  | .ok _ => Outbox.settlePublished s.store s.clock.read.1 d.event.id
  | .error cause => Outbox.settleFailed s.store s.clock.read.1 d.event.id cause.message

theorem settle_eq [Outbox σ] (s : RelayState σ) (d : Delivery)
    (result : Except PublishError Unit) :
    ∃ journal, settle s d result = ({ s with
        store := (settleReply s d result).store
        clock := s.clock.read.2
        journal := journal },
      ⟨d.event.id, d.started, s.now,
        (settleReply s d result).result.map fun _ => .ofResult result⟩) := by
  unfold settle
  cases result with
  | ok done =>
    dsimp only [RelayState.ask, settleReply]
    cases (Outbox.settlePublished s.store s.clock.read.1 d.event.id).result with
    | ok _ => exact ⟨_, rfl⟩
    | error e => exact ⟨_, rfl⟩
  | error cause =>
    dsimp only [RelayState.ask, RelayState.note, settleReply]
    cases (Outbox.settleFailed s.store s.clock.read.1 d.event.id cause.message).result with
    | ok _ => exact ⟨_, rfl⟩
    | error e => exact ⟨_, rfl⟩

theorem settle_spec [Outbox σ] {result : Except PublishError Unit} {outcome : Outcome}
    (h : settle s d result = (s', outcome)) :
    (∃ clock journal, s' = { s with
      store := (settleReply s d result).store
      clock := clock
      journal := journal }) ∧
    outcome = ⟨d.event.id, d.started, s.now,
      (settleReply s d result).result.map fun _ => .ofResult result⟩ := by
  obtain ⟨journal, eq⟩ := settle_eq s d result
  rw [eq] at h
  cases h
  exact ⟨⟨_, journal, rfl⟩, rfl⟩

theorem stage_of_step_waits [Outbox σ] (h : d.step relay s = .waits) :
    (∃ a f, d.stage = .awaiting a f) ∨ ∃ timer, d.stage = .pausing timer := by
  unfold step at h
  split at h
  · cases h
  · cases h
  · rename_i a f stage
    exact .inl ⟨a, f, stage⟩
  · rename_i timer stage
    exact .inr ⟨timer, stage⟩
  · cases h

end Step

end Delivery

end OutboxRelay
