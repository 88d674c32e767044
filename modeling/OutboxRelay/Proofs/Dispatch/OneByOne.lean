import OutboxRelay.Proofs.Dispatch.Accounts
import OutboxRelay.Proofs.Dispatch.Errands

/-! Batches and cycles of a dispatcher that takes up one event at a time. At every moment there are
the errands that are done and at most one delivery in hand; a cycle adds its errands to those of the
cycles before it. -/

namespace OutboxRelay

structure AtRest {σ : Type} (relay : Relay) (s : RelayState σ) (rounds : List Round) : Prop where
  attempts : s.attempts = Round.records rounds
  calls : s.calls = Round.letters rounds
  ended : ∀ r ∈ s.attempts, r.finish.nanos ≤ s.now.nanos
  driven : Breaker.Driven relay.breaker s.attempts s.breaker

/-- What is under way after these rounds: one delivery, or none. -/
inductive Hand {σ : Type} (relay : Relay) (s : RelayState σ) (past : List Round) :
    List Delivery → Prop
  | empty (rest : AtRest relay s past) : Hand relay s past []
  | holding {own : List Round} {sent : List Call} {d : Delivery}
      (inHand : d.InHand relay s past own sent) : Hand relay s past [d]

section Hand

variable {σ : Type} {relay : Relay} {s s' : RelayState σ} {past own : List Round} {sent : List Call}
  {d : Delivery} {ds others : List Delivery}

theorem Hand.perm (h : Hand relay s past ds) (perm : others.Perm ds) :
    Hand relay s past others := by
  cases h with
  | empty rest =>
    rw [perm.eq_nil]
    exact .empty rest
  | holding inHand =>
    rw [perm.eq_singleton]
    exact .holding inHand

theorem Hand.head (h : Hand relay s past (d :: others)) :
    others = [] ∧ ∃ own sent, d.InHand relay s past own sent := by
  cases h with
  | holding inHand => exact ⟨rfl, _, _, inHand⟩

theorem AtRest.congr {τ : Type} {s' : RelayState τ} (h : AtRest relay s past)
    (attempts : s'.attempts = s.attempts) (calls : s'.calls = s.calls)
    (breaker : s'.breaker = s.breaker) (later : s.now.nanos ≤ s'.now.nanos) :
    AtRest relay s' past := by
  refine ⟨attempts.trans h.attempts, calls.trans h.calls, fun r hr => ?_, ?_⟩
  · rw [attempts] at hr
    exact Nat.le_trans (h.ended r hr) later
  · rw [attempts, breaker]
    exact h.driven

theorem inHand_start (h : AtRest relay s past) (event : Event) :
    (Delivery.start s event).2.InHand relay (Delivery.start s event).1 past [] [] := by
  constructor
  · rw [List.append_nil]
    exact h.attempts
  · rw [List.append_nil, List.append_nil]
    exact h.calls
  · exact h.ended
  · exact nofun
  · exact nofun
  · exact ⟨rfl, h.driven⟩

theorem inHand_wait {later : Instant} (h : d.InHand relay s past own sent)
    (waits : d.timers ≠ []) (le : s.now.nanos ≤ later.nanos) :
    d.InHand relay { s with now := later } past own sent := by
  refine ⟨h.attempts, h.calls, fun r hr => Nat.le_trans (h.ended r hr) le, h.sound, h.retries, ?_⟩
  have known := h.stage
  cases stage : d.stage with
  | beginning => simp [Delivery.timers, stage] at waits
  | sending a => simp [Delivery.timers, stage] at waits
  | settling result => simp [Delivery.timers, stage] at waits
  | pausing timer =>
    simp only [Delivery.StageDriven, stage] at known ⊢
    exact known
  | awaiting a f =>
    simp only [Delivery.StageDriven, stage] at known ⊢
    obtain ⟨last, out, underway⟩ := known
    refine ⟨last, out, underway.admitted, underway.since, Nat.le_trans underway.begun le, ?_⟩
    intro c hc
    obtain ⟨event, attempt, begun, past⟩ := underway.letters c hc
    exact ⟨event, attempt, begun, Nat.le_trans past le⟩

theorem sound_of_inHand {result : Except PublishError Unit} (h : d.InHand relay s past own sent)
    (stage : d.stage = .settling result) {reply : Except StoreError Unit} {outcome : Outcome}
    (made : outcome = ⟨d.event.id, d.started, s.now, reply.map fun _ => .ofResult result⟩) :
    Errand.Sound relay ⟨own, outcome, .ofResult d.event.id result⟩ := by
  have exhausted := h.retries
  simp only [Delivery.Retries, stage] at exhausted
  obtain ⟨_, _, last, final, same, finish⟩ := h.last stage
  subst made same
  refine ⟨h.sound, exhausted, last, final, finish.symm, rfl, fun mark told => ?_⟩
  cases reply with
  | ok value =>
    cases told
    rfl
  | error e => cases told

theorem atRest_of_inHand {result : Except PublishError Unit} (h : d.InHand relay s past own sent)
    (stage : d.stage = .settling result) : AtRest relay s (past ++ own) := by
  obtain ⟨rfl, driven, _⟩ := h.last stage
  exact ⟨h.attempts, h.calls.trans (List.append_nil _), h.ended, driven⟩

end Hand

/-! ### A batch -/

namespace Batch

variable {σ : Type} [Outbox σ] {relay : Relay} {before done : List Errand}
  {s s' : RelayState (TrialStore σ)} {b : Batch} {d : Delivery} {rest : List Delivery}

structure OneByOne (relay : Relay) (before done : List Errand)
    (x : RelayState (TrialStore σ) × Batch) : Prop where
  outcomes : x.2.outcomes = done.map (·.outcome)
  marks : x.1.store.marks = (before ++ done).map (·.mark)
  sound : ∀ e ∈ before ++ done, e.Sound relay
  hand : Hand relay x.1 (Errand.allRounds (before ++ done)) x.2.deliveries

omit [Outbox σ] in
theorem oneByOne_takeUp (narrow : relay.plan.width = 1) (h : OneByOne relay before done (s, b))
    {event : Event} {pending : List Event} (room : b.inFlight < relay.plan.width) :
    OneByOne relay before done ((Delivery.start s event).1,
      { b with pending := pending, ready := b.ready ++ [(Delivery.start s event).2] }) := by
  -- room for one means that nothing is in flight
  have free : b.deliveries = [] := by
    rw [narrow] at room
    refine List.eq_nil_of_length_eq_zero ?_
    rw [deliveries, List.length_append]
    unfold inFlight at room
    omega
  have hand := h.hand
  rw [free] at hand
  refine ⟨h.outcomes, h.marks, h.sound, ?_⟩
  cases hand with
  | empty rest =>
    have one := (deliveries_takeUp b pending (Delivery.start s event).2)
    rw [free] at one
    exact (Hand.holding (inHand_start rest event)).perm one

omit [Outbox σ] in
theorem OneByOne.first (h : OneByOne relay before done (s, b)) (first : b.ready = d :: rest) :
    ({ b with ready := rest } : Batch).deliveries = [] ∧
      ∃ own sent, d.InHand relay s (Errand.allRounds (before ++ done)) own sent := by
  have hand := h.hand
  rw [deliveries_of_ready first] at hand
  exact hand.head

theorem oneByOne_goOn (h : OneByOne relay before done (s, b)) (first : b.ready = d :: rest)
    {d' : Delivery} (next : d.step relay s = .next s' d') :
    OneByOne relay before done (s', { b with ready := d' :: rest }) := by
  have step := Delivery.next_of_step next
  obtain ⟨alone, own, sent, inHand⟩ := h.first first
  obtain ⟨own', sent', inHand'⟩ := Delivery.inHand_of_next step inHand
  refine ⟨h.outcomes, ?_, h.sound, ?_⟩
  · rw [Delivery.store_of_next step]
    exact h.marks
  · rw [deliveries_of_ready (b := { b with ready := d' :: rest }) rfl]
    dsimp only
    rw [alone]
    exact .holding inHand'

theorem oneByOne_settle (h : OneByOne relay before done (s, b)) (first : b.ready = d :: rest)
    {outcome : Outcome} (settled : d.step relay s = .settled s' outcome) :
    ∃ done', OneByOne relay before done' (s'.note (outcomeJournal outcome),
      { b with ready := rest, outcomes := b.outcomes ++ [outcome] }) := by
  obtain ⟨alone, own, sent, inHand⟩ := h.first first
  obtain ⟨result, stage, settle⟩ := Delivery.settling_of_step settled
  obtain ⟨⟨clock, journal, rfl⟩, made⟩ := Delivery.settle_spec settle
  have sound := sound_of_inHand inHand stage made
  refine ⟨done ++ [⟨own, outcome, .ofResult d.event.id result⟩], ?_, ?_, ?_, ?_⟩
  · rw [List.map_append, ← h.outcomes]
    rfl
  · rw [← List.append_assoc, List.map_append, ← h.marks]
    exact TrialStore.marks_settleReply s d result
  · rw [← List.append_assoc]
    exact List.forall_mem_append.2 ⟨h.sound, List.forall_mem_singleton.2 sound⟩
  · rw [← List.append_assoc, Errand.allRounds_concat]
    have none : ({ b with ready := rest, outcomes := b.outcomes ++ [outcome] } : Batch).deliveries =
        [] := alone
    rw [none]
    exact .empty ((atRest_of_inHand inHand stage).congr rfl rfl rfl (Nat.le_refl _))

theorem oneByOne_wake {due : Instant} (timely : Timely relay (s, b))
    (h : OneByOne relay before done (s, b)) (stopped : b.step relay s = none) :
    OneByOne relay before done ({ s with now := s.now.max due }, b.wake (s.now.max due)) := by
  have le : s.now.nanos ≤ (s.now.max due).nanos := by
    rw [Instant.max_nanos]
    exact Nat.le_max_left _ _
  refine ⟨h.outcomes, h.marks, h.sound, Hand.perm ?_ (deliveries_wake _ b)⟩
  have asleep : b.deliveries = b.asleep := by
    rw [deliveries, ready_eq_nil_of_step stopped, List.nil_append]
  have hand := h.hand
  have resting := timely.asleep
  dsimp only at hand resting
  rw [asleep] at hand ⊢
  generalize b.asleep = ds at hand resting
  -- what sleeps has a timer, so it is not about to be settled and may wait
  cases hand with
  | empty rest => exact .empty (rest.congr rfl rfl rfl le)
  | holding inHand =>
    exact .holding (inHand_wait inHand (resting _ List.mem_cons_self).timers le)

theorem oneByOne_of_move (narrow : relay.plan.width = 1) {x y : RelayState (TrialStore σ) × Batch}
    (move : Move relay x y) (timely : Timely relay x) (h : OneByOne relay before done x) :
    ∃ done', OneByOne relay before done' y := by
  cases move with
  | takeUp first room => exact ⟨done, oneByOne_takeUp narrow h room⟩
  | goOn first next => exact ⟨done, oneByOne_goOn h first next⟩
  | sleep first waits =>
    exact ⟨done, h.outcomes, h.marks, h.sound, h.hand.perm (deliveries_sleep first)⟩
  | settle first settled => exact oneByOne_settle h first settled
  | wake stopped next => exact ⟨done, oneByOne_wake timely h stopped⟩

end Batch

/-- The dispatcher has done these errands, and nothing else. -/
structure HasDone {σ : Type} (relay : Relay) (errands : List Errand)
    (s : RelayState (TrialStore σ)) : Prop where
  rest : AtRest relay s (Errand.allRounds errands)
  marks : s.store.marks = errands.map (·.mark)
  sound : ∀ e ∈ errands, e.Sound relay

section Runs

variable {σ : Type} [Outbox σ] {relay : Relay} {errands : List Errand}
  {s : RelayState (TrialStore σ)}

theorem hasDone_runTo (narrow : relay.plan.width = 1) (h : HasDone relay errands s)
    (events : List Event) : ∃ more,
      HasDone relay (errands ++ more) ((Batch.ofEvents events).runTo relay none s).1 ∧
      ((Batch.ofEvents events).runTo relay none s).2.outcomes = more.map (·.outcome) := by
  have begun : Batch.OneByOne relay errands [] (s, .ofEvents events) := by
    refine ⟨rfl, ?_, ?_, ?_⟩
    · rw [List.append_nil]
      exact h.marks
    · rw [List.append_nil]
      exact h.sound
    · rw [List.append_nil]
      exact .empty h.rest
  obtain ⟨_, more, done⟩ := (Batch.moves_runTo relay none s (.ofEvents events)).keep
    (fun x => Batch.Timely relay x ∧ ∃ more, Batch.OneByOne relay errands more x)
    (fun _ _ move ⟨timely, _, done⟩ =>
      ⟨Batch.timely_of_move move timely, Batch.oneByOne_of_move narrow move timely done⟩)
    ⟨Batch.timely_ofEvents s events, [], begun⟩
  have finished := Batch.isOver_runTo relay s events
  simp only [Batch.isOver, Bool.and_eq_true, List.isEmpty_iff] at finished
  have hand := done.hand
  rw [Batch.deliveries, finished.1.2, finished.2] at hand
  cases hand with
  | empty rest => exact ⟨more, ⟨rest, done.marks, done.sound⟩, done.outcomes⟩

theorem marks_askClaim_trial (relay : Relay) (s : RelayState (TrialStore σ)) :
    (Cycle.askClaim relay s).2.store.marks = s.store.marks := by
  obtain ⟨journal, checked⟩ := Cycle.check_spec relay s
  unfold Cycle.askClaim
  rw [checked]
  refine (TrialStore.marks_pass ..).trans ((List.append_nil _).trans ?_)
  exact (TrialStore.marks_pass ..).trans (List.append_nil _)

theorem hasDone_askClaim (h : HasDone relay errands s) :
    HasDone relay errands (Cycle.askClaim relay s).2 := by
  refine ⟨?_, (marks_askClaim_trial relay s).trans h.marks, h.sound⟩
  obtain ⟨journal, checked⟩ := Cycle.check_spec relay s
  unfold Cycle.askClaim
  rw [checked]
  exact h.rest.congr rfl rfl rfl (Nat.le_refl _)

def Cycle.outcomes (relay : Relay) (s : RelayState (TrialStore σ)) : List Outcome :=
  match Cycle.claim relay (Cycle.check relay s) with
  | (_, .inr _) => []
  | (s, .inl batch) => (batch.runTo relay none s).2.outcomes

theorem Cycle.outcomes_eq (relay : Relay) (s : RelayState (TrialStore σ)) :
    Cycle.outcomes relay s = match Cycle.claimReply relay s with
      | .error _ | .ok [] => []
      | .ok (e :: rest) =>
        ((Batch.ofEvents (e :: rest)).runTo relay none (Cycle.askClaim relay s).2).2.outcomes := by
  unfold Cycle.outcomes Cycle.claim Cycle.claimReply Cycle.askClaim
  generalize (Cycle.check relay s).ask (fun store time =>
    Outbox.claimNew store time relay.plan.batchSize) = asked
  obtain ⟨reply, s'⟩ := asked
  cases reply with
  | error e => rfl
  | ok events => cases events <;> rfl

theorem hasDone_run (narrow : relay.plan.width = 1) (h : HasDone relay errands s) : ∃ more,
    HasDone relay (errands ++ more) (Cycle.run relay s).1 ∧
      Cycle.outcomes relay s = more.map (·.outcome) := by
  have asked := hasDone_askClaim h
  rw [Cycle.outcomes_eq]
  cases reply : Cycle.claimReply relay s with
  | error e =>
    rw [Cycle.run_of_error reply]
    exact ⟨[], by rwa [List.append_nil], rfl⟩
  | ok events =>
    cases events with
    | nil =>
      rw [Cycle.run_of_nil reply]
      exact ⟨[], by rwa [List.append_nil], rfl⟩
    | cons e rest =>
      rw [Cycle.run_of_cons reply]
      obtain ⟨more, done, outcomes⟩ := hasDone_runTo narrow asked (e :: rest)
      exact ⟨more, ⟨done.rest.congr rfl rfl rfl (Nat.le_refl _), done.marks, done.sound⟩, outcomes⟩

end Runs

end OutboxRelay
