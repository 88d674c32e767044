import OutboxRelay.Proofs.Dispatch.Acceptance

/-! The way of a batch, which can be followed move by move, and of an event that is dispatched alone.
Where nothing else is in flight, the clock goes on to the next timer of the one delivery, so its
whole way to the store can be followed step by step. -/

namespace OutboxRelay

variable {σ : Type} [Outbox σ]

namespace Delivery

def nextDue (d : Delivery) : Option Instant := ((d.timers.map (·.due.nanos)).min?).map Instant.mk

/-- The outcome of a delivery that has the dispatcher to itself, if it takes no more steps. -/
def alone (relay : Relay) : Nat → RelayState σ → Delivery → Option (RelayState σ × Outcome)
  | 0, _, _ => none
  | steps + 1, s, d =>
    match d.step relay s with
    | .next s' d' => alone relay steps s' d'
    | .waits => d.nextDue.bind fun due => alone relay steps { s with now := s.now.max due } d
    | .settled s' outcome => some (s', outcome)

end Delivery

namespace Batch

variable {relay : Relay} {s s' : RelayState σ} {d d' : Delivery} {b : Batch} {outcome : Outcome}

theorem drain_of_step {x : RelayState σ × Batch} (h : b.step relay s = some x) :
    b.drain relay s = x.2.drain relay x.1 := by
  rw [drain]
  split
  · rename_i step
    cases h.symm.trans step
    rfl
  · rename_i step
    cases h.symm.trans step

theorem drain_of_rest (h : b.step relay s = none) : b.drain relay s = (s, b) := by
  rw [drain]
  split
  · rename_i step
    cases h.symm.trans step
  · rfl

theorem runTo_of_drain {b b' : Batch} (h : b.drain relay s = b'.drain relay s') :
    b.runTo relay none s = b'.runTo relay none s' := by
  unfold runTo
  congr 1 <;> rw [h]

theorem follow_of_none {limit : Option Instant} {rest : b.ready = []} (h : b.nextDue = none) :
    follow relay limit s b rest = (s, b) := by
  fun_cases follow relay limit s b rest
  · rfl
  · rename_i next _
    cases h.symm.trans next
  · rfl

theorem follow_of_some {due : Instant} {rest : b.ready = []} (h : b.nextDue = some due) :
    follow relay none s b rest =
      follow relay none (b.advance relay s due).1 (b.advance relay s due).2 (ready_drain ..) := by
  fun_cases follow relay none s b rest
  · rename_i next
    cases h.symm.trans next
  · rename_i next _
    cases h.symm.trans next
    rfl
  · rename_i after
    cases after rfl

theorem runTo_of_asleep {b' : Batch} {limit : Option Instant} (h : b.drain relay s = (s', b'))
    (rest : b'.ready = []) : b.runTo relay limit s = follow relay limit s' b' rest := by
  unfold runTo
  congr 1 <;> rw [h]

/-! ### Move by move -/

theorem step_of_full (full : Full relay b) :
    b.step relay s = b.ready.head?.map fun d => runFirst relay s b d b.ready.tail := by
  unfold step
  split
  · rename_i waiting
    rcases full with none | full
    · cases none.symm.trans waiting
    · exact if_neg (Nat.not_lt.2 full)
  · rfl

theorem drain_of_first {rest : List Delivery} (full : Full relay b) (first : b.ready = d :: rest) :
    b.drain relay s =
      (runFirst relay s b d rest).2.drain relay (runFirst relay s b d rest).1 := by
  refine drain_of_step ?_
  rw [step_of_full full, first]
  rfl

theorem runTo_of_takeUp {e : Event} {others : List Event} (first : b.pending = e :: others)
    (room : b.inFlight < relay.plan.width) :
    b.runTo relay none s = runTo relay none (Delivery.start s e).1
      { b with pending := others, ready := b.ready ++ [(Delivery.start s e).2] } := by
  have taken : b.step relay s = some ((Delivery.start s e).1,
      { b with pending := others, ready := b.ready ++ [(Delivery.start s e).2] }) := by
    unfold step
    rw [first]
    exact if_pos room
  exact runTo_of_drain (drain_of_step taken)

theorem runTo_of_next {rest : List Delivery} (full : Full relay b) (first : b.ready = d :: rest)
    (next : d.step relay s = .next s' d') :
    b.runTo relay none s = runTo relay none s' { b with ready := d' :: rest } := by
  have still : Full relay { b with ready := d' :: rest } := by
    unfold Full inFlight at full ⊢
    rwa [first] at full
  refine runTo_of_drain ?_
  rw [drain_of_first full first, drain_of_first still rfl, runFirst, runFirst, Delivery.run, next]

theorem runTo_of_waits {rest : List Delivery} (full : Full relay b) (first : b.ready = d :: rest)
    (waits : d.step relay s = .waits) : b.runTo relay none s =
      runTo relay none s { b with ready := rest, asleep := b.asleep ++ [d] } := by
  refine runTo_of_drain ?_
  rw [drain_of_first full first, runFirst, Delivery.run, waits]

theorem runTo_of_settled {rest : List Delivery} (full : Full relay b) (first : b.ready = d :: rest)
    (settled : d.step relay s = .settled s' outcome) : b.runTo relay none s =
      runTo relay none (s'.note (outcomeJournal outcome))
        { b with ready := rest, outcomes := b.outcomes ++ [outcome] } := by
  refine runTo_of_drain ?_
  rw [drain_of_first full first, runFirst, Delivery.run, settled]

theorem step_of_idle (full : Full relay b) (idle : b.ready = []) : b.step relay s = none := by
  rw [step_of_full full, idle]
  rfl

theorem runTo_of_wake (full : Full relay b) (idle : b.ready = []) {due : Instant}
    (next : b.nextDue = some due) : b.runTo relay none s =
      (b.wake (s.now.max due)).runTo relay none { s with now := s.now.max due } := by
  rw [runTo_of_asleep (drain_of_rest (step_of_idle full idle)) idle, follow_of_some next]
  rfl

theorem runTo_of_rest (full : Full relay b) (idle : b.ready = []) (none : b.nextDue = none) :
    b.runTo relay Option.none s = (s, b) := by
  rw [runTo_of_asleep (drain_of_rest (step_of_idle full idle)) idle, follow_of_none none]

def firstMove (relay : Relay) (s : RelayState σ) (b : Batch) : Option (RelayState σ × Batch) :=
  match b.ready with
  | d :: rest =>
    match d.step relay s with
    | .next s' d' => some (s', { b with ready := d' :: rest })
    | .waits => some (s, { b with ready := rest, asleep := b.asleep ++ [d] })
    | .settled s' outcome => some (s'.note (outcomeJournal outcome),
        { b with ready := rest, outcomes := b.outcomes ++ [outcome] })
  | [] => b.nextDue.map fun due => ({ s with now := s.now.max due }, b.wake (s.now.max due))

def nextMove (relay : Relay) (s : RelayState σ) (b : Batch) : Option (RelayState σ × Batch) :=
  match b.pending with
  | e :: others =>
    if b.inFlight < relay.plan.width then
      some ((Delivery.start s e).1,
        { b with pending := others, ready := b.ready ++ [(Delivery.start s e).2] })
    else firstMove relay s b
  | [] => firstMove relay s b

/-- Where a batch comes to, if it makes no more moves. -/
def walk (relay : Relay) : Nat → RelayState σ × Batch → Option (RelayState σ × Batch)
  | 0, _ => none
  | moves + 1, x =>
    match nextMove relay x.1 x.2 with
    | some y => walk relay moves y
    | none => some x

theorem runTo_of_firstMove (full : Full relay b) : b.runTo relay none s =
    (firstMove relay s b).elim (s, b) fun y => y.2.runTo relay none y.1 := by
  unfold firstMove
  split
  · rename_i d rest first
    split
    · exact runTo_of_next full first ‹_›
    · exact runTo_of_waits full first ‹_›
    · exact runTo_of_settled full first ‹_›
  · rename_i idle
    cases next : b.nextDue with
    | none => exact runTo_of_rest full idle next
    | some due => exact runTo_of_wake full idle next

theorem runTo_of_nextMove (relay : Relay) (s : RelayState σ) (b : Batch) : b.runTo relay none s =
    (nextMove relay s b).elim (s, b) fun y => y.2.runTo relay none y.1 := by
  unfold nextMove
  split
  · rename_i e others first
    split
    · rename_i room
      exact runTo_of_takeUp first room
    · rename_i room
      exact runTo_of_firstMove (.inr (Nat.le_of_not_lt room))
  · rename_i none
    exact runTo_of_firstMove (.inl none)

theorem runTo_of_walk {moves : Nat} {x y : RelayState σ × Batch} (h : walk relay moves x = some y) :
    x.2.runTo relay none x.1 = y := by
  induction moves generalizing x with
  | zero => cases h
  | succ moves ih =>
    have next := runTo_of_nextMove relay x.1 x.2
    unfold walk at h
    generalize nextMove relay x.1 x.2 = move at h next
    cases move with
    | some z => exact next.trans (ih h)
    | none =>
      cases h
      exact next

def single (ready asleep : List Delivery) (outcomes : List Outcome) : Batch :=
  ⟨1, [], ready, asleep, outcomes⟩

theorem nextDue_single (d : Delivery) : (single [] [d] []).nextDue = d.nextDue := by
  simp [nextDue, timers, single, Delivery.nextDue]

theorem wake_single {due now : Instant} (h : d.nextDue = some due) (le : due.nanos ≤ now.nanos) :
    (single [] [d] []).wake now = single [d] [] [] := by
  have fires : d.isDue now := by
    obtain ⟨x, hx⟩ := List.exists_mem_of_ne_nil _ (woken_ne_nil ((nextDue_single d).trans h) le)
    obtain ⟨mem, due⟩ := List.mem_filter.1 ((List.mergeSort_perm _ _).mem_iff.1 hx)
    cases List.mem_singleton.1 mem
    exact due
  simp [wake, woken, single, fires, List.mergeSort_singleton]

theorem runTo_single_of_alone {steps : Nat} (h : d.alone relay steps s = some (s', outcome)) :
    (single [d] [] []).runTo relay none s =
      (s'.note (outcomeJournal outcome), single [] [] [outcome]) := by
  have full (ready asleep : List Delivery) (outcomes : List Outcome) :
      Full relay (single ready asleep outcomes) := .inl rfl
  induction steps generalizing s d with
  | zero => cases h
  | succ steps ih =>
    unfold Delivery.alone at h
    split at h
    · rename_i next
      rw [runTo_of_next (full ..) rfl next]
      exact ih h
    · rename_i waits
      obtain ⟨due, next, h⟩ := Option.bind_eq_some_iff.1 h
      have later : due.nanos ≤ (s.now.max due).nanos := by
        rw [Instant.max_nanos]
        exact Nat.le_max_right _ _
      rw [runTo_of_waits (full ..) rfl waits]
      change (single [] [d] []).runTo relay none s = _
      rw [runTo_of_wake (full ..) rfl ((nextDue_single d).trans next), wake_single next later]
      exact ih h
    · rename_i settled
      cases h
      rw [runTo_of_settled (full ..) rfl settled]
      exact runTo_of_rest (full ..) rfl rfl

theorem runTo_of_alone {steps : Nat} {e : Event}
    (h : (Delivery.start s e).2.alone relay steps (Delivery.start s e).1 = some (s', outcome)) :
    (ofEvents [e]).runTo relay none s =
      (s'.note (outcomeJournal outcome), single [] [] [outcome]) := by
  have room : 0 < relay.plan.width := Nat.le_max_right ..
  rw [← runTo_single_of_alone h]
  exact runTo_of_takeUp rfl room

def wholeWay (relay : Relay) (steps : Nat) (s : RelayState σ) (e : Event) : Option (RelayState σ) :=
  ((Delivery.start s e).2.alone relay steps (Delivery.start s e).1).map fun x =>
    x.1.note (outcomeJournal x.2)

theorem eq_dispatched_of_wholeWay {steps : Nat} {e : Event}
    (h : wholeWay relay steps s e = some s') : s' = dispatched relay s [e] := by
  obtain ⟨x, alone, rfl⟩ := Option.map_eq_some_iff.1 h
  exact congrArg Prod.fst (runTo_of_alone alone).symm

def freshState : RelayState (Ledger MemoryStore) := .initial ⟨MemoryStore.empty, []⟩

end Batch

end OutboxRelay
