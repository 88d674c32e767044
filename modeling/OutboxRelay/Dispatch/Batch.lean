import OutboxRelay.Dispatch.Delivery.Progress

/-! The claimed events of a cycle, of which a limited number are in flight. Events are taken up in
the order of their ids as soon as there is room. Deliveries that can go on stand in a queue; each
runs until it waits or is settled, and the timers that fire put deliveries back into the queue, in
the order in which they were set. `work` falls whenever a delivery goes on, so a batch that is left
to its timers comes to its end. -/

namespace OutboxRelay

structure Batch where
  claimed : Nat
  pending : List Event
  /-- Deliveries that can go on, first come, first served. -/
  ready : List Delivery
  asleep : List Delivery
  outcomes : List Outcome

namespace Batch

variable {σ : Type}

def ofEvents (events : List Event) : Batch := ⟨events.length, events, [], [], []⟩

def inFlight (b : Batch) : Nat := b.ready.length + b.asleep.length

def isOver (b : Batch) : Bool := b.pending.isEmpty && b.ready.isEmpty && b.asleep.isEmpty

def unsettledEntry (event : Int) (e : StoreError) : JournalEntry :=
  ⟨.error, "outbox event could not be settled",
    [("event_id", toString event), ("error", e.message)]⟩

def outcomeJournal (o : Outcome) : Journal :=
  match o.result with
  | .ok _ => []
  | .error e => [unsettledEntry o.event e]

def runFirst [Outbox σ] (relay : Relay) (s : RelayState σ) (b : Batch) (d : Delivery)
    (rest : List Delivery) : RelayState σ × Batch :=
  match d.run relay s with
  | (s, .inl d) => (s, { b with ready := rest, asleep := b.asleep ++ [d] })
  | (s, .inr outcome) =>
    (s.note (outcomeJournal outcome), { b with ready := rest, outcomes := b.outcomes ++ [outcome] })

/-- Take up the next event where there is room, else let the first delivery of the queue go on.
`none`: every delivery waits, or there is none. -/
def step [Outbox σ] (relay : Relay) (s : RelayState σ) (b : Batch) :
    Option (RelayState σ × Batch) :=
  match b.pending with
  | event :: pending =>
    if b.inFlight < relay.plan.width then
      let (s, d) := Delivery.start s event
      some (s, { b with pending := pending, ready := b.ready ++ [d] })
    else b.ready.head?.map fun d => runFirst relay s b d b.ready.tail
  | [] => b.ready.head?.map fun d => runFirst relay s b d b.ready.tail

def freshWork (relay : Relay) : Nat :=
  Delivery.laterSteps relay 1 + 3 * relay.targets.length + 5

def deliveryWork (relay : Relay) : List Delivery → Nat
  | [] => 0
  | d :: ds => d.rank relay + 1 + deliveryWork relay ds

def work (relay : Relay) (b : Batch) : Nat :=
  b.pending.length * freshWork relay + deliveryWork relay b.ready + deliveryWork relay b.asleep

theorem deliveryWork_append (relay : Relay) (xs ys : List Delivery) :
    deliveryWork relay (xs ++ ys) = deliveryWork relay xs + deliveryWork relay ys := by
  induction xs with
  | nil => simp [deliveryWork]
  | cons d ds ih => simp only [List.cons_append, deliveryWork, ih]; omega

theorem deliveryWork_cons (relay : Relay) (d : Delivery) (ds : List Delivery) :
    deliveryWork relay (d :: ds) = d.rank relay + 1 + deliveryWork relay ds := rfl

theorem deliveryWork_perm (relay : Relay) {xs ys : List Delivery} (h : xs.Perm ys) :
    deliveryWork relay xs = deliveryWork relay ys := by
  induction h with
  | nil => rfl
  | cons d _ ih => simp only [deliveryWork, ih]
  | swap a b ds => simp only [deliveryWork]; omega
  | trans _ _ ih₁ ih₂ => exact ih₁.trans ih₂

/-- The order of steps: less work, or as much work and a shorter queue. -/
def measure (relay : Relay) (b : Batch) : Nat × Nat := (b.work relay, b.ready.length)

theorem runFirst_measure [Outbox σ] {relay : Relay} {s : RelayState σ} {b : Batch}
    {d : Delivery} {rest : List Delivery} (h : b.ready = d :: rest) :
    (runFirst relay s b d rest).2.work relay ≤ b.work relay ∧
      (runFirst relay s b d rest).2.ready.length < b.ready.length ∧
      (d.isDue s.now → (runFirst relay s b d rest).2.work relay < b.work relay) := by
  unfold runFirst
  split
  · next d' hr =>
    have le := Delivery.rank_of_run hr
    refine ⟨?_, by simp [h], fun due => ?_⟩
    · simp only [work, h, deliveryWork_append, deliveryWork_cons]
      simp only [deliveryWork]
      omega
    · have lt := Delivery.rank_of_run_of_isDue due hr
      simp only [work, h, deliveryWork_append, deliveryWork_cons]
      simp only [deliveryWork]
      omega
  · refine ⟨?_, by simp [h], fun _ => ?_⟩ <;> simp only [work, h, deliveryWork_cons] <;> omega

theorem takeUp_work {relay : Relay} {s : RelayState σ} {b : Batch} {event : Event}
    {pending : List Event} (h : b.pending = event :: pending) :
    work relay { b with pending := pending, ready := b.ready ++ [(Delivery.start s event).2] } <
      b.work relay := by
  simp only [work, h, deliveryWork_append, deliveryWork_cons, List.length_cons, Nat.succ_mul]
  simp only [deliveryWork, Delivery.start, Delivery.rank, freshWork]
  omega

theorem step_measure [Outbox σ] {relay : Relay} {s s' : RelayState σ} {b b' : Batch}
    (h : b.step relay s = some (s', b')) :
    (b'.work relay < b.work relay ∨
      b'.work relay ≤ b.work relay ∧ b'.ready.length < b.ready.length) ∧
    ((∀ d ∈ b.ready.head?, d.isDue s.now) → b'.work relay < b.work relay) := by
  have first (h : b.ready.head?.map (fun d => runFirst relay s b d b.ready.tail) = some (s', b')) :
      (b'.work relay < b.work relay ∨
        b'.work relay ≤ b.work relay ∧ b'.ready.length < b.ready.length) ∧
      ((∀ d ∈ b.ready.head?, d.isDue s.now) → b'.work relay < b.work relay) := by
    obtain ⟨d, hd, heq⟩ := Option.map_eq_some_iff.1 h
    obtain ⟨rest, hready⟩ : ∃ rest, b.ready = d :: rest := by
      cases hr : b.ready with
      | nil => simp [hr] at hd
      | cons x xs => simp [hr] at hd; exact ⟨xs, by rw [hd]⟩
    have m := @runFirst_measure _ _ relay s b d rest hready
    rw [hready, List.tail_cons] at heq
    rw [heq] at m
    exact ⟨.inr ⟨m.1, m.2.1⟩, fun due => m.2.2 (due d hd)⟩
  unfold step at h
  split at h
  · next hp =>
    split at h
    · cases h
      exact ⟨.inl (takeUp_work hp), fun _ => takeUp_work hp⟩
    · exact first h
  · exact first h

def drain [Outbox σ] (relay : Relay) (s : RelayState σ) (b : Batch) : RelayState σ × Batch :=
  match _h : b.step relay s with
  | some (s', b') => drain relay s' b'
  | none => (s, b)
termination_by (b.work relay, b.ready.length)
decreasing_by
  rcases (step_measure (by assumption)).1 with lt | ⟨le, lt⟩
  · exact .left _ _ lt
  · rcases Nat.lt_or_eq_of_le le with l | e
    · exact .left _ _ l
    · rw [e]; exact .right _ lt

theorem work_drain_le [Outbox σ] (relay : Relay) (s : RelayState σ) (b : Batch) :
    (b.drain relay s).2.work relay ≤ b.work relay := by
  fun_induction drain relay s b with
  | case1 s b s' b' h ih =>
    have := (step_measure h).1
    omega
  | case2 => exact Nat.le_refl _

theorem step_drain [Outbox σ] (relay : Relay) (s : RelayState σ) (b : Batch) :
    (b.drain relay s).2.step relay (b.drain relay s).1 = none := by
  fun_induction drain relay s b with
  | case1 s b s' b' h ih => exact ih
  | case2 s b h => exact h

theorem ready_eq_nil_of_step [Outbox σ] {relay : Relay} {s : RelayState σ} {b : Batch}
    (h : b.step relay s = none) : b.ready = [] := by
  unfold step at h
  split at h <;> (try split at h) <;> simp_all

theorem ready_drain [Outbox σ] (relay : Relay) (s : RelayState σ) (b : Batch) :
    (b.drain relay s).2.ready = [] := ready_eq_nil_of_step (step_drain relay s b)

def timers (b : Batch) : List Timer := b.asleep.flatMap Delivery.timers

def nextDue (b : Batch) : Option Instant := ((b.timers.map (·.due.nanos)).min?).map Instant.mk

def firstOrder (now : Instant) (d : Delivery) : Nat :=
  (((d.timers.filter (·.isDue now)).map (·.order)).min?).getD 0

def woken (now : Instant) (b : Batch) : List Delivery :=
  (b.asleep.filter (·.isDue now)).mergeSort fun x y => firstOrder now x ≤ firstOrder now y

def wake (now : Instant) (b : Batch) : Batch :=
  { b with
    ready := b.ready ++ b.woken now
    asleep := b.asleep.filter fun d => !d.isDue now }

theorem work_wake (relay : Relay) (now : Instant) (b : Batch) :
    (b.wake now).work relay = b.work relay := by
  have sorted : deliveryWork relay (b.woken now) =
      deliveryWork relay (b.asleep.filter (·.isDue now)) :=
    deliveryWork_perm relay (List.mergeSort_perm _ _)
  have parts : deliveryWork relay (b.asleep.filter (·.isDue now)) +
      deliveryWork relay (b.asleep.filter fun d => !d.isDue now) = deliveryWork relay b.asleep := by
    induction b.asleep with
    | nil => rfl
    | cons d ds ih =>
      cases h : d.isDue now <;> simp [h, deliveryWork_cons] <;> omega
  simp only [work, wake, deliveryWork_append, sorted]
  omega

theorem isDue_of_mem_woken {now : Instant} {b : Batch} {d : Delivery} (h : d ∈ b.woken now) :
    d.isDue now := by
  have := (List.mergeSort_perm _ _).mem_iff.1 h
  exact (List.mem_filter.1 this).2

theorem woken_ne_nil {b : Batch} {due now : Instant} (h : b.nextDue = some due)
    (le : due.nanos ≤ now.nanos) : b.woken now ≠ [] := by
  obtain ⟨nanos, hmin, rfl⟩ := Option.map_eq_some_iff.1 h
  obtain ⟨t, ht, rfl⟩ := List.mem_map.1 (List.min?_mem hmin)
  obtain ⟨d, hd, htd⟩ := List.mem_flatMap.1 ht
  have hdue : d.isDue now :=
    List.any_eq_true.2 ⟨t, htd, by simpa [Timer.isDue, Instant.le] using le⟩
  have : d ∈ b.woken now :=
    (List.mergeSort_perm _ _).mem_iff.2 (List.mem_filter.2 ⟨hd, hdue⟩)
  exact List.ne_nil_of_mem this

def advance [Outbox σ] (relay : Relay) (s : RelayState σ) (b : Batch) (due : Instant) :
    RelayState σ × Batch :=
  (b.wake (s.now.max due)).drain relay { s with now := s.now.max due }

theorem work_advance_lt [Outbox σ] (relay : Relay) (s : RelayState σ) {b : Batch}
    {due : Instant} (rest : b.ready = []) (h : b.nextDue = some due) :
    (b.advance relay s due).2.work relay < b.work relay := by
  unfold advance
  have woken : b.woken (s.now.max due) ≠ [] := woken_ne_nil h
    (by rw [Instant.max_nanos]; exact Nat.le_max_right _ _)
  have ready : (b.wake (s.now.max due)).ready = b.woken (s.now.max due) := by simp [wake, rest]
  rw [drain]
  split
  · next s' b' hs =>
    have lt := (step_measure hs).2 fun d hd => by
      rw [ready] at hd
      exact isDue_of_mem_woken (List.mem_of_mem_head? hd)
    rw [work_wake] at lt
    exact Nat.lt_of_le_of_lt (work_drain_le relay s' b') lt
  · next hs =>
    exact absurd (ready ▸ ready_eq_nil_of_step hs) woken

/-- Follow the timers of a batch at rest, up to the limit if there is one. -/
def follow [Outbox σ] (relay : Relay) (limit : Option Instant) (s : RelayState σ) (b : Batch)
    (_rest : b.ready = []) : RelayState σ × Batch :=
  match _h : b.nextDue with
  | none => (s, b)
  | some due =>
    if limit.all due.le then
      follow relay limit (b.advance relay s due).1 (b.advance relay s due).2 (ready_drain ..)
    else (s, b)
termination_by b.work relay
decreasing_by exact work_advance_lt relay s _rest (by assumption)

def runTo [Outbox σ] (relay : Relay) (limit : Option Instant) (s : RelayState σ) (b : Batch) :
    RelayState σ × Batch :=
  follow relay limit (b.drain relay s).1 (b.drain relay s).2 (ready_drain relay s b)

end Batch

end OutboxRelay
