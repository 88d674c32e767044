import OutboxRelay.Proofs.Dispatch.PollerTurns

/-! A poller that gets its turn again and again, at whatever times and however late, brings every
cycle that it is in to its end. A cycle checks, claims, and has a batch to deliver then; at each
turn that comes when a timer is past, less of the batch is left to do. Nothing that is said in the
meantime counts. -/

namespace OutboxRelay.Poller

variable {σ : Type} [Outbox σ]

def course (relay : Relay) (p : Poller σ) (actions : Nat → Action σ) : Nat → Poller σ
  | 0 => p
  | n + 1 => (course relay p actions n).act relay (actions n)

/-- Time goes on without end, and there is always another turn. -/
def Fair (relay : Relay) (p : Poller σ) (actions : Nat → Action σ) : Prop :=
  ∀ n (time : Instant), ∃ m, n ≤ m ∧ (∃ preference, actions m = .poll preference) ∧
    time.nanos ≤ (course relay p actions m).now.nanos

variable {relay : Relay} {p : Poller σ} {actions : Nat → Action σ}

theorem course_eq_run (n : Nat) :
    course relay p actions n = p.run relay ((List.range n).map actions) := by
  induction n with
  | zero => rfl
  | succ n ih =>
    rw [course, ih, List.range_succ, List.map_append]
    simp [run]

theorem fair_of_alternating (relay : Relay) (p : Poller σ) (preference : Preference) :
    Fair relay p fun n => if n % 2 = 0 then .wait ⟨n⟩ else .poll preference := by
  intro n time
  refine ⟨2 * (n + time.nanos) + 1, by omega, ⟨preference, if_neg (by omega)⟩, ?_⟩
  rw [course, if_pos (by omega)]
  have late := le_now_waitTo (course relay p
    (fun n => if n % 2 = 0 then .wait ⟨n⟩ else .poll preference) (2 * (n + time.nanos)))
    ⟨2 * (n + time.nanos)⟩
  exact Nat.le_trans (by dsimp only; omega) late

theorem Sound.course (h : p.Sound) (n : Nat) : (course relay p actions n).Sound := by
  rw [course_eq_run]
  exact h.run _

theorem holds_or_ends (holds ends : Poller σ → Prop) {n : Nat}
    (step : ∀ k, n ≤ k → holds (course relay p actions k) →
      holds (course relay p actions (k + 1)) ∨ ends (course relay p actions (k + 1)))
    (start : holds (course relay p actions n)) {m : Nat} (le : n ≤ m) :
    holds (course relay p actions m) ∨
      ∃ k, n < k ∧ k ≤ m ∧ ends (course relay p actions k) := by
  induction m, le using Nat.le_induction with
  | base => exact .inl start
  | succ m le ih =>
    rcases ih with here | ⟨k, after, before, ended⟩
    · rcases step m le here with next | ended
      · exact .inl next
      · exact .inr ⟨m + 1, by omega, Nat.le_refl _, ended⟩
    · exact .inr ⟨k, after, by omega, ended⟩

/-! ### The stages of a cycle -/

/-- How far a poller is with its cycle. -/
structure Within (p : Poller σ) (state : RelayState σ) (phase : Phase) : Prop where
  cycling : p.phase = .cycling
  session : p.session = .during state phase

section Stages

variable {state : RelayState σ} {phase : Phase}

theorem Within.other (h : p.Within state phase) {action : Action σ}
    (notTurn : ∀ preference, action ≠ .poll preference) :
    ∃ state' phase', (p.act relay action).Within state' phase' ∧
      (phase' = phase ∨ ∃ now, phase' = phase.wake now) := by
  cases action with
  | poll preference => exact absurd rfl (notTurn preference)
  | wait now =>
    exact ⟨_, _, ⟨h.cycling, session_waitTo_of_during h.session now⟩, .inr ⟨_, rfl⟩⟩
  | take occurrence =>
    cases occurrence with
    | feed event => exact ⟨_, phase, ⟨h.cycling, session_of_change h.session _⟩, .inl rfl⟩
    | say value => exact ⟨state, phase, ⟨h.cycling, h.session⟩, .inl rfl⟩
    | hangUp => exact ⟨state, phase, ⟨h.cycling, h.session⟩, .inl rfl⟩
  | elsewhere change => exact ⟨_, phase, ⟨h.cycling, session_of_change h.session _⟩, .inl rfl⟩

theorem Within.check (h : p.Within state .checking) (preference : Preference) :
    (p.poll relay preference).Within (Cycle.check relay state) .claiming := by
  rw [poll_cycling h.cycling, h.session, Session.resume_checking, lookUp_during rfl]
  exact ⟨h.cycling, rfl⟩

omit [Outbox σ] in
theorem phase_lookUp_after (p : Poller σ) (state : RelayState σ) (result : CycleResult) :
    ({ p with session := .after state result }.lookUp).phase ≠ .cycling := by
  rw [lookUp_after rfl, phase_endCycle]
  split <;> nofun

theorem Within.claim (h : p.Within state .claiming) (preference : Preference) :
    (p.poll relay preference).phase ≠ .cycling ∨
      ∃ state' batch, (p.poll relay preference).Within state' (.delivering batch) := by
  rw [poll_cycling h.cycling, h.session, Session.resume_claiming]
  split
  · rename_i state' batch _
    rw [lookUp_during rfl]
    exact .inr ⟨state', batch, h.cycling, rfl⟩
  · exact .inl (phase_lookUp_after p _ _)

theorem Within.deliver {batch : Batch} (h : p.Within state (.delivering batch))
    (preference : Preference) :
    (p.poll relay preference).phase ≠ .cycling ∨
      (batch.drain relay state).2.isOver = false ∧
        (p.poll relay preference).Within (batch.drain relay state).1
          (.delivering (batch.drain relay state).2) := by
  rw [poll_delivering h.cycling h.session]
  cases finished : (batch.drain relay state).2.isOver with
  | true =>
    rw [withBatch, Session.atBatch, finished, if_pos rfl]
    exact .inl (phase_lookUp_after p _ _)
  | false =>
    rw [withBatch_of_open finished]
    exact .inr ⟨rfl, h.cycling, rfl⟩

def Delivers (relay : Relay) (p : Poller σ) (left : Nat) : Prop :=
  ∃ state batch, p.Within state (.delivering batch) ∧ batch.work relay = left

def Nearer (relay : Relay) (p : Poller σ) (left : Nat) : Prop :=
  p.phase ≠ .cycling ∨ ∃ fewer < left, p.Delivers relay fewer

/-- There is a reason to go on by then. -/
def Awaits (relay : Relay) (time : Instant) (p : Poller σ) (left : Nat) : Prop :=
  ∃ state batch, p.Within state (.delivering batch) ∧ batch.work relay = left ∧
    batch.Hopeful time

theorem Within.turn {batch : Batch} (h : p.Within state (.delivering batch)) (sound : p.Sound)
    (preference : Preference) :
    (p.poll relay preference).Nearer relay (batch.work relay) ∨
      batch.step relay state = none ∧ batch.isOver = false ∧
        (p.poll relay preference).Within state (.delivering batch) := by
  rcases h.deliver preference with out | ⟨open_, within⟩
  · exact .inl (.inl out)
  · cases step : batch.step relay state with
    | none =>
      rw [Batch.drain_of_step_eq_none step] at open_ within
      exact .inr ⟨rfl, open_, within⟩
    | some next =>
      have paused := sound.paused h.cycling h.session
      have less := Batch.work_drain_lt (step ▸ Option.some_ne_none next) paused.2
      exact .inl (.inr ⟨_, less, _, _, within, rfl⟩)

theorem Awaits.act {time : Instant} {left : Nat} (h : p.Awaits relay time left) (sound : p.Sound)
    (action : Action σ) :
    (p.act relay action).Awaits relay time left ∨ (p.act relay action).Nearer relay left := by
  obtain ⟨state, batch, within, rfl, hope⟩ := h
  rcases turn_act relay sound action with ⟨preference, rfl, _⟩ | ⟨notTurn, _⟩
  · rcases within.turn sound preference with nearer | ⟨_, _, still⟩
    · exact .inr nearer
    · exact .inl ⟨state, batch, still, rfl, hope⟩
  · obtain ⟨state', phase', within', rfl | ⟨now, rfl⟩⟩ := within.other notTurn
    · exact .inl ⟨state', batch, within', rfl, hope⟩
    · exact .inl ⟨state', batch.wake now, within', Batch.work_wake relay now batch,
        Batch.hopeful_wake.2 hope⟩

theorem Awaits.poll {time : Instant} {left : Nat} (h : p.Awaits relay time left) (sound : p.Sound)
    (come : time.nanos ≤ p.now.nanos) (preference : Preference) :
    (p.poll relay preference).Nearer relay left := by
  obtain ⟨state, batch, within, rfl, hope⟩ := h
  rcases within.turn sound preference with nearer | ⟨stopped, open_, _⟩
  · exact nearer
  · have paused := sound.paused within.cycling within.session
    have now : p.now = state.now := by rw [Poller.now, within.session]; rfl
    have finished := paused.1.goesOn hope (now ▸ come) stopped
    rw [open_] at finished
    cases finished

end Stages

/-- By induction on what is left to do: a turn after the first of the timers finds something that
it can do, unless the turns before it did. -/
theorem ends_of_delivers (h : p.Sound) (fair : Fair relay p actions) (left n : Nat)
    (delivers : (course relay p actions n).Delivers relay left) :
    ∃ m, n ≤ m ∧ (course relay p actions m).phase ≠ .cycling := by
  induction left using Nat.strong_induction_on generalizing n with
  | h left ih =>
    have nearer : ∃ m, n ≤ m ∧ (course relay p actions m).Nearer relay left := by
      obtain ⟨state, batch, within, rfl⟩ := delivers
      have paused := (h.course n).paused within.cycling within.session
      obtain ⟨time, hope⟩ := paused.1.exists_hopeful paused.2
      obtain ⟨m, le, ⟨preference, polled⟩, come⟩ := fair n time
      have awaits : (course relay p actions n).Awaits relay time (batch.work relay) :=
        ⟨state, batch, within, rfl, hope⟩
      rcases holds_or_ends (·.Awaits relay time (batch.work relay))
        (·.Nearer relay (batch.work relay))
        (fun k _ awaits => awaits.act (h.course k) (actions k)) awaits le with
        still | ⟨k, after, _, nearer⟩
      · refine ⟨m + 1, by omega, ?_⟩
        rw [course, polled]
        exact still.poll (h.course m) come preference
      · exact ⟨k, by omega, nearer⟩
    obtain ⟨m, le, out | ⟨fewer, less, delivers⟩⟩ := nearer
    · exact ⟨m, le, out⟩
    · obtain ⟨k, later, out⟩ := ih fewer less m delivers
      exact ⟨k, by omega, out⟩

theorem leaves_phase (h : p.Sound) (fair : Fair relay p actions) {phase : Phase}
    (still : ∀ now, phase.wake now = phase) (next : Poller σ → Prop)
    (turn : ∀ {q : Poller σ} {state}, q.Within state phase → ∀ preference,
      next (q.poll relay preference))
    {state : RelayState σ} {n : Nat} (start : (course relay p actions n).Within state phase) :
    ∃ m, n ≤ m ∧ next (course relay p actions m) := by
  obtain ⟨m, le, ⟨preference, polled⟩, _⟩ := fair n .start
  have step (k : Nat) (_ : n ≤ k) (here : ∃ state, (course relay p actions k).Within state phase) :
      (∃ state, (course relay p actions (k + 1)).Within state phase) ∨
        next (course relay p actions (k + 1)) := by
    obtain ⟨state, within⟩ := here
    have sound : (course relay p actions k).Sound := h.course k
    rw [course]
    rcases turn_act relay sound (actions k) with ⟨preference, same, _⟩ | ⟨notTurn, _⟩
    · rw [same]
      exact .inr (turn within preference)
    · obtain ⟨state', phase', within', rfl | ⟨now, rfl⟩⟩ := within.other notTurn
      · exact .inl ⟨state', within'⟩
      · exact .inl ⟨state', still now ▸ within'⟩
  rcases holds_or_ends (fun q => ∃ state, q.Within state phase) next step ⟨state, start⟩ le with
    ⟨_, within⟩ | ⟨k, after, _, left⟩
  · refine ⟨m + 1, by omega, ?_⟩
    rw [course, polled]
    exact turn within preference
  · exact ⟨k, by omega, left⟩

theorem ends_of_claiming (h : p.Sound) (fair : Fair relay p actions) {state : RelayState σ}
    {n : Nat} (claiming : (course relay p actions n).Within state .claiming) :
    ∃ m, n ≤ m ∧ (course relay p actions m).phase ≠ .cycling := by
  obtain ⟨m, le, out | ⟨state, batch, delivering⟩⟩ :=
    leaves_phase h fair (fun _ => rfl)
      (fun q => q.phase ≠ .cycling ∨ ∃ state batch, q.Within state (.delivering batch))
      Within.claim claiming
  · exact ⟨m, le, out⟩
  · obtain ⟨k, later, out⟩ := ends_of_delivers h fair _ m ⟨state, batch, delivering, rfl⟩
    exact ⟨k, by omega, out⟩

theorem ends_of_checking (h : p.Sound) (fair : Fair relay p actions) {state : RelayState σ}
    {n : Nat} (checking : (course relay p actions n).Within state .checking) :
    ∃ m, n ≤ m ∧ (course relay p actions m).phase ≠ .cycling := by
  obtain ⟨m, le, state, claiming⟩ := leaves_phase h fair (fun _ => rfl)
    (fun q => ∃ state, q.Within state .claiming)
    (fun within preference => ⟨_, within.check preference⟩) checking
  obtain ⟨k, later, out⟩ := ends_of_claiming h fair claiming
  exact ⟨k, by omega, out⟩

theorem cycle_ends (h : p.Sound) (fair : Fair relay p actions) {n : Nat}
    (cycling : (course relay p actions n).phase = .cycling) :
    ∃ m, n ≤ m ∧ (course relay p actions m).phase ≠ .cycling := by
  obtain ⟨state, phase, session, _⟩ := (h.course n).during cycling
  cases phase with
  | checking => exact ends_of_checking h fair ⟨cycling, session⟩
  | claiming => exact ends_of_claiming h fair ⟨cycling, session⟩
  | delivering batch =>
    exact ends_of_delivers h fair _ n ⟨state, batch, ⟨cycling, session⟩, rfl⟩

end OutboxRelay.Poller
