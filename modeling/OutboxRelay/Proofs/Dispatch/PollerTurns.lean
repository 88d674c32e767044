import OutboxRelay.Dispatch.Poller
import OutboxRelay.Proofs.Dispatch.Exclusion
import OutboxRelay.Proofs.Dispatch.Wakeful
import OutboxRelay.Proofs.Dispatch.WholeCycle

/-! A poller, turn by turn. It gets its turns whenever it pleases the machine, and between any two
of them time goes on, words are said and other clients write to the store. The only call for a cycle
of its session is its own, and there is one exactly while it is in a cycle. Trials of a poller, in
which every timer is met to the instant, are some of these runs. -/

namespace OutboxRelay

variable {σ : Type}

def Phase.Paused (state : RelayState σ) : Phase → Prop
  | .delivering batch =>
    Batch.Wakeful (state, batch) ∧ ∀ d ∈ batch.ready, d.isDue state.now
  | _ => True

def Phase.wake (now : Instant) : Phase → Phase
  | .delivering batch => .delivering (batch.wake now)
  | phase => phase

theorem Phase.Paused.wake {state : RelayState σ} {phase : Phase} (h : phase.Paused state)
    {now : Instant} (le : state.now.nanos ≤ now.nanos) :
    (phase.wake now).Paused { state with now := now } := by
  cases phase with
  | checking => trivial
  | claiming => trivial
  | delivering batch =>
    refine ⟨h.1.wake le, fun d mem => ?_⟩
    rcases List.mem_append.1 mem with old | woken
    · exact Delivery.isDue_mono (h.2 d old) le
    · exact Batch.isDue_of_mem_woken woken

namespace Session

def during (state : RelayState σ) (phase : Phase) : Session Unit σ :=
  ⟨state, true, [((), phase)], []⟩

def after (state : RelayState σ) (result : CycleResult) : Session Unit σ :=
  ⟨state, false, [], [((), state.now, result)]⟩

@[simp] theorem resultOf_during (state : RelayState σ) (phase : Phase) :
    (during state phase).resultOf () = none := rfl

@[simp] theorem resultOf_after (state : RelayState σ) (result : CycleResult) :
    (after state result).resultOf () = some (state.now, result) := rfl

theorem during_injective {state state' : RelayState σ} {phase phase' : Phase}
    (same : during state phase = during state' phase') : state = state' ∧ phase = phase' := by
  unfold during at same
  simpa using same

theorem advance_during (state : RelayState σ) (phase : Phase) (now : Instant) :
    (during state phase).advance now = during { state with now := now } (phase.wake now) := by
  cases phase <;> rfl

theorem begin_uncalled (state : RelayState σ) :
    (uncalled state).begin () = during state .checking := rfl

def atBatch (state : RelayState σ) (batch : Batch) : Session Unit σ :=
  if batch.isOver then after (Cycle.close state batch).1 (Cycle.close state batch).2
  else during state (.delivering batch)

theorem takeBatch_during (old state : RelayState σ) (phase : Phase) (batch : Batch) :
    (during old phase).takeBatch () state batch = atBatch state batch := by
  unfold takeBatch atBatch
  split <;> simp [during, after, finish, move]

section Turns

variable [Outbox σ] (relay : Relay)

theorem resume_checking (state : RelayState σ) :
    (during state .checking).resume relay () = during (Cycle.check relay state) .claiming := by
  simp [resume, during, move]

theorem resume_claiming (state : RelayState σ) :
    (during state .claiming).resume relay () =
      match Cycle.claim relay state with
      | (state, .inl batch) => during state (.delivering batch)
      | (state, .inr result) => after state result := by
  cases claimed : Cycle.claim relay state with
  | mk state' claim =>
    cases claim <;> simp [resume, during, claimed, move, finish, after]

theorem resume_delivering (state : RelayState σ) (batch : Batch) :
    (during state (.delivering batch)).resume relay () =
      atBatch (batch.drain relay state).1 (batch.drain relay state).2 := by
  rw [← takeBatch_during state _ (.delivering batch)]
  simp [resume, during]

theorem resume_during {state : RelayState σ} {phase : Phase} (h : phase.Paused state) :
    (∃ state' phase', (during state phase).resume relay () = during state' phase' ∧
      phase'.Paused state') ∨
    ∃ state' result, (during state phase).resume relay () = after state' result := by
  cases phase with
  | checking => exact .inl ⟨_, _, resume_checking relay state, trivial⟩
  | claiming =>
    rw [resume_claiming]
    split
    · rename_i state' batch claimed
      obtain ⟨events, rfl⟩ : ∃ events, batch = .ofEvents events := by
        unfold Cycle.claim at claimed
        split at claimed <;> cases claimed
        exact ⟨_, rfl⟩
      exact .inl ⟨_, _, rfl, Batch.wakeful_ofEvents state' events,
        fun _ mem => absurd mem List.not_mem_nil⟩
    · exact .inr ⟨_, _, rfl⟩
  | delivering batch =>
    rw [resume_delivering, atBatch]
    split
    · exact .inr ⟨_, _, rfl⟩
    · refine .inl ⟨_, _, rfl, h.1.drain, fun d mem => ?_⟩
      rw [Batch.ready_drain] at mem
      exact absurd mem List.not_mem_nil

end Turns

end Session

namespace Poller

variable {p q : Poller σ}

/-- A poller that no one else shares its session with. -/
def Sound (p : Poller σ) : Prop :=
  match p.phase with
  | .cycling => ∃ state phase, p.session = .during state phase ∧ phase.Paused state
  | _ => ∃ state, p.session = .uncalled state

theorem sound_of_start? {relay : Relay} {state : RelayState σ} {stopAtOnce : Bool}
    (start : start? relay state stopAtOnce = some p) : p.Sound := by
  unfold start? at start
  split at start <;> cases start
  exact ⟨_, rfl⟩

theorem Sound.uncalled (h : p.Sound) (out : p.phase ≠ .cycling) :
    ∃ state, p.session = .uncalled state := by
  unfold Sound at h
  split at h
  · exact absurd ‹_› out
  · exact h

theorem Sound.during (h : p.Sound) (cycling : p.phase = .cycling) :
    ∃ state phase, p.session = .during state phase ∧ phase.Paused state := by
  unfold Sound at h
  rw [cycling] at h
  exact h

theorem Sound.paused (h : p.Sound) {state : RelayState σ} {phase : Phase}
    (cycling : p.phase = .cycling) (session : p.session = .during state phase) :
    phase.Paused state := by
  obtain ⟨state', phase', session', paused⟩ := h.during cycling
  obtain ⟨rfl, rfl⟩ := Session.during_injective (session.symm.trans session')
  exact paused

theorem sound_of_uncalled {state : RelayState σ} (out : p.phase ≠ .cycling)
    (session : p.session = .uncalled state) : p.Sound := by
  unfold Sound
  split
  · exact absurd ‹_› out
  · exact ⟨state, session⟩

theorem sound_of_during {state : RelayState σ} {phase : Phase} (cycling : p.phase = .cycling)
    (session : p.session = .during state phase) (paused : phase.Paused state) : p.Sound := by
  unfold Sound
  rw [cycling]
  exact ⟨state, phase, session, paused⟩

/-! ### The end of a cycle -/

theorem lookUp_during {state : RelayState σ} {phase : Phase}
    (session : p.session = .during state phase) : p.lookUp = p := by
  unfold lookUp
  rw [session, Session.resultOf_during]

theorem lookUp_after {state : RelayState σ} {result : CycleResult}
    (session : p.session = .after state result) : p.lookUp = p.endCycle result := by
  unfold lookUp
  rw [session, Session.resultOf_after]

theorem phase_endCycle (p : Poller σ) (result : CycleResult) :
    (p.endCycle result).phase = if p.line.value then .stopped else .idle := by
  unfold endCycle
  cases result <;> (dsimp only [note]; split <;> rfl)

@[simp] theorem line_endCycle (p : Poller σ) (result : CycleResult) :
    (p.endCycle result).line = p.line := by
  unfold endCycle
  cases result <;> (dsimp only [note]; split <;> rfl)

theorem session_endCycle {state : RelayState σ} {result : CycleResult}
    (session : p.session = .after state result) :
    ∃ state', (p.endCycle result).session = .uncalled state' := by
  unfold endCycle
  cases result <;>
    (dsimp only [note]; split <;> exact ⟨_, by rw [session]; rfl⟩)

theorem sound_endCycle {state : RelayState σ} {result : CycleResult}
    (session : p.session = .after state result) : (p.endCycle result).Sound := by
  obtain ⟨state', uncalled⟩ := session_endCycle session
  refine sound_of_uncalled (fun cycling => ?_) uncalled
  rw [phase_endCycle] at cycling
  split at cycling <;> cases cycling

def withBatch (p : Poller σ) (x : RelayState σ × Batch) : Poller σ :=
  { p with session := .atBatch x.1 x.2 }.lookUp

theorem withBatch_of_open {x : RelayState σ × Batch} (open_ : x.2.isOver = false) :
    p.withBatch x = { p with session := .during x.1 (.delivering x.2) } := by
  unfold withBatch Session.atBatch
  rw [open_, if_neg Bool.false_ne_true]
  exact lookUp_during rfl

/-! ### Between turns -/

theorem session_waitTo_of_during {state : RelayState σ} {phase : Phase}
    (session : p.session = .during state phase) (now : Instant) :
    (p.waitTo now).session = .during { state with now := state.now.max now }
      (phase.wake (state.now.max now)) := by
  rw [waitTo, Poller.now, session, Session.advance_during]
  rfl

theorem session_waitTo_of_uncalled {state : RelayState σ} (session : p.session = .uncalled state)
    (now : Instant) :
    (p.waitTo now).session = .uncalled { state with now := state.now.max now } := by
  rw [waitTo, Poller.now, session]
  rfl

theorem Sound.waitTo (h : p.Sound) (now : Instant) : (p.waitTo now).Sound := by
  by_cases cycling : p.phase = .cycling
  · obtain ⟨state, phase, session, paused⟩ := h.during cycling
    have le : state.now.nanos ≤ (state.now.max now).nanos := by
      rw [Instant.max_nanos]
      exact Nat.le_max_left _ _
    exact sound_of_during cycling (session_waitTo_of_during session now) (paused.wake le)
  · obtain ⟨state, session⟩ := h.uncalled cycling
    exact sound_of_uncalled cycling (session_waitTo_of_uncalled session now)

theorem session_of_change {state : RelayState σ} {phase : Phase}
    (session : p.session = .during state phase) (state' : RelayState σ) :
    { p.session with state := state' } = Session.during state' phase := by
  rw [session]
  rfl

theorem Sound.change (h : p.Sound) {state : RelayState σ} (still : state.now = p.now) :
    Sound { p with session := { p.session with state := state } } := by
  by_cases cycling : p.phase = .cycling
  · obtain ⟨old, phase, session, paused⟩ := h.during cycling
    have now : state.now = old.now := by rw [still, Poller.now, session]; rfl
    refine sound_of_during cycling (session_of_change session state) ?_
    cases phase with
    | checking => trivial
    | claiming => trivial
    | delivering batch =>
      refine ⟨⟨?_, paused.1.timers, ?_⟩, ?_⟩
      · exact fun d mem => now ▸ paused.1.answered d mem
      · exact fun d mem => now ▸ paused.1.early d mem
      · exact fun d mem => now ▸ paused.2 d mem
  · obtain ⟨old, session⟩ := h.uncalled cycling
    have session' : { p.session with state := state } = .uncalled state := by
      rw [session]
      rfl
    exact sound_of_uncalled cycling session'

/-! ### One turn -/

theorem session_openCycle {state : RelayState σ} (session : p.session = .uncalled state) :
    p.openCycle.session = .during state .checking := by
  rw [openCycle, session, Session.begin_uncalled]

/-- All that a turn can be. -/
inductive Turn [Outbox σ] (relay : Relay) (preference : Preference) (p : Poller σ) :
    Poller σ → Prop
  | stops (idle : p.phase = .idle) (told : p.line.pending)
      (heard : ¬ (p.hasTick ∧ preference = .tick)) : Turn relay preference p p.stop
  | begins (idle : p.phase = .idle) (tick : p.hasTick)
      (unheard : p.line.pending → preference = .tick) : Turn relay preference p p.openCycle
  | rests (idle : p.phase = .idle) (untold : p.line.pending = false)
      (early : p.hasTick = false) : Turn relay preference p p
  | works {state phase} (cycling : p.phase = .cycling)
      (resumed : p.session.resume relay () = .during state phase) (paused : phase.Paused state) :
      Turn relay preference p { p with session := .during state phase }
  | ends {state result} (cycling : p.phase = .cycling)
      (resumed : p.session.resume relay () = .after state result) :
      Turn relay preference p ({ p with session := .after state result }.endCycle result)
  | stays (stopped : p.phase = .stopped) : Turn relay preference p p

section Runs

variable [Outbox σ] {relay : Relay}

theorem turn_poll (relay : Relay) (h : p.Sound) (preference : Preference) :
    Turn relay preference p (p.poll relay preference) := by
  unfold poll
  split
  · rename_i idle
    split
    · rename_i heard
      exact .stops idle heard.1 heard.2
    · rename_i other
      split
      · rename_i tick
        refine .begins idle tick fun told => Decidable.byContradiction fun stop => ?_
        exact other ⟨told, fun both => stop both.2⟩
      · rename_i early
        have untold : ¬ p.line.pending := fun told => other ⟨told, fun both => early both.1⟩
        exact .rests idle (Bool.eq_false_iff.2 untold) (Bool.eq_false_iff.2 early)
  · rename_i cycling
    obtain ⟨state, phase, session, paused⟩ := h.during cycling
    rcases Session.resume_during relay paused with
      ⟨state', phase', resumed, paused'⟩ | ⟨state', result, resumed⟩ <;>
      rw [← session] at resumed <;> rw [resumed]
    · rw [lookUp_during rfl]
      exact .works cycling resumed paused'
    · rw [lookUp_after rfl]
      exact .ends cycling resumed
  · rename_i stopped
    exact .stays stopped

theorem sound_of_turn {preference : Preference} (turn : Turn relay preference p q)
    (h : p.Sound) : q.Sound := by
  cases turn with
  | stops idle _ _ =>
    obtain ⟨state, session⟩ := h.uncalled (by rw [idle]; nofun)
    have uncalled : p.stop.session = .uncalled (state.note [stoppedEntry]) := by
      rw [stop, note, session]
      rfl
    exact sound_of_uncalled nofun uncalled
  | begins idle _ _ =>
    obtain ⟨state, session⟩ := h.uncalled (by rw [idle]; nofun)
    exact sound_of_during rfl (session_openCycle session) trivial
  | rests => exact h
  | works cycling _ paused => exact sound_of_during cycling rfl paused
  | ends => exact sound_endCycle rfl
  | stays => exact h

/-! ### Runs -/

theorem Sound.act (h : p.Sound) (action : Action σ) : (p.act relay action).Sound := by
  cases action with
  | poll preference => exact sound_of_turn (turn_poll relay h preference) h
  | wait now => exact h.waitTo now
  | take occurrence =>
    cases occurrence with
    | feed event => exact h.change rfl
    | say value => exact h
    | hangUp => exact h
  | elsewhere change => exact h.change rfl

theorem Sound.run (h : p.Sound) (actions : List (Action σ)) : (p.run relay actions).Sound := by
  induction actions generalizing p with
  | nil => exact h
  | cons action rest ih => exact ih (h.act action)

theorem turn_act (relay : Relay) (h : p.Sound) (action : Action σ) :
    (∃ preference, action = .poll preference ∧ Turn relay preference p (p.act relay action)) ∨
      (∀ preference, action ≠ .poll preference) ∧ (p.act relay action).phase = p.phase := by
  cases action with
  | poll preference => exact .inl ⟨preference, rfl, turn_poll relay h preference⟩
  | wait now => exact .inr ⟨nofun, rfl⟩
  | take occurrence => exact .inr ⟨nofun, by cases occurrence <;> rfl⟩
  | elsewhere change => exact .inr ⟨nofun, rfl⟩

/-! ### Trials are runs -/

/-- Some turns, and what comes in between, make one poller of the other. -/
def Reaches (relay : Relay) (p q : Poller σ) : Prop :=
  ∃ actions, p.run relay actions = q

theorem Reaches.refl (p : Poller σ) : Reaches relay p p := ⟨[], rfl⟩

theorem Reaches.trans {r : Poller σ} (first : Reaches relay p q) (second : Reaches relay q r) :
    Reaches relay p r := by
  obtain ⟨early, rfl⟩ := first
  obtain ⟨late, rfl⟩ := second
  exact ⟨early ++ late, List.foldl_append⟩

theorem reaches_act (p : Poller σ) (action : Action σ) : Reaches relay p (p.act relay action) :=
  ⟨[action], rfl⟩

theorem reaches_poll (p : Poller σ) (preference : Preference) :
    Reaches relay p (p.poll relay preference) := reaches_act p (.poll preference)

theorem reaches_waitTo (p : Poller σ) (now : Instant) : Reaches relay p (p.waitTo now) :=
  reaches_act p (.wait now)

theorem Reaches.sound (leads : Reaches relay p q) (h : p.Sound) : q.Sound := by
  obtain ⟨actions, rfl⟩ := leads
  exact h.run actions

theorem poll_cycling (cycling : p.phase = .cycling) (preference : Preference) :
    p.poll relay preference = { p with session := p.session.resume relay () }.lookUp := by
  unfold poll
  rw [cycling]

theorem poll_delivering {state : RelayState σ} {batch : Batch} (cycling : p.phase = .cycling)
    (session : p.session = .during state (.delivering batch)) (preference : Preference) :
    p.poll relay preference = p.withBatch (batch.drain relay state) := by
  rw [poll_cycling cycling, session, Session.resume_delivering]
  rfl

theorem poll_waitTo_delivering {state : RelayState σ} {batch : Batch}
    (cycling : p.phase = .cycling) (session : p.session = .during state (.delivering batch))
    (due : Instant) (preference : Preference) :
    (p.waitTo due).poll relay preference = p.withBatch (batch.advance relay state due) := by
  have waited := session_waitTo_of_during session due
  exact poll_delivering (p := p.waitTo due) cycling waited preference

theorem reaches_follow_batch {limit : Option Instant} {state : RelayState σ} {batch : Batch}
    {rest : batch.ready = []} (cycling : p.phase = .cycling) (open_ : batch.isOver = false) :
    Reaches relay (p.withBatch (state, batch))
      (p.withBatch (batch.follow relay limit state rest)) := by
  fun_induction Batch.follow relay limit state batch rest with
  | case1 state batch rest none => exact .refl _
  | case2 state batch rest due next before ih =>
    have turn : ((p.withBatch (state, batch)).waitTo due).poll relay .stop =
        p.withBatch (batch.advance relay state due) := by
      rw [withBatch_of_open open_]
      exact poll_waitTo_delivering (p := { p with session := .during state (.delivering batch) })
        cycling rfl due .stop
    have here : Reaches relay (p.withBatch (state, batch))
        (p.withBatch (batch.advance relay state due)) :=
      turn ▸ (reaches_waitTo _ due).trans (reaches_poll _ .stop)
    cases done : (batch.advance relay state due).2.isOver with
    | true =>
      obtain ⟨actions, same⟩ := here
      exact ⟨actions, same.trans
        (congrArg p.withBatch (Batch.follow_of_isOver done limit _).symm)⟩
    | false => exact here.trans (ih done)
  | case3 state batch rest due next after => exact .refl _

theorem reaches_continueCycle (h : p.Sound) (limit : Option Instant) :
    Reaches relay p (p.continueCycle relay limit) := by
  unfold continueCycle
  split
  · rename_i cycling
    obtain ⟨state, phase, session, paused⟩ := h.during cycling
    cases phase with
    | checking =>
      have still : p.session.runTo relay limit = p.session := by rw [session]; rfl
      rw [still, lookUp_during session]
      exact .refl p
    | claiming =>
      have still : p.session.runTo relay limit = p.session := by rw [session]; rfl
      rw [still, lookUp_during session]
      exact .refl p
    | delivering batch =>
      have goal : { p with session := p.session.runTo relay limit }.lookUp =
          p.withBatch (batch.runTo relay limit state) := by
        rw [session, withBatch, ← Session.takeBatch_during state _ (.delivering batch)]
        rfl
      have turn : p.poll relay .stop = _ := poll_delivering cycling session .stop
      have here : Reaches relay p (p.withBatch (batch.drain relay state)) :=
        turn ▸ reaches_poll p .stop
      rw [goal]
      cases done : (batch.drain relay state).2.isOver with
      | true =>
        rw [Batch.runTo_of_isOver_drain done]
        exact here
      | false => exact here.trans (reaches_follow_batch cycling done)
  · exact .refl p

theorem reaches_beginCycle (h : p.Sound) (idle : p.phase = .idle) (tick : p.hasTick)
    (untold : p.line.pending = false) : Reaches relay p (p.beginCycle relay) := by
  obtain ⟨state, session⟩ := h.uncalled (by rw [idle]; nofun)
  have opened : p.poll relay .tick = p.openCycle := by
    unfold poll
    rw [idle]
    simp [untold, tick]
  have first := session_openCycle session
  have checked : p.openCycle.poll relay .stop =
      { p.openCycle with session := .during (Cycle.check relay state) .claiming } := by
    rw [poll_cycling rfl, first, Session.resume_checking]
    exact lookUp_during rfl
  have early : Reaches relay p
      { p.openCycle with session := .during (Cycle.check relay state) .claiming } :=
    (opened ▸ reaches_poll p .tick).trans (checked ▸ reaches_poll p.openCycle .stop)
  have whole : p.beginCycle relay = { p.openCycle with
      session := ((Session.during (Cycle.check relay state) .claiming).resume relay ()).resume
        relay () }.lookUp := by
    rw [← Session.resume_checking, ← first]
    rfl
  have claimed : Poller.poll relay .stop
      { p.openCycle with session := .during (Cycle.check relay state) .claiming } = _ :=
    poll_cycling rfl .stop
  rw [whole]
  rw [Session.resume_claiming] at claimed ⊢
  split at claimed
  · rename_i claimedState batch _
    rw [lookUp_during rfl] at claimed
    have taken : Poller.poll relay .stop
        { p.openCycle with session := .during claimedState (.delivering batch) } = _ :=
      poll_cycling rfl .stop
    exact (early.trans (claimed ▸ reaches_poll _ .stop)).trans (taken ▸ reaches_poll _ .stop)
  · exact early.trans (claimed ▸ reaches_poll _ .stop)

theorem reaches_stop (idle : p.phase = .idle) (told : p.line.pending) :
    Reaches relay p p.stop := by
  have turn : p.poll relay .stop = p.stop := by
    unfold poll
    rw [idle]
    simp [told]
  exact turn ▸ reaches_poll p .stop

theorem reaches_runTicks (h : p.Sound) (limit : Instant) :
    Reaches relay p (p.runTicks relay limit) := by
  fun_induction runTicks relay limit p with
  | case1 p here ih =>
    have tick : (p.waitTo p.ticker.due).hasTick := by
      simp only [hasTick, Instant.le, decide_eq_true_eq]
      exact p.le_now_waitTo p.ticker.due
    have waited : Reaches relay p (p.waitTo p.ticker.due) := reaches_waitTo p p.ticker.due
    have begun := waited.trans (reaches_beginCycle (waited.sound h) here.1 tick here.2.1)
    have gone := begun.trans (reaches_continueCycle (begun.sound h) (some limit))
    exact gone.trans (ih (gone.sound h))
  | case2 p _ => exact .refl p

theorem reaches_runTo (h : p.Sound) (limit : Instant) :
    Reaches relay p (p.runTo relay limit) := by
  have gone : Reaches relay p (p.continueCycle relay (some limit)) :=
    reaches_continueCycle h (some limit)
  unfold runTo
  dsimp only
  split
  · rename_i told
    exact gone.trans (reaches_stop told.1 told.2)
  · exact gone.trans (reaches_runTicks (gone.sound h) limit)

theorem reaches_follow (h : p.Sound) (occurrences : List (Instant × Occurrence)) :
    Reaches relay p (p.follow relay occurrences) := by
  have steps : Reaches relay p (occurrences.foldl
      (fun p occurrence =>
        ((p.runTo relay occurrence.1).waitTo occurrence.1).take occurrence.2) p) := by
    induction occurrences generalizing p with
    | nil => exact .refl p
    | cons occurrence rest ih =>
      have gone : Reaches relay p (p.runTo relay occurrence.1) := reaches_runTo h occurrence.1
      have waited := gone.trans (reaches_waitTo _ occurrence.1)
      have taken := waited.trans (reaches_act _ (.take occurrence.2))
      exact taken.trans (ih (taken.sound h))
  have ended := steps.trans (reaches_continueCycle (steps.sound h) none)
  unfold follow
  dsimp only
  split
  · rename_i told
    exact ended.trans (reaches_stop told.1 told.2)
  · exact ended

end Runs

end Poller

end OutboxRelay
