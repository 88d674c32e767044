import OutboxRelay.Proofs.Dispatch.FairTurns
import OutboxRelay.Store.Memory

/-! A poller that is told to stop. What it was told counts at the end of a cycle, and only there: in
between, a word is heard when it is taken before a tick, and a word from before the poller's time is
not heard at all. So one more cycle may begin after the word, if the word came between two cycles,
and never a second one. A cycle that has begun is ended by nothing but its own result, which it
comes to in every run that goes on, and the poller is over then. An error is a result like any
other. -/

namespace OutboxRelay.Poller

variable {σ : Type}

/-- A poller that takes a tick in its next turn, and does not hear what it was told. -/
structure TakesTick (preference : Preference) (p : Poller σ) : Prop where
  idle : p.phase = .idle
  tick : p.hasTick
  unheard : p.line.pending → preference = .tick

def Begins (p q : Poller σ) : Prop := p.phase ≠ .cycling ∧ q.phase = .cycling

instance (p q : Poller σ) : Decidable (p.Begins q) := inferInstanceAs (Decidable (_ ∧ _))

variable [Outbox σ]

def cyclesBegun (relay : Relay) : Poller σ → List (Action σ) → Nat
  | _, [] => 0
  | p, action :: rest =>
    (if p.Begins (p.act relay action) then 1 else 0) + cyclesBegun relay (p.act relay action) rest

variable {relay : Relay} {p q : Poller σ}

/-! ### Beginnings -/

theorem line_of_turn {preference : Preference} (turn : Turn relay preference p q) :
    q.line = p.line := by
  cases turn with
  | ends => rw [line_endCycle]
  | _ => rfl

theorem value_act (h : p.Sound) {action : Action σ} (stays : action ≠ .take (.say false))
    (told : p.line.value) : (p.act relay action).line.value := by
  cases action with
  | poll preference =>
    have line := line_of_turn (turn_poll relay h preference)
    exact (congrArg StopLine.value line).trans told
  | wait now => exact told
  | take occurrence =>
    cases occurrence with
    | feed event => exact told
    | say value =>
      cases value with
      | true => rfl
      | false => exact absurd rfl stays
    | hangUp => exact told
  | elsewhere change => exact told

theorem begins_act_iff (h : p.Sound) (action : Action σ) :
    p.Begins (p.act relay action) ↔
      ∃ preference, action = .poll preference ∧ p.TakesTick preference := by
  constructor
  · rintro ⟨out, cycling⟩
    rcases turn_act relay h action with ⟨preference, rfl, turn⟩ | ⟨_, same⟩
    · refine ⟨preference, rfl, ?_⟩
      generalize p.act relay (.poll preference) = q at turn cycling
      cases turn with
      | stops => cases cycling
      | begins idle tick unheard => exact ⟨idle, tick, unheard⟩
      | rests => exact absurd cycling out
      | works within => exact absurd within out
      | ends within => exact absurd within out
      | stays => exact absurd cycling out
    · exact absurd (same.symm.trans cycling) out
  · rintro ⟨preference, rfl, idle, tick, unheard⟩
    have turn : p.poll relay preference = p.openCycle := by
      unfold poll
      rw [idle]
      simp only [tick, true_and]
      rw [if_neg fun both => both.2 (unheard both.1)]
      rfl
    exact ⟨by rw [idle]; nofun, by rw [act, turn]; rfl⟩

theorem phase_act_ne_idle (h : p.Sound) (action : Action σ) (told : p.line.value)
    (out : p.phase ≠ .idle) : (p.act relay action).phase ≠ .idle := by
  rcases turn_act relay h action with ⟨preference, rfl, turn⟩ | ⟨_, same⟩
  · generalize p.act relay (.poll preference) = q at turn
    cases turn with
    | stops idle => exact absurd idle out
    | begins idle => exact absurd idle out
    | rests idle => exact absurd idle out
    | works cycling => exact out
    | ends =>
      rw [phase_endCycle, if_pos told]
      nofun
    | stays => exact out
  · rw [same]
    exact out

theorem cyclesBegun_eq_zero (h : p.Sound) (told : p.line.value) (out : p.phase ≠ .idle)
    {actions : List (Action σ)} (stays : .take (.say false) ∉ actions) :
    cyclesBegun relay p actions = 0 := by
  induction actions generalizing p with
  | nil => rfl
  | cons action rest ih =>
    rw [List.mem_cons, not_or] at stays
    have none : ¬ p.Begins (p.act relay action) := fun begins => by
      obtain ⟨_, _, takes⟩ := (begins_act_iff h action).1 begins
      exact out takes.idle
    rw [cyclesBegun, if_neg none, Nat.zero_add]
    exact ih (h.act action) (value_act h (Ne.symm stays.1) told)
      (phase_act_ne_idle h action told out) stays.2

theorem cyclesBegun_le_one (h : p.Sound) (told : p.line.value) {actions : List (Action σ)}
    (stays : .take (.say false) ∉ actions) : cyclesBegun relay p actions ≤ 1 := by
  induction actions generalizing p with
  | nil => exact Nat.zero_le 1
  | cons action rest ih =>
    rw [List.mem_cons, not_or] at stays
    have still : (p.act relay action).line.value := value_act h (Ne.symm stays.1) told
    rw [cyclesBegun]
    split
    · rename_i begins
      have out : (p.act relay action).phase ≠ .idle := by rw [begins.2]; nofun
      rw [cyclesBegun_eq_zero (h.act action) still out stays.2]
    · rw [Nat.zero_add]
      exact ih (h.act action) still stays.2

theorem cyclesBegun_pos_iff (h : p.Sound) (actions : List (Action σ)) :
    0 < cyclesBegun relay p actions ↔ ∃ early preference late,
      actions = early ++ .poll preference :: late ∧ (p.run relay early).TakesTick preference := by
  induction actions generalizing p with
  | nil => simp [cyclesBegun]
  | cons action rest ih =>
    rw [cyclesBegun]
    constructor
    · intro some
      by_cases begins : p.Begins (p.act relay action)
      · obtain ⟨preference, rfl, takes⟩ := (begins_act_iff h action).1 begins
        exact ⟨[], preference, rest, rfl, takes⟩
      · rw [if_neg begins, Nat.zero_add] at some
        obtain ⟨early, preference, late, rfl, takes⟩ := (ih (h.act action)).1 some
        exact ⟨action :: early, preference, late, rfl, takes⟩
    · rintro ⟨early, preference, late, split, takes⟩
      cases early with
      | nil =>
        obtain ⟨rfl, rfl⟩ := List.cons.inj split
        have begins : p.Begins (p.act relay (.poll preference)) :=
          (begins_act_iff h _).2 ⟨preference, rfl, takes⟩
        rw [if_pos begins]
        omega
      | cons first early =>
        obtain ⟨rfl, rfl⟩ := List.cons.inj split
        have some := (ih (h.act action)).2 ⟨early, preference, late, rfl, takes⟩
        omega

/-! ### Ends -/

theorem ended_act (h : p.Sound) (cycling : p.phase = .cycling) {action : Action σ}
    (out : (p.act relay action).phase ≠ .cycling) :
    ∃ preference time result, action = .poll preference ∧
      (p.session.resume relay ()).resultOf () = some (time, result) ∧
      (p.act relay action).phase = if p.line.value then .stopped else .idle := by
  rcases turn_act relay h action with ⟨preference, rfl, turn⟩ | ⟨_, same⟩
  · generalize p.act relay (.poll preference) = q at turn out
    cases turn with
    | stops idle => cases idle.symm.trans cycling
    | begins idle => cases idle.symm.trans cycling
    | rests idle => cases idle.symm.trans cycling
    | works => exact absurd cycling out
    | @ends state result _ resumed =>
      refine ⟨preference, state.now, result, rfl, ?_, phase_endCycle _ _⟩
      rw [resumed, Session.resultOf_after]
    | stays stopped => cases stopped.symm.trans cycling
  · exact absurd (same.trans cycling) out

theorem idle_act (h : p.Sound) (idle : p.phase = .idle) (action : Action σ) :
    (p.act relay action).phase = .idle ∧ (p.act relay action).ticker = p.ticker ∨
      (p.act relay action).phase ≠ .idle := by
  cases action with
  | poll preference =>
    have turn := turn_poll relay h preference
    simp only [act]
    generalize p.poll relay preference = q at turn
    cases turn with
    | stops => exact .inr nofun
    | begins => exact .inr nofun
    | rests => exact .inl ⟨idle, rfl⟩
    | works cycling => cases idle.symm.trans cycling
    | ends cycling => cases idle.symm.trans cycling
    | stays => exact .inl ⟨idle, rfl⟩
  | wait now => exact .inl ⟨idle, rfl⟩
  | take occurrence => cases occurrence <;> exact .inl ⟨idle, rfl⟩
  | elsewhere change => exact .inl ⟨idle, rfl⟩

theorem poll_of_hasTick (h : p.Sound) (tick : p.hasTick) (idle : p.phase = .idle)
    (preference : Preference) : (p.poll relay preference).phase ≠ .idle := by
  have turn := turn_poll relay h preference
  generalize p.poll relay preference = q at turn
  cases turn with
  | stops => nofun
  | begins => nofun
  | rests _ _ early =>
    rw [early] at tick
    cases tick
  | works cycling => cases idle.symm.trans cycling
  | ends cycling => cases idle.symm.trans cycling
  | stays stopped => cases idle.symm.trans stopped

section Fair

variable {actions : Nat → Action σ}

theorem leaves_idle (h : p.Sound) (fair : Fair relay p actions) :
    ∃ n, (course relay p actions n).phase ≠ .idle := by
  by_cases idle : p.phase = .idle
  · obtain ⟨m, _, ⟨preference, polled⟩, come⟩ := fair 0 p.ticker.due
    have waits (k : Nat) (_ : 0 ≤ k)
        (before : (course relay p actions k).phase = .idle ∧
          (course relay p actions k).ticker = p.ticker) :
        ((course relay p actions (k + 1)).phase = .idle ∧
          (course relay p actions (k + 1)).ticker = p.ticker) ∨
        (course relay p actions (k + 1)).phase ≠ .idle := by
      rcases idle_act (h.course k) before.1 (actions k) with ⟨idle', same⟩ | out
      · exact .inl ⟨idle', same.trans before.2⟩
      · exact .inr out
    rcases holds_or_ends (fun q => q.phase = .idle ∧ q.ticker = p.ticker) (·.phase ≠ .idle)
      waits ⟨idle, rfl⟩ (Nat.zero_le m) with ⟨still, same⟩ | ⟨k, _, _, out⟩
    · refine ⟨m + 1, ?_⟩
      rw [course, polled]
      refine poll_of_hasTick (h.course m) ?_ still preference
      simpa [hasTick, Instant.le, same] using come
    · exact ⟨k, out⟩
  · exact ⟨0, idle⟩

theorem value_course (h : p.Sound) (told : p.line.value)
    (stays : ∀ n, actions n ≠ .take (.say false)) (n : Nat) :
    (course relay p actions n).line.value := by
  induction n with
  | zero => exact told
  | succ n ih => exact value_act (h.course n) (stays n) ih

theorem stops_of_fair (h : p.Sound) (told : p.line.value)
    (stays : ∀ n, actions n ≠ .take (.say false)) (fair : Fair relay p actions) :
    ∃ n, (course relay p actions n).phase = .stopped := by
  obtain ⟨n, out⟩ := leaves_idle h fair
  have never {m : Nat} (le : n ≤ m) : (course relay p actions m).phase ≠ .idle := by
    induction m, le using Nat.le_induction with
    | base => exact out
    | succ m _ ih =>
      exact phase_act_ne_idle (h.course m) (actions m) (value_course h told stays m) ih
  obtain ⟨m, le, ended⟩ : ∃ m, n ≤ m ∧ (course relay p actions m).phase ≠ .cycling := by
    by_cases cycling : (course relay p actions n).phase = .cycling
    · exact cycle_ends h fair cycling
    · exact ⟨n, Nat.le_refl n, cycling⟩
  refine ⟨m, ?_⟩
  cases phase : (course relay p actions m).phase with
  | idle => exact absurd phase (never le)
  | cycling => exact absurd phase ended
  | stopped => rfl

end Fair

/-! ### Altogether -/

/-- What is to be expected of a poller from here on, in every course of events. -/
structure HeedsWord (relay : Relay) (p : Poller σ) : Prop where
  /-- Once the value is there to stay, at most one cycle begins, and one does exactly if a tick is
  taken between two cycles: before the word is heard, or where it is not to be heard at all. -/
  begun : p.line.value → ∀ actions : List (Action σ), .take (.say false) ∉ actions →
    cyclesBegun relay p actions ≤ 1 ∧
      (cyclesBegun relay p actions = 1 ↔ ∃ early preference late,
        actions = early ++ .poll preference :: late ∧ (p.run relay early).TakesTick preference)
  /-- Only its own result, whatever that is, ends a cycle; the value then decides what follows. -/
  ended : p.phase = .cycling → ∀ action, (p.act relay action).phase ≠ .cycling →
    ∃ preference time result, action = .poll preference ∧
      (p.session.resume relay ()).resultOf () = some (time, result) ∧
      (p.act relay action).phase = if p.line.value then .stopped else .idle
  finishes : p.phase = .cycling → ∀ actions, Fair relay p actions →
    ∃ n, (course relay p actions n).phase ≠ .cycling
  exits : p.line.value → ∀ actions, (∀ n, actions n ≠ .take (.say false)) →
    Fair relay p actions → ∃ n, (course relay p actions n).phase = .stopped

/-- Whatever happened before, and whenever and in whatever order ticks, turns and words come. -/
theorem heeds_word (relay : Relay) {state : RelayState σ} {stopAtOnce : Bool} {start : Poller σ}
    (started : start? relay state stopAtOnce = some start) (before : List (Action σ)) :
    HeedsWord relay (start.run relay before) := by
  have sound : (start.run relay before).Sound := (sound_of_start? started).run before
  refine ⟨fun told actions stays => ?_, fun cycling action out => ended_act sound cycling out,
    fun cycling actions fair => ?_, fun told actions stays fair =>
      stops_of_fair sound told stays fair⟩
  · have one : cyclesBegun relay (start.run relay before) actions ≤ 1 :=
      cyclesBegun_le_one sound told stays
    refine ⟨one, ?_⟩
    rw [← cyclesBegun_pos_iff sound actions]
    omega
  · obtain ⟨n, _, out⟩ := cycle_ends (n := 0) sound fair cycling
    exact ⟨n, out⟩

def fresh (stopAtOnce : Bool) : Poller MemoryStore where
  session := .uncalled (Session.oneWaiting.note [startedEntry Session.silentRelay])
  ticker := ⟨Session.silentRelay.plan.pollInterval, by decide, .start⟩
  line := ⟨stopAtOnce, false⟩
  phase := .idle

theorem start?_silent (stopAtOnce : Bool) :
    start? Session.silentRelay Session.oneWaiting stopAtOnce = some (fresh stopAtOnce) := rfl

/-- The word comes when a cycle has claimed its batch. The cycle goes on, no other one begins, and
the poller stops. -/
theorem heeds_word_of_claimed :
    let told := (fresh false).run Session.silentRelay
      [.poll .tick, .poll .tick, .poll .tick, .take (.say true)]
    told.phase = .cycling ∧
      (∀ preference, cyclesBegun Session.silentRelay told [.poll preference] = 0) ∧
      ∃ n, (course Session.silentRelay told
        (fun n => if n % 2 = 0 then .wait ⟨n⟩ else .poll .tick) n).phase = .stopped := by
  have heeds := heeds_word Session.silentRelay (start?_silent false)
    [.poll .tick, .poll .tick, .poll .tick, .take (.say true)]
  refine ⟨rfl, fun preference => rfl,
    heeds.exits rfl _ (fun n => ?_) (fair_of_alternating _ _ _)⟩
  split <;> nofun

/-- The word is there, and a cycle begins: a tick was there as well and is taken first, or the
value was set before the poller came. -/
theorem begins_after_word :
    (((fresh false).run Session.silentRelay [.take (.say true)]).line.value ∧
      cyclesBegun Session.silentRelay ((fresh false).run Session.silentRelay [.take (.say true)])
        [.poll .tick] = 1) ∧
    (fresh true).line.value ∧
      ∀ preference, cyclesBegun Session.silentRelay (fresh true) [.poll preference] = 1 := by
  refine ⟨⟨rfl, rfl⟩, rfl, fun preference => ?_⟩
  cases preference <;> rfl

end OutboxRelay.Poller
