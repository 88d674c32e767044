import OutboxRelay.Proofs.Breaker.Run

/-! The cooldown of an open circuit. From the instant of an opening on, and for as long as the
cooldown lasts, calls are rejected and the breaker stays as it is, up to the first success of a call
that was in flight when the circuit opened; that success closes the circuit early. -/

namespace OutboxRelay.Breaker.Session

variable {ι : Type}

theorem cooledDown_eq_false {b : Breaker} {c : BreakerConfig} {t now : Instant}
    (opening : b.openedAt = some t) (past : t.nanos ≤ now.nanos)
    (early : now.nanos < t.nanos + c.openDuration.nanos) : b.cooledDown c now = false := by
  have short : now.nanos - t.nanos < c.openDuration.nanos := by omega
  simp only [cooledDown, opening, Instant.elapsed]
  exact decide_eq_false (Nat.not_le.2 short)

/-- The cooldown that began at `t` is not over yet. -/
structure Cooling (s : Session ι) (t : Instant) : Prop where
  opened : s.breaker.circuit = .opened
  stamped : s.breaker.openedAt = some t
  past : t.nanos ≤ s.now.nanos
  early : s.now.nanos < t.nanos + s.config.openDuration.nanos

theorem Cooling.hot {s : Session ι} {t : Instant} (h : s.Cooling t) :
    s.breaker.cooledDown s.config s.now = false :=
  cooledDown_eq_false h.stamped h.past h.early

variable [DecidableEq ι]

theorem Cooling.begin {s : Session ι} {t : Instant} (h : s.Cooling t) (id : ι) :
    s.step (.begin id) = (s, .rejected) := begin_of_opened h.opened h.hot id

theorem breaker_run_of_cooling {s : Session ι} {t : Instant} {run : List (Action ι)}
    (opened : s.breaker.circuit = .opened) (stamped : s.breaker.openedAt = some t)
    (past : t.nanos ≤ s.now.nanos)
    (early : (s.run run).now.nanos < t.nanos + s.config.openDuration.nanos)
    (quiet : s.Throughout (fun s a => ¬ s.Succeeds a) run) :
    (s.run run).breaker = s.breaker ∧ (s.run run).Cooling t := by
  induction run generalizing s with
  | nil => exact ⟨rfl, opened, stamped, past, early⟩
  | cons a rest ih =>
    have now : s.now.nanos ≤ (s.run (a :: rest)).now.nanos := now_le_run s (a :: rest)
    have cooling : s.Cooling t := ⟨opened, stamped, past, by omega⟩
    have same := breaker_step_of_opened opened cooling.hot quiet.1
    rw [run_cons] at early ⊢
    rw [← same]
    exact ih (by rw [same]; exact opened) (by rw [same]; exact stamped)
      (Nat.le_trans past (now_le_step s a)) (by rw [config_step]; exact early) quiet.2

/-- After an opening, within the cooldown: all calls are rejected and leave the session as it is,
and the breaker stays as the opening left it, exactly as long as no call in flight succeeds. -/
theorem cooldown_kept_iff (s : Session ι) (a : Action ι) (after : List (Action ι))
    (shut : s.breaker.circuit ≠ .opened) (opens : (s.step a).1.breaker.circuit = .opened)
    (early : ((s.step a).1.run after).now.nanos < s.now.nanos + s.config.openDuration.nanos) :
    (∀ past, past <+: after →
        ((s.step a).1.run past).breaker = (s.step a).1.breaker ∧
        ∀ id, ((s.step a).1.run past).step (.begin id) = ((s.step a).1.run past, .rejected)) ↔
      (s.step a).1.Throughout (fun s a => ¬ s.Succeeds a) after := by
  obtain ⟨stamped, now⟩ := openedAt_of_opens shut opens
  rw [← now, ← config_step s a] at early
  generalize (s.step a).1 = o at *
  constructor
  · intro kept
    -- a success closes the circuit, whatever it was
    refine throughout_iff.2 fun past b hp success => ?_
    have closed : (o.run (past ++ [b])).breaker = .initial := by
      rw [run_append]
      exact breaker_step_of_succeeds success
    have same := (kept (past ++ [b]) hp).1
    rw [closed] at same
    rw [← same] at opens
    cases opens
  · rintro quiet past ⟨rest, rfl⟩
    have le : (o.run past).now.nanos ≤ (o.run (past ++ rest)).now.nanos := by
      rw [run_append]
      exact now_le_run _ rest
    have outlasts := breaker_run_of_cooling opens stamped (Nat.le_of_eq (by rw [now]))
      (Nat.lt_of_le_of_lt le (now ▸ early)) (quiet.of_prefix (List.prefix_append past rest))
    exact ⟨outlasts.1, outlasts.2.begin⟩

def overtaken : Session Nat := (start ⟨"test", 1, .ofMillis 1000⟩).run [.begin 0, .begin 1]

def overtaking : Action Nat := .finish 1 (.error (.unavailable "kafka" "down"))

theorem cooldown_kept_iff_of_dropped :
    overtaken.breaker.circuit ≠ .opened ∧
      (overtaken.step overtaking).1.breaker.circuit = .opened ∧
      ∀ past, past <+: [.advance 5, .drop 0] →
        ((overtaken.step overtaking).1.run past).breaker = (overtaken.step overtaking).1.breaker ∧
        ∀ id, ((overtaken.step overtaking).1.run past).step (.begin id) =
          ((overtaken.step overtaking).1.run past, .rejected) := by
  refine ⟨by decide, by decide, ?_⟩
  exact (cooldown_kept_iff overtaken overtaking _ (by decide) (by decide) (by decide)).2 (by decide)

/-- The success of a call that was in flight at the opening ends the cooldown at once. -/
theorem late_success_ends_cooldown :
    ¬ ∀ (s : Session Nat) (a : Action Nat) (after : List (Action Nat)),
      s.breaker.circuit ≠ .opened → (s.step a).1.breaker.circuit = .opened →
      ((s.step a).1.run after).now.nanos < s.now.nanos + s.config.openDuration.nanos →
      ∀ id, ((s.step a).1.run after).step (.begin id) = ((s.step a).1.run after, .rejected) := by
  intro kept
  have rejected := kept overtaken overtaking [.finish 0 (.ok ())]
    (by decide) (by decide) (by decide) 2
  have admitted : (((overtaken.step overtaking).1.run [.finish 0 (.ok ())]).step (.begin 2)).2 =
      .pending := begin_of_closed (by decide) 2
  rw [rejected] at admitted
  cases admitted

end OutboxRelay.Breaker.Session
