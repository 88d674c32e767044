import OutboxRelay.Dispatch.Session
import OutboxRelay.Proofs.Dispatch.Roster

/-! A call for a cycle that finds no other one in progress, and that nobody gives up, is a whole
cycle. So what is proved of `Cycle.run` holds of every such call. -/

namespace OutboxRelay

namespace Batch

variable {σ : Type} [Outbox σ] {relay : Relay} {s : RelayState σ} {b : Batch}

theorem drain_of_step_eq_none (h : b.step relay s = none) : b.drain relay s = (s, b) := by
  rw [drain]
  split
  · rename_i s' b' step
    rw [h] at step
    cases step
  · rfl

theorem runTo_drain (relay : Relay) (limit : Option Instant) (s : RelayState σ) (b : Batch) :
    (b.drain relay s).2.runTo relay limit (b.drain relay s).1 = b.runTo relay limit s := by
  unfold runTo
  simp only [drain_of_step_eq_none (step_drain relay s b)]

omit [Outbox σ] in
theorem nextDue_of_isOver (h : b.isOver) : b.nextDue = none := by
  simp only [isOver, Bool.and_eq_true, List.isEmpty_iff] at h
  simp [nextDue, timers, h.2]

theorem follow_of_isOver (h : b.isOver) (limit : Option Instant) (rest : b.ready = []) :
    b.follow relay limit s rest = (s, b) := by
  rw [follow]
  split
  · rfl
  · rename_i due next
    rw [nextDue_of_isOver h] at next
    cases next

theorem runTo_of_isOver_drain (h : (b.drain relay s).2.isOver) (limit : Option Instant) :
    b.runTo relay limit s = b.drain relay s :=
  follow_of_isOver h limit _

end Batch

namespace Session

variable {ι σ : Type} [DecidableEq ι] [Outbox σ]

theorem runTo_resume_delivering (relay : Relay) {s : Session ι σ} {id : ι} (events : List Event)
    (active : s.active = [(id, .delivering (.ofEvents events))]) :
    (s.resume relay id).runTo relay none =
      s.finish id
        (Cycle.close ((Batch.ofEvents events).runTo relay none s.state).1
          ((Batch.ofEvents events).runTo relay none s.state).2).1
        (Cycle.close ((Batch.ofEvents events).runTo relay none s.state).1
          ((Batch.ofEvents events).runTo relay none s.state).2).2 := by
  have resumed : s.resume relay id = s.takeBatch id
      ((Batch.ofEvents events).drain relay s.state).1
      ((Batch.ofEvents events).drain relay s.state).2 := by
    unfold resume
    rw [active, List.lookup_cons_self]
  rw [resumed]
  by_cases done : ((Batch.ofEvents events).drain relay s.state).2.isOver
  · rw [Batch.runTo_of_isOver_drain done]
    unfold takeBatch
    rw [if_pos done]
    simp [runTo, finish, active]
  · have again := Batch.runTo_drain relay none s.state (Batch.ofEvents events)
    have final := Batch.isOver_runTo relay s.state events
    unfold takeBatch
    rw [if_neg done]
    simp only [runTo, move, active, List.map_cons, List.map_nil, if_true, again, takeBatch, final]
    simp [finish, active]

theorem resume_of_active_nil (relay : Relay) {s : Session ι σ} (idle : s.active = []) (id : ι) :
    s.resume relay id = s := by
  unfold resume
  rw [idle]
  rfl

omit [Outbox σ] in
theorem finish_active {s : Session ι σ} {id : ι} {phase : Phase} (active : s.active = [(id, phase)])
    (state : RelayState σ) (result : CycleResult) : (s.finish id state result).active = [] := by
  simp [finish, active]

theorem callUntil_none (relay : Relay) {s : Session ι σ} (id : ι) (free : s.running = false)
    (idle : s.active = []) :
    (s.callUntil relay id none).state = (Cycle.run relay s.state).1 ∧
      ((s.callUntil relay id none).resultOf id).map (·.2) = some (Cycle.run relay s.state).2 := by
  have begun : (s.begin id).resume relay id =
      { s with
        running := true
        state := Cycle.check relay s.state
        active := [(id, .claiming)] } := by
    simp [begin, resume, move, free, idle]
  unfold callUntil call
  rw [begun]
  unfold Cycle.run
  cases claimed : Cycle.claim relay (Cycle.check relay s.state) with
  | mk state end_ =>
    cases end_ with
    | inl batch =>
      obtain ⟨events, rfl⟩ : ∃ events, batch = .ofEvents events := by
        unfold Cycle.claim at claimed
        split at claimed <;> cases claimed
        exact ⟨_, rfl⟩
      have delivering := runTo_resume_delivering relay (s := { s with
        running := true
        state := state
        active := [(id, .delivering (.ofEvents events))] }) events rfl
      simp only [resume, List.lookup_cons_self, claimed, move, List.map_cons, List.map_nil,
        if_true] at delivering ⊢
      rw [delivering]
      simp [finish, resultOf]
    | inr result =>
      have ended : (Session.resume relay { s with
            running := true
            state := Cycle.check relay s.state
            active := [(id, .claiming)] } id) =
          Session.finish { s with
            running := true
            state := Cycle.check relay s.state
            active := [(id, .claiming)] } id state result := by
        simp [resume, claimed]
      rw [ended, resume_of_active_nil relay (finish_active rfl _ _)]
      simp [runTo, finish, resultOf]

end Session

end OutboxRelay
