import OutboxRelay.Dispatch.Session
import OutboxRelay.Proofs.Dispatch.BatchMoves
import OutboxRelay.Store.Memory

/-! Overlapping calls for a cycle. A call in progress moves in the small steps of its batch, and may
be given up between any two of them; calls, time and other clients come in between as they like.
Through all of this the mark is set exactly while a call is in progress, and there is never more
than one. -/

namespace OutboxRelay.Session

/-- At most one call is past the mark, and the mark is set exactly while there is one. -/
structure Exclusive {ι σ : Type} (s : Session ι σ) : Prop where
  one : s.active.length ≤ 1
  marked : s.running = true ↔ s.active ≠ []

section Mark

variable {ι σ : Type} {s : Session ι σ}

theorem exclusive_of_idle (free : s.running = false) (idle : s.active = []) : s.Exclusive :=
  ⟨by simp [idle], by simp [free, idle]⟩

theorem begin_of_active (h : s.Exclusive) (busy : s.active ≠ []) (id : ι) :
    s.begin id = { s with
      state := s.state.note [skippedEntry]
      ended := (id, s.state.now, .ok .ofSkipped) :: s.ended } :=
  if_pos (h.marked.2 busy)

theorem begin_of_idle (h : s.Exclusive) (idle : s.active = []) (id : ι) :
    s.begin id = { s with running := true, active := [(id, .checking)] } := by
  have free : ¬ s.running = true := fun set => h.marked.1 set idle
  rw [Session.begin, if_neg free, idle]

theorem Exclusive.begin (h : s.Exclusive) (id : ι) : (s.begin id).Exclusive := by
  by_cases idle : s.active = []
  · rw [begin_of_idle h idle]
    exact ⟨Nat.le_refl _, by simp⟩
  · rw [begin_of_active h idle]
    exact ⟨h.one, h.marked⟩

theorem Exclusive.advance (h : s.Exclusive) (now : Instant) : (s.advance now).Exclusive :=
  ⟨by simpa [Session.advance] using h.one, by simpa [Session.advance] using h.marked⟩

theorem map_fst_advance (now : Instant) : (s.advance now).active.map (·.1) = s.active.map (·.1) := by
  simp [Session.advance, Function.comp_def]

end Mark

section Phases

variable {ι σ : Type} [DecidableEq ι] {s : Session ι σ} {id : ι} {phase : Phase}

theorem Exclusive.active_of_lookup (h : s.Exclusive) (found : s.active.lookup id = some phase) :
    s.active = [(id, phase)] := by
  have one := h.one
  cases active : s.active with
  | nil => simp [active] at found
  | cons call rest =>
    rw [active] at found one
    obtain rfl : rest = [] := List.eq_nil_of_length_eq_zero (by simpa using one)
    obtain ⟨id', phase'⟩ := call
    rw [List.lookup_cons] at found
    split at found
    · rename_i same
      cases found
      rw [eq_of_beq same]
    · cases found

theorem Exclusive.move (h : s.Exclusive) (id : ι) (state : RelayState σ) (phase : Phase) :
    (s.move id state phase).Exclusive :=
  ⟨by simpa [Session.move] using h.one, by simpa [Session.move] using h.marked⟩

theorem map_fst_move (id : ι) (state : RelayState σ) (phase : Phase) :
    (s.move id state phase).active.map (·.1) = s.active.map (·.1) := by
  simp [Session.move, Function.comp_def]

theorem active_move (active : s.active = [(id, phase)]) (state : RelayState σ) (next : Phase) :
    (s.move id state next).active = [(id, next)] := by
  simp [Session.move, active]

theorem move_self (active : s.active = [(id, phase)]) : s.move id s.state phase = s := by
  have same : (s.move id s.state phase).active = s.active :=
    (active_move active _ _).trans active.symm
  calc s.move id s.state phase = { s with active := (s.move id s.state phase).active } := rfl
    _ = s := by rw [same]

theorem move_move (active : s.active = [(id, phase)]) (state later : RelayState σ)
    (next last : Phase) :
    (s.move id state next).move id later last = s.move id later last := by
  simp [Session.move, active]

theorem finish_move (active : s.active = [(id, phase)]) (state later : RelayState σ) (next : Phase)
    (result : CycleResult) :
    (s.move id state next).finish id later result = s.finish id later result := by
  simp [Session.move, Session.finish, active]

theorem Exclusive.finish (h : s.Exclusive) (found : s.active.lookup id = some phase)
    (state : RelayState σ) (result : CycleResult) :
    (s.finish id state result).Exclusive ∧ (s.finish id state result).active = [] := by
  have none : (s.finish id state result).active = [] := by
    simp [Session.finish, h.active_of_lookup found]
  exact ⟨exclusive_of_idle rfl none, none⟩

theorem Exclusive.drop (h : s.Exclusive) (id : ι) :
    (s.drop id).Exclusive ∧ (s.drop id = s ∨ (s.drop id).active = []) := by
  unfold Session.drop
  cases found : s.active.lookup id with
  | none => exact ⟨h, .inl rfl⟩
  | some phase =>
    have none : s.active.filter (·.1 ≠ id) = [] := by simp [h.active_of_lookup found]
    exact ⟨exclusive_of_idle rfl none, .inr none⟩

end Phases

variable {ι σ : Type} [DecidableEq ι] [Outbox σ] {relay : Relay} {s s' : Session ι σ}

/-- What can happen to a dispatcher besides another call for a cycle. -/
inductive Move (relay : Relay) (s : Session ι σ) : Session ι σ → Prop
  | check {id} (phase : s.active.lookup id = some .checking) :
      Move relay s (s.move id (Cycle.check relay s.state) .claiming)
  | claim {id state batch} (phase : s.active.lookup id = some .claiming)
      (claimed : Cycle.claim relay s.state = (state, .inl batch)) :
      Move relay s (s.move id state (.delivering batch))
  | claimNone {id state result} (phase : s.active.lookup id = some .claiming)
      (claimed : Cycle.claim relay s.state = (state, .inr result)) :
      Move relay s (s.finish id state result)
  | deliver {id batch state batch'} (phase : s.active.lookup id = some (.delivering batch))
      (move : Batch.Move relay (s.state, batch) (state, batch')) :
      Move relay s (s.move id state (.delivering batch'))
  | report {id batch} (phase : s.active.lookup id = some (.delivering batch))
      (ended : batch.isOver) :
      Move relay s (s.finish id (Cycle.close s.state batch).1 (Cycle.close s.state batch).2)
  | drop (id : ι) : Move relay s (s.drop id)
  | advance (now : Instant) : Move relay s (s.advance now)
  | elsewhere (change : σ → σ) :
      Move relay s { s with state := { s.state with store := change s.state.store } }

def Moves (relay : Relay) : Session ι σ → Session ι σ → Prop := Relation.ReflTransGen (Move relay)

def Happens (relay : Relay) (s s' : Session ι σ) : Prop := (∃ id, s' = s.begin id) ∨ Move relay s s'

def Course (relay : Relay) : Session ι σ → Session ι σ → Prop :=
  Relation.ReflTransGen (Happens relay)

theorem Moves.course (moves : Moves relay s s') : Course relay s s' :=
  moves.lift id fun _ _ move => .inr move

theorem Exclusive.of_move (h : s.Exclusive) (step : Move relay s s') :
    s'.Exclusive ∧ (s'.active.map (·.1) = s.active.map (·.1) ∨ s'.active = []) := by
  cases step with
  | check phase => exact ⟨h.move .., .inl (map_fst_move ..)⟩
  | claim phase claimed => exact ⟨h.move .., .inl (map_fst_move ..)⟩
  | claimNone phase claimed =>
    obtain ⟨exclusive, none⟩ := h.finish phase _ _
    exact ⟨exclusive, .inr none⟩
  | deliver phase move => exact ⟨h.move .., .inl (map_fst_move ..)⟩
  | report phase ended =>
    obtain ⟨exclusive, none⟩ := h.finish phase _ _
    exact ⟨exclusive, .inr none⟩
  | drop id =>
    obtain ⟨exclusive, same | none⟩ := h.drop id
    · exact ⟨exclusive, .inl (by rw [same])⟩
    · exact ⟨exclusive, .inr none⟩
  | advance now => exact ⟨h.advance now, .inl (map_fst_advance now)⟩
  | elsewhere change => exact ⟨⟨h.one, h.marked⟩, .inl rfl⟩

theorem Exclusive.of_happens (h : s.Exclusive) (step : Happens relay s s') : s'.Exclusive := by
  rcases step with ⟨id, rfl⟩ | move
  · exact h.begin id
  · exact (h.of_move move).1

theorem Exclusive.of_course (h : s.Exclusive) (course : Course relay s s') : s'.Exclusive := by
  induction course with
  | refl => exact h
  | tail _ step ih => exact ih.of_happens step

theorem idle_of_moves (h : s.Exclusive) (idle : s.active = []) (moves : Moves relay s s') :
    s'.active = [] := by
  induction moves with
  | refl => exact idle
  | tail before move ih =>
    rcases ((h.of_course (Moves.course before)).of_move move).2 with same | none
    · rw [ih] at same
      exact List.map_eq_nil_iff.1 same
    · exact none

/-! ### The actions of a session are moves -/

section Actions

variable {id : ι} {batch : Batch}

theorem moves_deliver {x : RelayState σ × Batch}
    (moves : Batch.Moves relay (s.state, batch) x) (active : s.active = [(id, .delivering batch)]) :
    Moves relay s (s.move id x.1 (.delivering x.2)) := by
  induction moves with
  | refl =>
    rw [move_self active]
    exact .refl
  | @tail y z _ move ih =>
    have phase : (s.move id y.1 (.delivering y.2)).active.lookup id = some (.delivering y.2) := by
      rw [active_move active, List.lookup_cons_self]
    -- The session stores the batch anew at each move; only the last one stays.
    have next := Move.deliver (s := s.move id y.1 (.delivering y.2)) phase move
    rw [move_move active] at next
    exact ih.tail next

theorem moves_takeBatch {state : RelayState σ} {batch' : Batch}
    (moves : Batch.Moves relay (s.state, batch) (state, batch'))
    (active : s.active = [(id, .delivering batch)]) :
    Moves relay s (s.takeBatch id state batch') := by
  have delivered := moves_deliver moves active
  unfold takeBatch
  split
  · rename_i ended
    have phase : (s.move id state (.delivering batch')).active.lookup id =
        some (.delivering batch') := by
      rw [active_move active, List.lookup_cons_self]
    have last : Move relay (s.move id state (.delivering batch'))
        ((s.move id state (.delivering batch')).finish id (Cycle.close state batch').1
          (Cycle.close state batch').2) := .report phase ended
    rw [finish_move active] at last
    exact delivered.tail last
  · exact delivered

theorem moves_resume (h : s.Exclusive) (id : ι) : Moves relay s (s.resume relay id) := by
  unfold Session.resume
  split
  · exact .refl
  · rename_i phase
    exact .single (.check phase)
  · rename_i phase
    split
    · rename_i claimed
      exact .single (.claim phase claimed)
    · rename_i claimed
      exact .single (.claimNone phase claimed)
  · rename_i batch phase
    exact moves_takeBatch (Batch.moves_drain relay s.state batch) (h.active_of_lookup phase)

theorem course_act (h : s.Exclusive) (action : Action ι σ) : Course relay s (s.act relay action) := by
  cases action with
  | begin id => exact .single (.inl ⟨id, rfl⟩)
  | resume id => exact (moves_resume h id).course
  | drop id => exact .single (.inr (.drop id))
  | advance now => exact .single (.inr (.advance now))
  | elsewhere change => exact .single (.inr (.elsewhere change))

theorem course_acts (h : s.Exclusive) (actions : List (Action ι σ)) :
    Course relay s (actions.foldl (act relay) s) := by
  induction actions generalizing s with
  | nil => exact .refl
  | cons action rest ih =>
    have first : Course relay s (s.act relay action) := course_act h action
    exact first.trans (ih (h.of_course first))

end Actions

def uncalled (state : RelayState σ) : Session ι σ := ⟨state, false, [], []⟩

/-- What calls for cycles mean to each other in this situation. -/
structure KeepsApart (relay : Relay) (s : Session ι σ) : Prop where
  one : s.active.length ≤ 1
  skips : ∀ call ∈ s.active, ∀ id, s.begin id = { s with
    state := s.state.note [skippedEntry]
    ended := (id, s.state.now, .ok .ofSkipped) :: s.ended }
  admits : ∀ call ∈ s.active, ∀ ended, Move relay s ended → call.1 ∉ ended.active.map (·.1) →
    ∀ later, Moves relay ended later → ∀ id,
      later.begin id = { later with running := true, active := [(id, .checking)] }

theorem Exclusive.keepsApart (h : s.Exclusive) : KeepsApart relay s := by
  refine ⟨h.one, fun call mem id => begin_of_active h (List.ne_nil_of_mem mem) id, ?_⟩
  intro call mem ended move gone later moves id
  obtain ⟨exclusive, same | none⟩ := h.of_move move
  · exact absurd (same ▸ List.mem_map_of_mem mem) gone
  · exact begin_of_idle (exclusive.of_course (Moves.course moves))
      (idle_of_moves exclusive none moves) id

/-- Calls for cycles of one dispatcher, in any interleaving and with any ends, keep apart. A session
that follows a list of actions is one of these courses. -/
theorem calls_keep_apart (relay : Relay) (state : RelayState σ) :
    (∀ actions : List (Action ι σ),
      Course relay (uncalled state) (actions.foldl (act relay) (uncalled state))) ∧
    ∀ s : Session ι σ, Course relay (uncalled state) s → KeepsApart relay s := by
  have start : (uncalled state : Session ι σ).Exclusive := exclusive_of_idle rfl rfl
  exact ⟨course_acts start, fun s course => (start.of_course course).keepsApart⟩

def silentRelay : Relay where
  targets := [⟨"orders", .direct "silent"⟩]
  retry := .once
  breaker := .standard
  plan := .standard
  react _ _ _ _ _ := .never

def oneWaiting : RelayState MemoryStore :=
  .initial (MemoryStore.empty.persist ⟨0⟩ ⟨"Order", "order-1", "OrderPlaced", "p", .empty⟩).2

def claimedByFirst : Session Nat MemoryStore :=
  [Action.begin 0, .resume 0, .resume 0].foldl (act silentRelay) (uncalled oneWaiting)

/-- Call 1 is skipped, call 0 is given up, and call 2 is let in. -/
theorem calls_keep_apart_of_dropped :
    claimedByFirst.active.map (·.1) = [0] ∧
      (claimedByFirst.begin 1).resultOf 1 = some (.start, .ok .ofSkipped) ∧
      ((claimedByFirst.drop 0).begin 2).active.map (·.1) = [2] := by
  have course := (calls_keep_apart silentRelay oneWaiting).1 [.begin 0, .resume 0, .resume 0]
  have apart := (calls_keep_apart silentRelay oneWaiting).2 claimedByFirst course
  obtain ⟨call, active⟩ : ∃ call, claimedByFirst.active = [call] := ⟨_, rfl⟩
  have mem : call ∈ claimedByFirst.active := active ▸ List.mem_cons_self
  refine ⟨rfl, ?_, ?_⟩
  · rw [apart.skips call mem 1]
    rfl
  · rw [apart.admits call mem _ (.drop 0) List.not_mem_nil _ .refl 2]
    rfl

end OutboxRelay.Session
