import OutboxRelay.Breaker.Session

/-! Runs of a circuit breaker under overlapping calls. What an action does depends on the session
that it meets, so a condition on a run is a condition `Throughout` it. Main statements: the breaker
of an open circuit changes only by a success or after the cooldown, and a half-open one only by the
end of a call in flight. -/

namespace OutboxRelay.Breaker.Session

variable {ι : Type} [DecidableEq ι]

theorem run_cons (s : Session ι) (a : Action ι) (rest : List (Action ι)) :
    s.run (a :: rest) = (s.step a).1.run rest := rfl

theorem run_append (s : Session ι) (xs ys : List (Action ι)) :
    s.run (xs ++ ys) = (s.run xs).run ys := List.foldl_append ..

/-- The action ends a call that is in flight. -/
def Ends (s : Session ι) : Action ι → Prop
  | .finish id _ => id ∈ s.inFlight
  | .drop id => id ∈ s.inFlight
  | _ => False

/-- The action is the success of a call that is in flight. -/
def Succeeds (s : Session ι) : Action ι → Prop
  | .finish id (.ok _) => id ∈ s.inFlight
  | _ => False

instance (s : Session ι) : (a : Action ι) → Decidable (s.Ends a)
  | .begin _ | .advance _ => inferInstanceAs (Decidable False)
  | .finish id _ => inferInstanceAs (Decidable (id ∈ s.inFlight))
  | .drop id => inferInstanceAs (Decidable (id ∈ s.inFlight))

instance (s : Session ι) : (a : Action ι) → Decidable (s.Succeeds a)
  | .begin _ | .advance _ | .drop _ | .finish _ (.error _) => inferInstanceAs (Decidable False)
  | .finish id (.ok _) => inferInstanceAs (Decidable (id ∈ s.inFlight))

def Throughout (P : Session ι → Action ι → Prop) (s : Session ι) : List (Action ι) → Prop
  | [] => True
  | a :: rest => P s a ∧ Throughout P (s.step a).1 rest

instance instDecidableThroughout {P : Session ι → Action ι → Prop} [∀ s a, Decidable (P s a)]
    (s : Session ι) : (run : List (Action ι)) → Decidable (s.Throughout P run)
  | [] => inferInstanceAs (Decidable True)
  | a :: rest =>
    have : Decidable (Throughout P (s.step a).1 rest) := instDecidableThroughout (s.step a).1 rest
    inferInstanceAs (Decidable (P s a ∧ _))

theorem throughout_iff {P : Session ι → Action ι → Prop} {s : Session ι} {run : List (Action ι)} :
    Throughout P s run ↔ ∀ past a, past ++ [a] <+: run → P (s.run past) a := by
  induction run generalizing s with
  | nil => simp [Throughout]
  | cons b rest ih =>
    rw [Throughout, ih]
    constructor
    · rintro ⟨first, later⟩ past a h
      cases past with
      | nil =>
        obtain ⟨rfl, -⟩ := List.cons_prefix_cons.1 h
        exact first
      | cons c past =>
        obtain ⟨rfl, tail⟩ := List.cons_prefix_cons.1 h
        exact later past a tail
    · intro h
      refine ⟨h [] b (by simp), fun past a hp => ?_⟩
      exact h (b :: past) a (List.cons_prefix_cons.2 ⟨rfl, hp⟩)

theorem Throughout.of_prefix {P : Session ι → Action ι → Prop} {s : Session ι}
    {past run : List (Action ι)} (h : Throughout P s run) (hp : past <+: run) :
    Throughout P s past :=
  throughout_iff.2 fun xs a hx => throughout_iff.1 h xs a (hx.trans hp)

@[simp] theorem config_step (s : Session ι) (a : Action ι) : (s.step a).1.config = s.config := by
  cases a with
  | begin id => simp only [step]; split <;> rfl
  | finish id outcome => simp only [step]; split <;> rfl
  | drop id => simp only [step]; split <;> rfl
  | advance nanos => rfl

@[simp] theorem config_run (s : Session ι) (run : List (Action ι)) :
    (s.run run).config = s.config := by
  induction run generalizing s with
  | nil => rfl
  | cons a rest ih => rw [run_cons, ih, config_step]

theorem now_le_step (s : Session ι) (a : Action ι) : s.now.nanos ≤ (s.step a).1.now.nanos := by
  cases a with
  | begin id => simp only [step]; split <;> exact Nat.le_refl _
  | finish id outcome => simp only [step]; split <;> exact Nat.le_refl _
  | drop id => simp only [step]; split <;> exact Nat.le_refl _
  | advance nanos => exact Nat.le_add_right _ _

theorem now_le_run (s : Session ι) (run : List (Action ι)) :
    s.now.nanos ≤ (s.run run).now.nanos := by
  induction run generalizing s with
  | nil => exact Nat.le_refl _
  | cons a rest ih => exact Nat.le_trans (now_le_step s a) (ih _)

/-! ### The open circuit -/

theorem breaker_step_of_succeeds {s : Session ι} {a : Action ι} (h : s.Succeeds a) :
    (s.step a).1.breaker = .initial := by
  cases a with
  | finish id outcome =>
    cases outcome with
    | ok _ =>
      have flying : id ∈ s.inFlight := h
      simp [step, flying, close, settle, succeed]
    | error e => exact h.elim
  | _ => exact h.elim

theorem begin_of_closed {s : Session ι} (h : s.breaker.circuit = .closed) (id : ι) :
    (s.step (.begin id)).2 = .pending := by
  simp only [step, request, h]

theorem begin_of_opened {s : Session ι} (opened : s.breaker.circuit = .opened)
    (hot : s.breaker.cooledDown s.config s.now = false) (id : ι) :
    s.step (.begin id) = (s, .rejected) := by
  simp [step, request, opened, hot]

theorem breaker_step_of_opened {s : Session ι} {a : Action ι}
    (opened : s.breaker.circuit = .opened) (hot : s.breaker.cooledDown s.config s.now = false)
    (h : ¬ s.Succeeds a) : (s.step a).1.breaker = s.breaker := by
  cases a with
  | begin id => rw [begin_of_opened opened hot]
  | finish id outcome =>
    cases outcome with
    | ok _ =>
      have landed : id ∉ s.inFlight := h
      simp [step, landed]
    | error e =>
      simp only [step]
      split
      · simp [close, settle, fail, opened]
      · rfl
  | drop id =>
    simp only [step]
    split
    · simp [close, abandon, opened]
    · rfl
  | advance nanos => rfl

theorem openedAt_of_opens {s : Session ι} {a : Action ι} (shut : s.breaker.circuit ≠ .opened)
    (opens : (s.step a).1.breaker.circuit = .opened) :
    (s.step a).1.breaker.openedAt = some s.now ∧ (s.step a).1.now = s.now := by
  cases a with
  | begin id =>
    simp only [step, request] at opens ⊢
    cases hc : s.breaker.circuit <;> simp_all
  | finish id outcome =>
    simp only [step] at opens ⊢
    split at opens
    · rename_i flying
      simp only [flying, if_true, close, settle] at opens ⊢
      cases outcome with
      | ok _ => simp [succeed, initial] at opens
      | error e =>
        simp only [fail] at opens ⊢
        cases hc : s.breaker.circuit with
        | opened => exact absurd hc shut
        | halfOpen => simp
        | closed =>
          simp only [hc] at opens ⊢
          split at opens
          · rename_i enough
            simp [enough]
          · simp at opens
    · exact absurd opens shut
  | drop id =>
    simp only [step] at opens ⊢
    split at opens
    · rename_i flying
      simp only [flying, if_true, close, abandon] at opens ⊢
      split at opens
      · rename_i half
        simp [half]
      · exact absurd opens shut
    · exact absurd opens shut
  | advance nanos => exact absurd opens shut

/-! ### The half-open circuit -/

theorem begin_of_halfOpen {s : Session ι} (h : s.breaker.circuit = .halfOpen) (id : ι) :
    s.step (.begin id) = (s, .rejected) := by
  simp [step, request, h]

theorem breaker_step_of_halfOpen {s : Session ι} {a : Action ι}
    (half : s.breaker.circuit = .halfOpen) (h : ¬ s.Ends a) :
    (s.step a).1.breaker = s.breaker := by
  cases a with
  | begin id => rw [begin_of_halfOpen half]
  | finish id outcome =>
    have landed : id ∉ s.inFlight := h
    simp [step, landed]
  | drop id =>
    have landed : id ∉ s.inFlight := h
    simp [step, landed]
  | advance nanos => rfl

theorem circuit_step_of_ends {s : Session ι} {a : Action ι}
    (half : s.breaker.circuit = .halfOpen) (h : s.Ends a) :
    (s.step a).1.breaker.circuit ≠ .halfOpen := by
  cases a with
  | finish id outcome =>
    have flying : id ∈ s.inFlight := h
    cases outcome <;> simp [step, flying, close, settle, succeed, fail, half, initial]
  | drop id =>
    have flying : id ∈ s.inFlight := h
    simp [step, flying, close, abandon, half]
  | _ => exact h.elim

end OutboxRelay.Breaker.Session
