import OutboxRelay.Proofs.Dispatch.Alone
import OutboxRelay.Proofs.Dispatch.OneByOne

/-! Cycle after cycle with one circuit breaker. Between the cycles time passes and others work on
the table; within them attempts follow one another, of the same event or of the next one, with and
without pauses. Through all of this one law holds: while the window of an opening lasts, no target
is sent anything and every event that is tried fails at once, and the first attempt after it decides
whether another window begins. -/

namespace OutboxRelay

open Breaker (IsOpening InWindow Driven failedInARow failuresInARow)

/-- What is between two cycles: time passes, others change the table, and from then on certain calls
of the store fail. -/
structure Interlude (σ : Type) where
  nanos : Nat
  change : σ → σ
  faults : Faults

def Interlude.pass {σ : Type} (i : Interlude σ) (s : RelayState (TrialStore σ)) :
    RelayState (TrialStore σ) :=
  { s with
    now := ⟨s.now.nanos + i.nanos⟩
    store := { s.store with inner := i.change s.store.inner, faults := i.faults } }

def Cycle.runs {σ : Type} [Outbox σ] (relay : Relay) (s : RelayState (TrialStore σ)) :
    List (Interlude σ) → RelayState (TrialStore σ) × List Outcome
  | [] => (s, [])
  | i :: rest =>
    let later := runs relay (Cycle.run relay (i.pass s)).1 rest
    (later.1, Cycle.outcomes relay (i.pass s) ++ later.2)

structure Fresh {σ : Type} (s : RelayState (TrialStore σ)) : Prop where
  breaker : s.breaker = .initial
  attempts : s.attempts = []
  calls : s.calls = []
  marks : s.store.calls = []

section Runs

variable {σ : Type} [Outbox σ] {relay : Relay} {errands : List Errand}
  {s : RelayState (TrialStore σ)}

omit [Outbox σ] in
theorem hasDone_of_fresh (fresh : Fresh s) : HasDone relay [] s := by
  refine ⟨⟨fresh.attempts, fresh.calls, ?_, ?_⟩, ?_, nofun⟩
  · rw [fresh.attempts]
    exact nofun
  · rw [fresh.attempts, fresh.breaker]
    exact .fresh
  · rw [TrialStore.marks, fresh.marks]
    rfl

omit [Outbox σ] in
theorem hasDone_pass (h : HasDone relay errands s) (i : Interlude σ) :
    HasDone relay errands (i.pass s) :=
  ⟨h.rest.congr rfl rfl rfl (Nat.le_add_right _ _), h.marks, h.sound⟩

theorem hasDone_runs (narrow : relay.plan.width = 1) (h : HasDone relay errands s)
    (interludes : List (Interlude σ)) : ∃ more,
      HasDone relay (errands ++ more) (Cycle.runs relay s interludes).1 ∧
      (Cycle.runs relay s interludes).2 = more.map (·.outcome) := by
  induction interludes generalizing errands s with
  | nil => exact ⟨[], by rwa [List.append_nil], rfl⟩
  | cons i rest ih =>
    obtain ⟨first, done, outcomes⟩ := hasDone_run narrow (hasDone_pass h i)
    obtain ⟨more, all, later⟩ := ih done
    refine ⟨first ++ more, by rwa [← List.append_assoc], ?_⟩
    rw [Cycle.runs, outcomes, later, List.map_append]

end Runs

/-! ### The law -/

/-- In the window of an attempt no other one is admitted, and the first one after it is. -/
structure KeepsWindows (c : BreakerConfig) (errands : List Errand) : Prop where
  quiet : ∀ past o rest, Errand.allRounds errands = past ++ o :: rest →
    IsOpening c (Round.records past) o.record →
    (∀ letter ∈ Round.letters (past ++ [o]), letter.start.nanos ≤ o.record.finish.nanos) ∧
    ∀ letter ∈ Round.letters rest,
      o.record.finish.nanos + c.openDuration.nanos ≤ letter.start.nanos
  admitted_iff : ∀ past r rest, Errand.allRounds errands = past ++ r :: rest →
    (r.record.admitted = true ↔ ¬ InWindow c (Round.records past) r.record.start)
  /-- An attempt within a window is the end of its event. -/
  failed : ∀ before e after past r rest, errands = before ++ e :: after →
    e.rounds = past ++ r :: rest →
    InWindow c (Round.records (Errand.allRounds before ++ past)) r.record.start →
    r.record.result = .error (.circuitOpen c.name) ∧ r.record.finish = r.record.start ∧
    r.calls = [] ∧ rest = [] ∧ e.outcome.ended = r.record.start ∧
    e.mark = .failed e.outcome.event (PublishError.circuitOpen c.name).message
  counted : ∀ past rest, Errand.allRounds errands = past ++ rest →
    (c.limit ≤ failuresInARow ((Round.records past).map (·.result)) ↔
      c.limit ≤ failedInARow (Round.records past))
  resumed : ∀ past o mid r rest, Errand.allRounds errands = past ++ o :: (mid ++ r :: rest) →
    IsOpening c (Round.records past) o.record →
    (∀ x ∈ mid, x.record.start.nanos < o.record.finish.nanos + c.openDuration.nanos) →
    o.record.finish.nanos + c.openDuration.nanos ≤ r.record.start.nanos →
    r.record.admitted = true ∧
    (∀ e, r.record.result = .error e → IsOpening c (Round.records (past ++ o :: mid)) r.record) ∧
    ∀ value, r.record.result = .ok value →
      failedInARow (Round.records (past ++ o :: (mid ++ [r]))) = 0 ∧
      Driven c (Round.records (past ++ o :: (mid ++ [r]))) .initial

section Law

variable {σ : Type} {relay : Relay} {errands : List Errand} {s : RelayState (TrialStore σ)}
  {past mid rest : List Round} {o r : Round}

theorem records_split (past : List Round) (r : Round) (rest : List Round) :
    Round.records (past ++ r :: rest) = Round.records past ++ r.record :: Round.records rest := by
  simp [Round.records]

theorem HasDone.driven_split (h : HasDone relay errands s)
    (split : Errand.allRounds errands = past ++ r :: rest) :
    Driven relay.breaker (Round.records past ++ r.record :: Round.records rest) s.breaker := by
  rw [← records_split, ← split, ← h.rest.attempts]
  exact h.rest.driven

theorem HasDone.sound_round (h : HasDone relay errands s)
    (split : Errand.allRounds errands = past ++ rest) : ∀ r ∈ past ++ rest, r.Sound := by
  intro r hr
  rw [← split] at hr
  obtain ⟨e, he, own⟩ := List.mem_flatMap.1 hr
  exact ((h.sound e he).rounds r own).1

theorem HasDone.quiet (h : HasDone relay errands s)
    (split : Errand.allRounds errands = past ++ o :: rest)
    (opening : IsOpening relay.breaker (Round.records past) o.record) :
    (∀ letter ∈ Round.letters (past ++ [o]), letter.start.nanos ≤ o.record.finish.nanos) ∧
    ∀ letter ∈ Round.letters rest,
      o.record.finish.nanos + relay.breaker.openDuration.nanos ≤ letter.start.nanos := by
  have driven := h.driven_split split
  have sound := h.sound_round split
  refine ⟨fun letter hl => ?_, fun letter hl => ?_⟩
  · obtain ⟨r, hr, sent⟩ := List.mem_flatMap.1 hl
    rcases List.mem_append.1 hr with old | new
    · have before := ((sound r (List.mem_append_left _ old)).during letter sent).2
      have since := driven.since r.record (List.mem_map_of_mem old)
      have lasts := driven.start_le_finish
      omega
    · cases List.mem_singleton.1 new
      exact ((sound o (List.mem_append_right _ List.mem_cons_self)).during letter sent).2
  · obtain ⟨r, hr, sent⟩ := List.mem_flatMap.1 hl
    have known : r.Sound := sound r (List.mem_append_right _ (List.mem_cons_of_mem _ hr))
    have after := (known.during letter sent).1
    obtain ⟨mid, later, rfl⟩ := List.append_of_mem hr
    -- only an admitted attempt has letters, and in the window it would not have been admitted
    have admitted : r.record.admitted = true := by
      cases flag : r.record.admitted with
      | true => rfl
      | false =>
        rw [known.silent flag] at sent
        cases sent
    have parts : Errand.allRounds errands = (past ++ o :: mid) ++ r :: later := by
      rw [split, List.append_assoc, List.cons_append]
    have again := h.driven_split parts
    have outside := again.admitted_iff.1 admitted
    have ended := again.since o.record (by rw [records_split]; simp)
    by_contra early
    refine outside ⟨o.record, ⟨_, _, records_split past o mid, opening⟩, ended, ?_⟩
    omega

theorem Errand.Sound.eq_nil_of_rejected {e : Errand} (h : e.Sound relay)
    (split : e.rounds = past ++ r :: rest) {c : BreakerConfig}
    (rejected : r.record.result = .error (Breaker.rejection c)) : rest = [] := by
  rcases List.eq_nil_or_concat rest with none | ⟨others, last, rfl⟩
  · exact none
  · have all : Round.records e.rounds =
        (Round.records past ++ r.record :: Round.records others) ++ [last.record] := by
      rw [split, List.concat_eq_append]
      simp [Round.records]
    have retried := h.exhausted.retried
    rw [all, List.dropLast_concat] at retried
    obtain ⟨_, e, failed, transient⟩ :=
      retried r.record (List.mem_append_right _ List.mem_cons_self)
    cases rejected.symm.trans failed
    cases transient

theorem HasDone.failed (h : HasDone relay errands s) {before after : List Errand} {e : Errand}
    (place : errands = before ++ e :: after) (split : e.rounds = past ++ r :: rest)
    (inside : InWindow relay.breaker (Round.records (Errand.allRounds before ++ past))
      r.record.start) :
    r.record.result = .error (.circuitOpen relay.breaker.name) ∧
    r.record.finish = r.record.start ∧ r.calls = [] ∧ rest = [] ∧
    e.outcome.ended = r.record.start ∧
    e.mark = .failed e.outcome.event (PublishError.circuitOpen relay.breaker.name).message := by
  have sound := h.sound e (by rw [place]; exact List.mem_append_right _ List.mem_cons_self)
  have parts : Errand.allRounds errands =
      (Errand.allRounds before ++ past) ++ r :: (rest ++ Errand.allRounds after) := by
    rw [place]
    simp [Errand.allRounds, split]
  have driven := h.driven_split parts
  have rejected : r.record.admitted = false := by
    simpa using mt driven.admitted_iff.1 (not_not_intro inside)
  obtain ⟨result, atOnce⟩ := driven.of_rejected rejected
  obtain rfl := sound.eq_nil_of_rejected split result
  have own := sound.rounds r (by rw [split]; exact List.mem_append_right _ List.mem_cons_self)
  obtain ⟨last, final, ended, mark, _⟩ := sound.settled
  rw [split, List.getLast?_concat] at final
  cases Option.mem_some.1 final
  rw [result] at mark
  exact ⟨result, atOnce, own.1.silent rejected, rfl, ended.trans atOnce, mark⟩

theorem HasDone.keepsWindows (h : HasDone relay errands s) :
    KeepsWindows relay.breaker errands where
  quiet _ _ _ split opening := h.quiet split opening
  admitted_iff _ _ _ split := (h.driven_split split).admitted_iff
  failed _ _ _ _ _ _ place split inside := h.failed place split inside
  counted past rest split := by
    have driven := h.rest.driven
    rw [h.rest.attempts, split, Round.records_append] at driven
    exact driven.init.choose_spec.limit_le_iff
  resumed past o mid r rest split opening early late := by
    have driven := h.driven_split split
    rw [records_split] at driven
    rw [records_split, records_split, records_split]
    refine driven.first_after opening (fun x hx => ?_) late
    obtain ⟨y, hy, rfl⟩ := List.mem_map.1 hx
    exact early y hy

end Law

/-- With one event in flight at a time, the errands of all cycles keep to the windows of the
breaker, whatever the targets answer and whatever is between the cycles. -/
theorem Cycle.runs_keep_windows {σ : Type} [Outbox σ] (relay : Relay)
    (narrow : relay.plan.concurrency ≤ 1) (s : RelayState (TrialStore σ)) (fresh : Fresh s)
    (interludes : List (Interlude σ)) :
    ∃ errands, HasDone relay errands (Cycle.runs relay s interludes).1 ∧
      (Cycle.runs relay s interludes).2 = errands.map (·.outcome) ∧
      KeepsWindows relay.breaker errands := by
  have width : relay.plan.width = 1 := Nat.max_eq_right narrow
  obtain ⟨errands, done, outcomes⟩ := hasDone_runs width (hasDone_of_fresh fresh) interludes
  exact ⟨errands, done, outcomes, done.keepsWindows⟩

def outageRelay : Relay where
  targets := [⟨"orders", .direct "down"⟩]
  retry := ⟨3, .zero, .zero⟩
  breaker := ⟨"test", 1, .ofMillis 1000⟩
  plan := { DispatchPlan.standard with concurrency := 1 }
  react _ _ _ _ _ := .atOnce (.error (.unavailable "direct" "down"))

def outageEvent : Event :=
  ⟨⟨"Order", "order-1", "OrderPlaced", "p", .empty⟩, 1, .inProgress, ⟨0⟩, none⟩

def outageState : RelayState (TrialStore MemoryStore) :=
  .initial ⟨(MemoryStore.empty.persist ⟨0⟩ outageEvent.toNewEvent).2, .none, []⟩

def atOnce : List (Interlude MemoryStore) := [⟨0, id, .none⟩]

/-- The first attempt opens the circuit, and the second one falls into the window. -/
theorem Cycle.runs_keep_windows_of_outage :
    outageRelay.plan.concurrency ≤ 1 ∧ Fresh outageState ∧
      ∃ errands, HasDone outageRelay errands (Cycle.runs outageRelay outageState atOnce).1 ∧
        (Cycle.runs outageRelay outageState atOnce).2 = errands.map (·.outcome) ∧
        KeepsWindows outageRelay.breaker errands ∧
        (Round.records (Errand.allRounds errands)).map (·.admitted) = [true, false] := by
  have fresh : Fresh outageState := ⟨rfl, rfl, rfl, rfl⟩
  obtain ⟨errands, done, outcomes, keeps⟩ :=
    runs_keep_windows outageRelay (Nat.le_refl _) outageState fresh atOnce
  refine ⟨Nat.le_refl _, fresh, errands, done, outcomes, keeps, ?_⟩
  have claimed : claimReply outageRelay outageState = .ok [outageEvent] := rfl
  obtain ⟨s, way, admitted⟩ : ∃ s ∈ Batch.wholeWay outageRelay 20
      (askClaim outageRelay outageState).2 outageEvent,
        s.attempts.map (·.admitted) = [true, false] := by decide +kernel
  obtain rfl := Batch.eq_dispatched_of_wholeWay way
  rw [← done.rest.attempts, ← admitted]
  have ran : (Cycle.runs outageRelay outageState atOnce).1 = (run outageRelay outageState).1 := rfl
  rw [ran, run_of_cons claimed]
  rfl

end OutboxRelay
