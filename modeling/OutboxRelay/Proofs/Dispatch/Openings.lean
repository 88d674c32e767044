import OutboxRelay.Dispatch.Relay
import OutboxRelay.Proofs.Breaker.NoWedge

/-! Attempts that are made one after the other, with one circuit breaker before them all. The record
of such attempts tells by itself which of them were admitted. An attempt that fails as the last of
enough failures in a row opens the circuit, and its window begins; within a window every attempt is
rejected, outside of all windows every attempt is admitted. -/

namespace OutboxRelay.Breaker

def failedInARow (log : List AttemptRecord) : Nat :=
  failuresInARow ((log.filter (·.admitted)).map (·.result))

/-- The attempt that follows these opens the circuit. -/
structure IsOpening (c : BreakerConfig) (past : List AttemptRecord) (r : AttemptRecord) : Prop where
  admitted : r.admitted = true
  failed : ∃ e, r.result = .error e
  enough : c.limit ≤ failedInARow (past ++ [r])

def Opens (c : BreakerConfig) (log : List AttemptRecord) (o : AttemptRecord) : Prop :=
  ∃ past rest, log = past ++ o :: rest ∧ IsOpening c past o

/-- Less than the cooldown has passed since an opening. -/
def InWindow (c : BreakerConfig) (log : List AttemptRecord) (now : Instant) : Prop :=
  ∃ o, Opens c log o ∧ o.finish.nanos ≤ now.nanos ∧
    now.nanos < o.finish.nanos + c.openDuration.nanos

inductive Passage (c : BreakerConfig) (b : Breaker) (r : AttemptRecord) : Breaker → Prop
  | rejected (refused : b.request c r.start = .rejected) (admitted : r.admitted = false)
      (result : r.result = .error (rejection c)) (atOnce : r.finish = r.start) : Passage c b r b
  | admitted {pending journal} (admits : b.request c r.start = .admitted pending journal)
      (admitted : r.admitted = true) (lasts : r.start.nanos ≤ r.finish.nanos) :
      Passage c b r (pending.settle c r.finish r.result).1

/-- A fresh breaker is in this state after these attempts, none of which began before the earlier
ones had ended. -/
inductive Driven (c : BreakerConfig) : List AttemptRecord → Breaker → Prop
  | fresh : Driven c [] initial
  | attempt {log b r b'} (before : Driven c log b)
      (since : ∀ x ∈ log, x.finish.nanos ≤ r.start.nanos) (passage : Passage c b r b') :
      Driven c (log ++ [r]) b'

section Log

variable {c : BreakerConfig} {log past rest : List AttemptRecord} {r o : AttemptRecord}
  {now : Instant}

theorem failedInARow_rejected (h : ∀ x ∈ rest, x.admitted = false) :
    failedInARow (log ++ rest) = failedInARow log := by
  have nothing : rest.filter (·.admitted) = [] :=
    List.filter_eq_nil_iff.2 fun x hx => by simp [h x hx]
  rw [failedInARow, List.filter_append, nothing, List.append_nil, failedInARow]

theorem failedInARow_ok {value : Unit} (h : r.admitted = true) (ok : r.result = .ok value) :
    failedInARow (log ++ [r]) = 0 := by
  unfold failedInARow
  rw [List.filter_append, List.map_append]
  simpa [h, ok] using failuresInARow_ok _ value

theorem failedInARow_error {e : PublishError} (h : r.admitted = true)
    (failed : r.result = .error e) : failedInARow (log ++ [r]) = failedInARow log + 1 := by
  unfold failedInARow
  rw [List.filter_append, List.map_append]
  simpa [h, failed] using failuresInARow_error _ e

theorem opens_concat : Opens c (log ++ [r]) o ↔ Opens c log o ∨ o = r ∧ IsOpening c log r := by
  constructor
  · rintro ⟨past, rest, split, opening⟩
    rcases List.eq_nil_or_concat rest with rfl | ⟨rest, last, rfl⟩
    · obtain ⟨rfl, same⟩ := List.append_inj' split rfl
      cases same
      exact .inr ⟨rfl, opening⟩
    · rw [List.concat_eq_append, ← List.cons_append, ← List.append_assoc] at split
      obtain ⟨rfl, _⟩ := List.append_inj' split rfl
      exact .inl ⟨past, rest, rfl, opening⟩
  · rintro (⟨past, rest, rfl, opening⟩ | ⟨rfl, opening⟩)
    · exact ⟨past, rest ++ [r], by simp, opening⟩
    · exact ⟨log, [], rfl, opening⟩

theorem Opens.mem (h : Opens c log o) : o ∈ log := by
  obtain ⟨past, rest, rfl, _⟩ := h
  exact List.mem_append_right _ List.mem_cons_self

theorem Opens.admitted (h : Opens c log o) : o.admitted = true := by
  obtain ⟨past, rest, _, opening⟩ := h
  exact opening.admitted

end Log

/-! ### The breaker and the record of its attempts -/

/-- The breaker is as the record of its attempts says. -/
structure Account (c : BreakerConfig) (log : List AttemptRecord) (b : Breaker) : Prop where
  tallies : Tallies c b (failedInARow log)
  ready : b.circuit ≠ .halfOpen
  opened : b.circuit = .opened → ∃ o, Opens c log o ∧ b.openedAt = some o.finish ∧
    ∀ x, Opens c log x → x.finish.nanos ≤ o.finish.nanos
  closed : b.circuit = .closed → ∀ o, Opens c log o →
    ∃ x ∈ log, o.finish.nanos + c.openDuration.nanos ≤ x.finish.nanos

section Account

variable {c : BreakerConfig} {log past rest mid : List AttemptRecord} {r o : AttemptRecord}
  {b b' : Breaker} {now : Instant}

theorem account_initial (c : BreakerConfig) : Account c [] initial := by
  refine ⟨tallies_initial c, nofun, nofun, fun _ o opens => ?_⟩
  cases opens.mem

theorem fail_cases (shut : b.circuit ≠ .opened) :
    ((b.fail c now).1.circuit = .opened ∧ (b.fail c now).1.openedAt = some now) ∨
      b.circuit = .closed ∧ (b.fail c now).1.circuit = .closed := by
  unfold fail
  split
  · exact .inl ⟨rfl, rfl⟩
  · rename_i closed
    dsimp only
    split
    · exact .inl ⟨rfl, rfl⟩
    · exact .inr ⟨closed, closed⟩
  · exact absurd ‹_› shut

theorem Account.request_iff (h : Account c log b) (past : ∀ x ∈ log, x.finish.nanos ≤ now.nanos) :
    (∃ pending journal, b.request c now = .admitted pending journal) ↔ ¬ InWindow c log now := by
  unfold request
  cases circuit : b.circuit with
  | halfOpen => exact absurd circuit h.ready
  | closed =>
    refine iff_of_true ⟨_, _, rfl⟩ ?_
    rintro ⟨o, opens, _, early⟩
    obtain ⟨x, mem, elapsed⟩ := h.closed circuit o opens
    have ended := past x mem
    omega
  | opened =>
    obtain ⟨o, opens, stamp, last⟩ := h.opened circuit
    have ended := past o opens.mem
    have cooled : b.cooledDown c now = true ↔
        o.finish.nanos + c.openDuration.nanos ≤ now.nanos := by
      unfold cooledDown
      rw [stamp]
      refine decide_eq_true_iff.trans ?_
      unfold Instant.elapsed
      omega
    by_cases cold : o.finish.nanos + c.openDuration.nanos ≤ now.nanos
    · rw [if_pos (cooled.2 cold)]
      refine iff_of_true ⟨_, _, rfl⟩ ?_
      rintro ⟨x, other, _, early⟩
      have le := last x other
      omega
    · rw [if_neg (mt cooled.1 cold)]
      exact iff_of_false nofun (not_not_intro ⟨o, opens, ended, by omega⟩)

theorem account_rejected (h : Account c log b) (rejected : r.admitted = false) :
    Account c (log ++ [r]) b := by
  have same (x : AttemptRecord) : Opens c (log ++ [r]) x ↔ Opens c log x := by
    refine opens_concat.trans (or_iff_left ?_)
    rintro ⟨_, opening⟩
    cases rejected.symm.trans opening.admitted
  refine ⟨?_, h.ready, fun opened => ?_, fun closed o opens => ?_⟩
  · rw [failedInARow_rejected (List.forall_mem_singleton.2 rejected)]
    exact h.tallies
  · obtain ⟨o, opens, stamp, last⟩ := h.opened opened
    exact ⟨o, (same o).2 opens, stamp, fun x hx => last x ((same x).1 hx)⟩
  · obtain ⟨x, mem, elapsed⟩ := h.closed closed o ((same o).1 opens)
    exact ⟨x, List.mem_append_left _ mem, elapsed⟩

theorem Account.elapsed (h : Account c log b) (since : ∀ x ∈ log, x.finish.nanos ≤ r.start.nanos)
    {journal : Journal} (admits : b.request c r.start = .admitted b' journal)
    (opens : Opens c log o) : o.finish.nanos + c.openDuration.nanos ≤ r.start.nanos := by
  have outside := (h.request_iff since).1 ⟨_, _, admits⟩
  by_contra early
  exact outside ⟨o, opens, since o opens.mem, by omega⟩

section Admitted

variable {pending : Breaker} {journal : Journal} (h : Account c log b)
  (admits : b.request c r.start = .admitted pending journal) (admitted : r.admitted = true)
  (since : ∀ x ∈ log, x.finish.nanos ≤ r.start.nanos) (lasts : r.start.nanos ≤ r.finish.nanos)

include h admits admitted since lasts

theorem account_succeeded {value : Unit} (ok : r.result = .ok value) :
    Account c (log ++ [r]) initial := by
  refine ⟨?_, nofun, nofun, fun _ o opens => ?_⟩
  · rw [failedInARow_ok admitted ok]
    exact tallies_initial c
  · rcases opens_concat.1 opens with old | ⟨_, opening⟩
    · have elapsed := h.elapsed since admits old
      exact ⟨r, List.mem_append_right _ List.mem_cons_self, Nat.le_trans elapsed lasts⟩
    · obtain ⟨e, failed⟩ := opening.failed
      cases ok.symm.trans failed

theorem account_failed {e : PublishError} (failed : r.result = .error e) :
    Account c (log ++ [r]) (pending.fail c r.finish).1 := by
  have tallies : Tallies c (pending.fail c r.finish).1 (failedInARow (log ++ [r])) := by
    rw [failedInARow_error admitted failed]
    exact (h.tallies.request admits).fail r.finish
  have shut : pending.circuit ≠ .opened := by
    rcases admitted_cases admits with ⟨_, _, rfl⟩ | ⟨closed, rfl⟩
    · exact nofun
    · rw [closed]
      exact nofun
  refine ⟨tallies, circuit_settle_ne_halfOpen pending c r.finish (.error e), fun opened => ?_,
    fun closed o opens => ?_⟩
  · -- the attempt itself is the last opening
    have many := tallies.enough (by rw [opened]; exact nofun)
    have stamp : (pending.fail c r.finish).1.openedAt = some r.finish := by
      rcases fail_cases shut with ⟨_, stamp⟩ | ⟨_, closed⟩
      · exact stamp
      · cases opened.symm.trans closed
    refine ⟨r, opens_concat.2 (.inr ⟨rfl, admitted, ⟨e, failed⟩, many⟩), stamp, fun x opens => ?_⟩
    rcases opens_concat.1 opens with old | ⟨rfl, _⟩
    · exact Nat.le_trans (since x old.mem) lasts
    · exact Nat.le_refl _
  · rcases opens_concat.1 opens with old | ⟨_, opening⟩
    · have elapsed := h.elapsed since admits old
      exact ⟨r, List.mem_append_right _ List.mem_cons_self, Nat.le_trans elapsed lasts⟩
    · have few := tallies.closed_iff.1 closed
      have many := opening.enough
      omega

end Admitted

theorem account_of_driven (h : Driven c log b) : Account c log b := by
  induction h with
  | fresh => exact account_initial c
  | @attempt log b r b' before since passage ih =>
    cases passage with
    | rejected _ rejected _ _ => exact account_rejected ih rejected
    | @admitted pending journal admits admitted lasts =>
      cases result : r.result with
      | ok value => exact account_succeeded ih admits admitted since lasts result
      | error e => exact account_failed ih admits admitted since lasts result

end Account

namespace Driven

variable {c : BreakerConfig} {log past rest mid : List AttemptRecord} {r o : AttemptRecord}
  {b b' : Breaker}

theorem init (h : Driven c (log ++ rest) b) : ∃ before, Driven c log before := by
  induction rest using List.reverseRecOn generalizing b with
  | nil => exact ⟨b, by simpa using h⟩
  | append_singleton rest r ih =>
    generalize all : log ++ (rest ++ [r]) = whole at h
    cases h with
    | fresh => simp at all
    | @attempt earlier before last _ driven _ _ =>
      rw [← List.append_assoc] at all
      obtain ⟨rfl, _⟩ := List.append_inj' all rfl
      exact ih driven

theorem at_attempt (h : Driven c (past ++ r :: rest) b) :
    ∃ before after, Driven c past before ∧ (∀ x ∈ past, x.finish.nanos ≤ r.start.nanos) ∧
      Passage c before r after ∧ Driven c (past ++ [r]) after := by
  have parts : past ++ r :: rest = (past ++ [r]) ++ rest := by simp
  obtain ⟨after, driven⟩ := (parts ▸ h).init
  generalize all : past ++ [r] = whole at driven
  cases driven with
  | fresh => simp at all
  | @attempt earlier before last _ driven since passage =>
    obtain ⟨rfl, same⟩ := List.append_inj' all rfl
    cases same
    exact ⟨before, after, driven, since, passage, driven.attempt since passage⟩

theorem admitted_iff (h : Driven c (past ++ r :: rest) b) :
    r.admitted = true ↔ ¬ InWindow c past r.start := by
  obtain ⟨before, after, driven, since, passage, _⟩ := h.at_attempt
  rw [← (account_of_driven driven).request_iff since]
  cases passage with
  | rejected refused rejected _ _ => simp [refused, rejected]
  | admitted admits admitted _ => simp [admits, admitted]

theorem since (h : Driven c (past ++ r :: rest) b) :
    ∀ x ∈ past, x.finish.nanos ≤ r.start.nanos := by
  obtain ⟨_, _, _, since, _⟩ := h.at_attempt
  exact since

theorem of_rejected (h : Driven c (past ++ r :: rest) b) (rejected : r.admitted = false) :
    r.result = .error (rejection c) ∧ r.finish = r.start := by
  obtain ⟨_, _, _, _, passage, _⟩ := h.at_attempt
  cases passage with
  | rejected _ _ result atOnce => exact ⟨result, atOnce⟩
  | admitted _ admitted _ => cases rejected.symm.trans admitted

theorem start_le_finish (h : Driven c (past ++ r :: rest) b) : r.start.nanos ≤ r.finish.nanos := by
  obtain ⟨_, _, _, _, passage, _⟩ := h.at_attempt
  cases passage with
  | rejected _ _ _ atOnce => exact Nat.le_of_eq (by rw [atOnce])
  | admitted _ _ lasts => exact lasts

theorem rejected_of_early (h : Driven c (past ++ o :: (mid ++ rest)) b)
    (opening : IsOpening c past o)
    (early : ∀ x ∈ mid, x.start.nanos < o.finish.nanos + c.openDuration.nanos) :
    ∀ x ∈ mid, x.admitted = false := by
  intro x hx
  obtain ⟨first, last, rfl⟩ := List.append_of_mem hx
  have split : past ++ o :: ((first ++ x :: last) ++ rest) =
      (past ++ o :: first) ++ x :: (last ++ rest) := by simp
  rw [split] at h
  have ended := h.since o (List.mem_append_right _ List.mem_cons_self)
  have inside : InWindow c (past ++ o :: first) x.start :=
    ⟨o, ⟨past, first, rfl, opening⟩, ended, early x hx⟩
  simpa using mt h.admitted_iff.1 (not_not_intro inside)

theorem admitted_of_late (h : Driven c ((past ++ o :: mid) ++ r :: rest) b)
    (rejected : ∀ x ∈ mid, x.admitted = false) (lasts : o.start.nanos ≤ o.finish.nanos)
    (before : ∀ x ∈ past, x.finish.nanos ≤ o.start.nanos)
    (late : o.finish.nanos + c.openDuration.nanos ≤ r.start.nanos) : r.admitted = true := by
  refine h.admitted_iff.2 fun ⟨x, opens, _, inside⟩ => ?_
  rcases List.mem_append.1 opens.mem with old | new
  · have ended := before x old
    omega
  · rcases List.mem_cons.1 new with rfl | new
    · omega
    · cases (rejected x new).symm.trans opens.admitted

theorem initial_of_succeeded (h : Driven c (log ++ [r]) b) (admitted : r.admitted = true)
    {value : Unit} (ok : r.result = .ok value) : Driven c (log ++ [r]) initial := by
  obtain ⟨_, _, _, _, passage, driven⟩ := h.at_attempt
  cases passage with
  | rejected _ rejected _ _ => cases rejected.symm.trans admitted
  | admitted _ _ _ =>
    rw [ok] at driven
    exact driven

theorem first_after (h : Driven c (past ++ o :: (mid ++ r :: rest)) b)
    (opening : IsOpening c past o)
    (early : ∀ x ∈ mid, x.start.nanos < o.finish.nanos + c.openDuration.nanos)
    (late : o.finish.nanos + c.openDuration.nanos ≤ r.start.nanos) :
    r.admitted = true ∧
    (∀ e, r.result = .error e → IsOpening c (past ++ o :: mid) r) ∧
    ∀ value, r.result = .ok value → failedInARow (past ++ o :: (mid ++ [r])) = 0 ∧
      Driven c (past ++ o :: (mid ++ [r])) initial := by
  have rejected := h.rejected_of_early opening early
  have lasts := h.start_le_finish
  have before := h.since
  have split (rest : List AttemptRecord) : past ++ o :: (mid ++ r :: rest) =
      (past ++ o :: mid) ++ r :: rest := by simp
  rw [split] at h
  have admitted := h.admitted_of_late rejected lasts before late
  refine ⟨admitted, fun e failed => ⟨admitted, ⟨e, failed⟩, ?_⟩, fun value ok => ?_⟩
  · rw [failedInARow_error admitted failed, List.append_cons, failedInARow_rejected rejected]
    exact Nat.le_succ_of_le opening.enough
  · rw [split []]
    obtain ⟨_, _, _, _, _, driven⟩ := h.at_attempt
    exact ⟨failedInARow_ok admitted ok, driven.initial_of_succeeded admitted ok⟩

theorem limit_le_iff (h : Driven c log b) :
    c.limit ≤ failuresInARow (log.map (·.result)) ↔ c.limit ≤ failedInARow log := by
  suffices failuresInARow (log.map (·.result)) = failedInARow log ∨
      c.limit ≤ failuresInARow (log.map (·.result)) ∧ c.limit ≤ failedInARow log by omega
  induction h with
  | fresh => exact .inl rfl
  | @attempt log b r b' before _ passage ih =>
    rw [List.map_append, List.map_singleton]
    cases passage with
    | rejected refused rejected result _ =>
      have shut : b.circuit ≠ .closed := fun closed => by simp [request, closed] at refused
      have many := (account_of_driven before).tallies.enough shut
      rw [result, failuresInARow_error,
        failedInARow_rejected (List.forall_mem_singleton.2 rejected)]
      omega
    | admitted _ admitted _ =>
      cases result : r.result with
      | ok value =>
        rw [failuresInARow_ok, failedInARow_ok admitted result]
        exact .inl rfl
      | error e =>
        rw [failuresInARow_error, failedInARow_error admitted result]
        omega

end Driven

end OutboxRelay.Breaker
