import OutboxRelay.Proofs.Dispatch.History

/-! A history attempt by attempt. Attempts are numbered from one on, and every call bears the number
of its attempt, so the calls of one attempt can be told from all others. Within an attempt targets
are sent to in ascending order. -/

namespace OutboxRelay

def attemptCalls (number : UInt32) (calls : List Call) : List Call :=
  calls.filter (·.attempt = number)

theorem mem_attemptCalls {number : UInt32} {calls : List Call} {c : Call} :
    c ∈ attemptCalls number calls ↔ c ∈ calls ∧ c.attempt = number := by
  simp [attemptCalls]

theorem attemptCalls_append (number : UInt32) (calls more : List Call) :
    attemptCalls number (calls ++ more) = attemptCalls number calls ++ attemptCalls number more :=
  List.filter_append ..

theorem attemptCalls_eq_self {number : UInt32} {calls : List Call}
    (all : ∀ c ∈ calls, c.attempt = number) : attemptCalls number calls = calls :=
  List.filter_eq_self.2 fun c mem => by simpa using all c mem

theorem attemptCalls_eq_nil {number : UInt32} {calls : List Call}
    (none : ∀ c ∈ calls, c.attempt ≠ number) : attemptCalls number calls = [] :=
  List.filter_eq_nil_iff.2 fun c mem => by simpa using none c mem

theorem split_of_getElem {calls : List Call} {c : Call} {i : Nat} (h : calls[i]? = some c) :
    calls = calls.take i ++ c :: calls.drop (i + 1) := by
  obtain ⟨lt, rfl⟩ := List.getElem?_eq_some_iff.1 h
  rw [← List.drop_eq_getElem_cons lt, List.take_append_drop]

theorem attemptCalls_split {number : UInt32} {calls before after : List Call} {c : Call}
    (split : calls = before ++ c :: after) (own : c.attempt = number) :
    attemptCalls number calls = attemptCalls number before ++ c :: attemptCalls number after := by
  simp [split, attemptCalls, own]

theorem not_isAbandoned_of_isAnswered {c : Call} (h : c.IsAnswered) : c.isAbandoned = false := by
  obtain ⟨time, answer, state⟩ := h
  simp [Call.isAbandoned, state]

theorem isAnswered_of_failure {c : Call} (failed : c.failure?.isSome) : c.IsAnswered := by
  unfold Call.failure? at failed
  split at failed
  · next time e state => exact ⟨time, .error e, state⟩
  · cases failed

theorem mem_sends {calls : List Call} {target : Nat} :
    target ∈ sends calls ↔ ∃ c ∈ calls, c.isCopy = false ∧ c.target = target := by
  simp [sends, and_assoc]

theorem outstanding_ascending (relay : Relay) (calls : List Call) :
    (outstanding relay calls).Pairwise (· < ·) := List.pairwise_lt_range.filter _

namespace InOrder

variable {relay : Relay} {before sent during : List Call} {rest : List Nat} {number : UInt32}
  {c : Call} {target : Nat}

theorem sends_ascending (h : InOrder relay before during rest number) :
    (sends during ++ rest).Pairwise (· < ·) := by
  rw [h.order]
  exact outstanding_ascending relay before

theorem le_target_of_mem_sends (h : InOrder relay before (sent ++ [c]) rest number)
    (mem : target ∈ sends (sent ++ [c])) : target ≤ c.target := by
  have ascending := (List.pairwise_append.1 h.sends_ascending).1
  -- the targets before the last letter are smaller than its own
  have last {earlier : List Call} {letter : Call} (isLetter : letter.isCopy = false)
      (ascending : (sends (earlier ++ [letter])).Pairwise (· < ·))
      (mem : target ∈ sends (earlier ++ [letter])) : target ≤ letter.target := by
    have own : sends [letter] = [letter.target] := by simp [sends, isLetter]
    rw [sends_append, own] at ascending mem
    rcases List.mem_append.1 mem with old | new
    · exact Nat.le_of_lt ((List.pairwise_append.1 ascending).2.2 _ old _ List.mem_cons_self)
    · exact Nat.le_of_eq (List.mem_singleton.1 new)
  cases copy : c.isCopy with
  | false => exact last copy ascending mem
  | true =>
    have none : sends [c] = [] := by simp [sends, copy]
    rw [sends_append, none, List.append_nil] at ascending mem
    cases sent using List.reverseRecOn with
    | nil => cases mem
    | append_singleton earlier letter =>
      have link := (List.isChain_append.1 h.copies).2.2 letter (by simp) c (by simp) copy
      rw [link.2]
      exact last (not_isCopy_of_failure link.1) ascending mem

end InOrder

theorem Conducted.mem_sends_of_le {relay : Relay} {before during : List Call} {r : AttemptRecord}
    {target : Nat} (h : Conducted relay before during r) (due : target ∈ outstanding relay before)
    (kept : ∀ c ∈ during, c.isAbandoned → target ≤ c.target) : target ∈ sends during := by
  obtain ⟨rest, inOrder, reached⟩ := h.inOrder
  rw [← inOrder.order] at due
  refine (List.mem_append.1 due).resolve_right fun left => ?_
  cases cut : during.any (·.isAbandoned) with
  | false =>
    rw [reached cut] at left
    cases left
  | true =>
    obtain ⟨c, mem, abandoned⟩ := List.any_eq_true.1 cut
    have later := (List.pairwise_append.1 inOrder.sends_ascending).2.2 c.target
      (inOrder.aimed c mem) target left
    exact absurd (kept c mem abandoned) (Nat.not_le.2 later)

theorem Conducted.result_of_failure {relay : Relay} {before during : List Call} {r : AttemptRecord}
    {c : Call} (h : Conducted relay before during r) (mem : c ∈ during)
    (failed : c.failure?.isSome) :
    ∃ first, during.findSome? (·.failure?) = some first ∧ r.result = .error
      (if during.any (·.isAbandoned) then .timeout relay.plan.publishTimeout else first) := by
  obtain ⟨rest, inOrder, _⟩ := h.inOrder
  have left := inOrder.outstanding_ne_nil mem fun x hx => inOrder.missing_of_failure mem failed hx
  obtain ⟨first, found⟩ := Option.isSome_iff_exists.1
    (List.findSome?_isSome_iff.2 ⟨c, mem, failed⟩)
  refine ⟨first, found, ?_⟩
  rw [h.result, verdict, if_neg left, found]
  split <;> rfl

namespace History

variable {relay : Relay} {calls : List Call} {attempts : List AttemptRecord} {r : AttemptRecord}
  {c : Call}

theorem numbers (h : History relay calls attempts) :
    attempts.map (·.number.toNat) = List.range' 1 attempts.length := by
  induction h with
  | none => rfl
  | refused _ _ number _ _ ih =>
    rw [List.map_append, ih, List.length_append, List.length_singleton, List.range'_1_concat,
      Nat.add_comm 1, ← number]
    rfl
  | conducted _ _ number _ _ ih =>
    rw [List.map_append, ih, List.length_append, List.length_singleton, List.range'_1_concat,
      Nat.add_comm 1, ← number]
    rfl

theorem number_lt (h : History relay calls attempts) (mem : r ∈ attempts) {next : AttemptRecord}
    (number : next.number.toNat = attempts.length + 1) : r.number < next.number := by
  have known : r.number.toNat ∈ attempts.map (·.number.toNat) := List.mem_map_of_mem mem
  rw [h.numbers, List.mem_range'_1] at known
  exact UInt32.lt_iff_toNat_lt.2 (by omega)

theorem ascending (h : History relay calls attempts) :
    attempts.Pairwise fun r later => r.number < later.number := by
  have ordered : (attempts.map (·.number.toNat)).Pairwise (· < ·) :=
    h.numbers ▸ List.pairwise_lt_range'
  exact (List.pairwise_map.1 ordered).imp UInt32.lt_iff_toNat_lt.2

theorem attempt_of_mem (h : History relay calls attempts) (mem : c ∈ calls) :
    ∃ r ∈ attempts, r.admitted ∧ r.number = c.attempt := by
  induction h with
  | none => cases mem
  | refused _ _ _ _ _ ih =>
    obtain ⟨r, known, own⟩ := ih mem
    exact ⟨r, List.mem_append_left _ known, own⟩
  | @conducted calls attempts during r _ _ _ admitted conducted ih =>
    rcases List.mem_append.1 mem with old | new
    · obtain ⟨r, known, own⟩ := ih old
      exact ⟨r, List.mem_append_left _ known, own⟩
    · obtain ⟨rest, inOrder, _⟩ := conducted.inOrder
      exact ⟨r, List.mem_append_right _ List.mem_cons_self, admitted,
        (inOrder.numbered c new).symm⟩

theorem calls_ascending (h : History relay calls attempts) :
    calls.Pairwise fun c later => c.attempt ≤ later.attempt := by
  induction h with
  | none => exact .nil
  | refused _ _ _ _ _ ih => exact ih
  | @conducted calls attempts during r past _ number _ conducted ih =>
    obtain ⟨rest, inOrder, _⟩ := conducted.inOrder
    refine List.pairwise_append.2 ⟨ih, List.pairwise_of_forall_mem_list fun c hc x hx => ?_,
      fun c hc x hx => ?_⟩
    · rw [inOrder.numbered c hc, inOrder.numbered x hx]
      exact UInt32.le_refl _
    · obtain ⟨r', known, _, own⟩ := past.attempt_of_mem hc
      rw [inOrder.numbered x hx, ← own]
      exact UInt32.le_of_lt (past.number_lt known number)

theorem target_lt (h : History relay calls attempts) (mem : c ∈ calls) :
    c.target < relay.targets.length := by
  induction h with
  | none => cases mem
  | refused _ _ _ _ _ ih => exact ih mem
  | conducted _ _ _ _ conducted ih =>
    obtain ⟨rest, inOrder, _⟩ := conducted.inOrder
    rcases List.mem_append.1 mem with old | new
    · exact ih old
    · exact (mem_outstanding.1 (inOrder.sends_subset (inOrder.aimed c new))).1

theorem conducted_of_mem (h : History relay calls attempts) (mem : r ∈ attempts)
    (admitted : r.admitted = true) :
    ∃ past later, calls = past ++ attemptCalls r.number calls ++ later ∧
      Conducted relay past (attemptCalls r.number calls) r := by
  induction h with
  | none => cases mem
  | refused _ _ _ refused _ ih =>
    rcases List.mem_append.1 mem with old | new
    · exact ih old
    · cases List.mem_singleton.1 new
      rw [refused] at admitted
      cases admitted
  | @conducted calls attempts during next before _ number _ conducted ih =>
    obtain ⟨rest, inOrder, _⟩ := conducted.inOrder
    rcases List.mem_append.1 mem with old | new
    · have others : attemptCalls r.number during = [] := attemptCalls_eq_nil fun c hc same => by
        have lt := before.number_lt old number
        rw [← same, inOrder.numbered c hc] at lt
        exact UInt32.lt_irrefl _ lt
      obtain ⟨past, later, split, known⟩ := ih old
      rw [attemptCalls_append, others, List.append_nil]
      refine ⟨past, later ++ during, ?_, known⟩
      rw [← List.append_assoc, ← split]
    · cases List.mem_singleton.1 new
      have others : attemptCalls r.number calls = [] := attemptCalls_eq_nil fun c hc same => by
        obtain ⟨r', known, _, own⟩ := before.attempt_of_mem hc
        have lt := before.number_lt known number
        rw [own, same] at lt
        exact UInt32.lt_irrefl _ lt
      rw [attemptCalls_append, others, List.nil_append, attemptCalls_eq_self inOrder.numbered]
      exact ⟨calls, [], (List.append_nil _).symm, conducted⟩

end History

end OutboxRelay
