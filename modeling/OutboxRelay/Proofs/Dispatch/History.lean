import Mathlib.Data.List.Chain
import Mathlib.Data.List.Nodup
import OutboxRelay.Dispatch.Relay

/-! How an event is to be sent. A history is a list of calls and a list of attempts. Each attempt
that the breaker admits sends, one after the other and in the order of the configuration, to targets
that have not accepted the event in an earlier attempt, until all of them were sent to or the budget
is used up. A send is one letter, and the dead-letter copy right behind it where it failed. -/

namespace OutboxRelay

namespace Call

def isAccepted (c : Call) : Bool :=
  match c.state with
  | .answered _ (.ok _) => !c.isCopy
  | _ => false

def isAbandoned (c : Call) : Bool :=
  match c.state with
  | .abandoned => true
  | _ => false

def failure? (c : Call) : Option PublishError :=
  match c.state with
  | .answered _ (.error e) => if c.isCopy then none else some e
  | _ => none

def IsAnswered (c : Call) : Prop := ∃ time answer, c.state = .answered time answer

/-- A copy goes to the target of the letter before it, and only after that one failed. -/
def MayPrecede (c next : Call) : Prop :=
  next.isCopy = true → c.failure?.isSome ∧ next.target = c.target

end Call

def sends (calls : List Call) : List Nat := (calls.filter (!·.isCopy)).map (·.target)

def hasAccepted (calls : List Call) (target : Nat) : Bool :=
  calls.any fun c => c.target = target && c.isAccepted

def outstanding (relay : Relay) (calls : List Call) : List Nat :=
  (List.range relay.targets.length).filter fun target => !hasAccepted calls target

/-- The result of an attempt, read off its calls and the calls before it. -/
def verdict (relay : Relay) (before during : List Call) : Except PublishError Unit :=
  if outstanding relay (before ++ during) = [] then .ok ()
  else if during.any (·.isAbandoned) then .error (.timeout relay.plan.publishTimeout)
  else match during.findSome? (·.failure?) with
    | some e => .error e
    | none => .ok ()

structure InOrder (relay : Relay) (before during : List Call) (rest : List Nat)
    (number : UInt32) : Prop where
  order : sends during ++ rest = outstanding relay before
  numbered : ∀ c ∈ during, c.attempt = number
  aimed : ∀ c ∈ during, c.target ∈ sends during
  once : during.Pairwise fun c later => c.isAccepted → later.target ≠ c.target
  letter : ∀ c ∈ during.head?, c.isCopy = false
  copies : during.IsChain Call.MayPrecede

/-- An attempt that the breaker admitted. -/
structure Conducted (relay : Relay) (before during : List Call) (r : AttemptRecord) : Prop where
  inOrder : ∃ rest, InOrder relay before during rest r.number ∧
    (during.any (·.isAbandoned) = false → rest = [])
  ended : ∀ c ∈ during, c.isInProgress = false
  result : r.result = verdict relay before during
  begun : r.start.nanos ≤ r.finish.nanos
  within : r.finish.nanos ≤ (r.start.timerAfter relay.plan.publishTimeout).nanos
  cut : during.any (·.isAbandoned) → r.finish = r.start.timerAfter relay.plan.publishTimeout

/-- What may become of an event, attempt after attempt. -/
inductive History (relay : Relay) : List Call → List AttemptRecord → Prop
  | none : History relay [] []
  | refused {calls attempts r} (past : History relay calls attempts)
      (open_ : outstanding relay calls ≠ []) (number : r.number.toNat = attempts.length + 1)
      (admitted : r.admitted = false)
      (result : r.result = .error (Breaker.rejection relay.breaker)) :
      History relay calls (attempts ++ [r])
  | conducted {calls attempts during r} (past : History relay calls attempts)
      (open_ : outstanding relay calls ≠ []) (number : r.number.toNat = attempts.length + 1)
      (admitted : r.admitted = true) (conducted : Conducted relay calls during r) :
      History relay (calls ++ during) (attempts ++ [r])

section Outstanding

variable {relay : Relay} {calls more : List Call} {target : Nat}

theorem sends_append (calls more : List Call) : sends (calls ++ more) = sends calls ++ sends more := by
  simp [sends]

theorem hasAccepted_append (calls more : List Call) (target : Nat) :
    hasAccepted (calls ++ more) target = (hasAccepted calls target || hasAccepted more target) := by
  simp [hasAccepted]

theorem hasAccepted_iff :
    hasAccepted calls target ↔ ∃ c ∈ calls, c.target = target ∧ c.isAccepted := by
  simp [hasAccepted]

theorem mem_outstanding : target ∈ outstanding relay calls ↔
    target < relay.targets.length ∧ hasAccepted calls target = false := by
  simp [outstanding]

theorem outstanding_nodup (relay : Relay) (calls : List Call) :
    (outstanding relay calls).Nodup := List.nodup_range.filter _

theorem outstanding_eq_nil : outstanding relay calls = [] ↔
    ∀ target < relay.targets.length, ∃ c ∈ calls, c.target = target ∧ c.isAccepted := by
  constructor
  · intro none target lt
    rw [← hasAccepted_iff]
    by_contra missing
    have mem : target ∈ outstanding relay calls := mem_outstanding.2 ⟨lt, by simpa using missing⟩
    rw [none] at mem
    cases mem
  · intro all
    refine List.eq_nil_iff_forall_not_mem.2 fun target mem => ?_
    obtain ⟨lt, missing⟩ := mem_outstanding.1 mem
    rw [hasAccepted_iff.2 (all target lt)] at missing
    cases missing

theorem not_isAccepted_of_isCopy {c : Call} (copy : c.isCopy = true) : c.isAccepted = false := by
  unfold Call.isAccepted
  split
  · simp [copy]
  · rfl

theorem not_isCopy_of_isAccepted {c : Call} (accepted : c.isAccepted) : c.isCopy = false := by
  by_contra copy
  rw [not_isAccepted_of_isCopy (by simpa using copy)] at accepted
  cases accepted

theorem not_isAccepted_of_failure {c : Call} (failed : c.failure?.isSome) :
    c.isAccepted = false := by
  unfold Call.failure? at failed
  unfold Call.isAccepted
  split at failed
  · rename_i state
    rw [state]
  · cases failed

theorem not_isCopy_of_failure {c : Call} (failed : c.failure?.isSome) : c.isCopy = false := by
  unfold Call.failure? at failed
  split at failed
  · split at failed
    · cases failed
    · rename_i first
      exact Bool.eq_false_iff.2 first
  · cases failed

end Outstanding

namespace InOrder

variable {relay : Relay} {before sent during : List Call} {rest : List Nat} {number : UInt32}
  {target : Nat} {c copy : Call}

theorem nil (relay : Relay) (before : List Call) (number : UInt32) :
    InOrder relay before [] (outstanding relay before) number :=
  ⟨rfl, by simp, by simp, .nil, by simp, .nil⟩

theorem send (h : InOrder relay before sent (target :: rest) number) (aim : c.target = target)
    (letter : c.isCopy = false) (attempt : c.attempt = number) :
    InOrder relay before (sent ++ [c]) rest number := by
  have sends : sends (sent ++ [c]) = sends sent ++ [target] := by
    rw [sends_append]
    simp [OutboxRelay.sends, letter, aim]
  have nodup := outstanding_nodup relay before
  rw [← h.order, List.nodup_append] at nodup
  constructor
  · rw [sends, List.append_assoc]
    exact h.order
  · exact List.forall_mem_append.2 ⟨h.numbered, List.forall_mem_singleton.2 attempt⟩
  · rw [sends]
    refine List.forall_mem_append.2 ⟨fun x hx => List.mem_append_left _ (h.aimed x hx), ?_⟩
    rw [List.forall_mem_singleton, aim]
    exact List.mem_append_right _ List.mem_cons_self
  · rw [List.pairwise_append]
    refine ⟨h.once, List.pairwise_singleton _ _, fun x hx y hy _ same => ?_⟩
    cases List.mem_singleton.1 hy
    exact nodup.2.2 x.target (h.aimed x hx) target List.mem_cons_self (same.symm.trans aim)
  · intro x hx
    cases sent with
    | nil =>
      cases Option.mem_some.1 hx
      exact letter
    | cons first others => exact h.letter x hx
  · rw [List.isChain_append]
    refine ⟨h.copies, .singleton _, fun x _ y hy copy => ?_⟩
    cases Option.mem_some.1 hy
    rw [letter] at copy
    cases copy

theorem sendCopy (h : InOrder relay before (sent ++ [c]) rest number)
    (failed : c.failure?.isSome) (isCopy : copy.isCopy = true) (aim : copy.target = c.target)
    (attempt : copy.attempt = number) :
    InOrder relay before (sent ++ [c] ++ [copy]) rest number := by
  have sends : sends (sent ++ [c] ++ [copy]) = sends (sent ++ [c]) := by
    rw [sends_append]
    simp [OutboxRelay.sends, isCopy]
  have last : c ∈ sent ++ [c] := List.mem_append_right _ List.mem_cons_self
  constructor
  · rw [sends]
    exact h.order
  · exact List.forall_mem_append.2 ⟨h.numbered, List.forall_mem_singleton.2 attempt⟩
  · rw [sends]
    refine List.forall_mem_append.2 ⟨h.aimed, ?_⟩
    rw [List.forall_mem_singleton, aim]
    exact h.aimed c last
  · rw [List.pairwise_append]
    refine ⟨h.once, List.pairwise_singleton _ _, fun x hx y hy accepted => ?_⟩
    cases List.mem_singleton.1 hy
    rw [aim]
    rcases List.mem_append.1 hx with old | new
    · exact (List.pairwise_append.1 h.once).2.2 x old c List.mem_cons_self accepted
    · cases List.mem_singleton.1 new
      rw [not_isAccepted_of_failure failed] at accepted
      cases accepted
  · intro x hx
    rw [List.head?_append_of_ne_nil _ (List.ne_nil_of_mem last)] at hx
    exact h.letter x hx
  · rw [List.isChain_append]
    refine ⟨h.copies, .singleton _, fun x hx y hy _ => ?_⟩
    cases Option.mem_some.1 hy
    rw [List.getLast?_concat] at hx
    cases Option.mem_some.1 hx
    exact ⟨failed, aim⟩

theorem endLast (h : InOrder relay before (sent ++ [c]) rest number) (state : CallState) :
    InOrder relay before (sent ++ [{ c with state := state }]) rest number := by
  have sends : sends (sent ++ [{ c with state := state }]) = sends (sent ++ [c]) := by
    rw [sends_append, sends_append]
    by_cases copy : c.isCopy <;> simp [OutboxRelay.sends, copy]
  have last : c ∈ sent ++ [c] := List.mem_append_right _ List.mem_cons_self
  constructor
  · rw [sends]
    exact h.order
  · have earlier := (List.forall_mem_append.1 h.numbered).1
    exact List.forall_mem_append.2 ⟨earlier, List.forall_mem_singleton.2 (h.numbered c last)⟩
  · have earlier := (List.forall_mem_append.1 h.aimed).1
    rw [sends]
    exact List.forall_mem_append.2 ⟨earlier, List.forall_mem_singleton.2 (h.aimed c last)⟩
  · obtain ⟨once, _, both⟩ := List.pairwise_append.1 h.once
    rw [List.pairwise_append]
    refine ⟨once, List.pairwise_singleton _ _, fun x hx y hy => ?_⟩
    cases List.mem_singleton.1 hy
    exact both x hx c List.mem_cons_self
  · intro x hx
    cases sent with
    | nil =>
      cases Option.mem_some.1 hx
      exact h.letter c rfl
    | cons first others => exact h.letter x hx
  · obtain ⟨chain, _, link⟩ := List.isChain_append.1 h.copies
    rw [List.isChain_append]
    refine ⟨chain, .singleton _, fun x hx y hy => ?_⟩
    cases Option.mem_some.1 hy
    exact link x hx c rfl

theorem sends_subset (h : InOrder relay before during rest number) (mem : target ∈ sends during) :
    target ∈ outstanding relay before := by
  rw [← h.order]
  exact List.mem_append_left _ mem

theorem sends_nodup (h : InOrder relay before during rest number) : (sends during).Nodup := by
  have nodup := outstanding_nodup relay before
  rw [← h.order, List.nodup_append] at nodup
  exact nodup.1

theorem outstanding_ne_nil (h : InOrder relay before during rest number) (mem : c ∈ during)
    (missing : ∀ x ∈ during, x.target = c.target → x.isAccepted = false) :
    outstanding relay (before ++ during) ≠ [] := by
  obtain ⟨lt, absent⟩ := mem_outstanding.1 (h.sends_subset (h.aimed c mem))
  have now : hasAccepted during c.target = false := by
    simpa [hasAccepted] using missing
  refine List.ne_nil_of_mem (mem_outstanding.2 ⟨lt, ?_⟩)
  rw [hasAccepted_append, absent, now]
  rfl

theorem missing_of_failure (h : InOrder relay before during rest number) (mem : c ∈ during)
    (failed : c.failure?.isSome) {x : Call} (hx : x ∈ during) (same : x.target = c.target) :
    x.isAccepted = false := by
  by_contra accepted
  have accepted : x.isAccepted = true := by simpa using accepted
  have letters : ∀ y ∈ during, y.isCopy = false → y ∈ during.filter (!·.isCopy) := by
    intro y hy letter
    exact List.mem_filter.2 ⟨hy, by simp [letter]⟩
  have equal : x = c := List.inj_on_of_nodup_map h.sends_nodup
    (letters x hx (not_isCopy_of_isAccepted accepted))
    (letters c mem (not_isCopy_of_failure failed)) same
  rw [equal, not_isAccepted_of_failure failed] at accepted
  cases accepted

theorem missing_of_last (h : InOrder relay before (sent ++ [c]) rest number)
    (missing : c.isAccepted = false) {x : Call} (hx : x ∈ sent ++ [c])
    (same : x.target = c.target) : x.isAccepted = false := by
  rcases List.mem_append.1 hx with old | new
  · by_contra accepted
    have once := (List.pairwise_append.1 h.once).2.2 x old c List.mem_cons_self
    exact once (by simpa using accepted) same.symm
  · cases List.mem_singleton.1 new
    exact missing

theorem verdict_of_answered (h : InOrder relay before during [] number)
    (answered : ∀ c ∈ during, c.IsAnswered) :
    verdict relay before during = match during.findSome? (·.failure?) with
      | some e => .error e
      | none => .ok () := by
  have abandoned : during.any (·.isAbandoned) = false := by
    rw [List.any_eq_false]
    intro c hc
    obtain ⟨time, answer, state⟩ := answered c hc
    simp [Call.isAbandoned, state]
  unfold verdict
  split
  · rename_i all
    cases first : during.findSome? (·.failure?) with
    | none => rfl
    | some e =>
      obtain ⟨c, hc, failure⟩ := List.exists_of_findSome?_eq_some first
      have failed : c.failure?.isSome := by rw [failure]; rfl
      exact absurd all (h.outstanding_ne_nil hc fun x hx => h.missing_of_failure hc failed hx)
  · rw [abandoned]
    rfl

theorem verdict_of_abandoned (h : InOrder relay before (sent ++ [c]) rest number)
    (abandoned : c.isAbandoned) :
    verdict relay before (sent ++ [c]) = .error (.timeout relay.plan.publishTimeout) := by
  have missing : c.isAccepted = false := by
    unfold Call.isAbandoned at abandoned
    unfold Call.isAccepted
    split at abandoned
    · rename_i state
      rw [state]
    · cases abandoned
  have last : c ∈ sent ++ [c] := List.mem_append_right _ List.mem_cons_self
  have left := h.outstanding_ne_nil last fun x hx => h.missing_of_last missing hx
  have some : (sent ++ [c]).any (·.isAbandoned) = true :=
    List.any_eq_true.2 ⟨c, last, abandoned⟩
  unfold verdict
  rw [if_neg left, if_pos some]

end InOrder

theorem isAnswered_of_ended {c : Call} (ended : c.isInProgress = false)
    (kept : c.isAbandoned = false) : c.IsAnswered := by
  cases state : c.state with
  | inProgress => simp [Call.isInProgress, state] at ended
  | answered time answer => exact ⟨time, answer, state⟩
  | abandoned => simp [Call.isAbandoned, state] at kept

theorem failure_of_isAnswered {c : Call} (answered : c.IsAnswered) (letter : c.isCopy = false)
    (missing : c.isAccepted = false) : c.failure?.isSome := by
  obtain ⟨time, answer, state⟩ := answered
  cases answer with
  | ok receipt => simp [Call.isAccepted, state, letter] at missing
  | error e => simp [Call.failure?, state, letter]

theorem Conducted.result_eq_ok {relay : Relay} {before during : List Call} {r : AttemptRecord}
    (h : Conducted relay before during r) :
    r.result = .ok () ↔ outstanding relay (before ++ during) = [] := by
  rw [h.result]
  constructor
  · intro ok
    -- a target left over after a whole attempt was sent to and failed, so there is an error
    by_contra left
    unfold verdict at ok
    rw [if_neg left] at ok
    split at ok
    · cases ok
    · rename_i whole
      have whole : during.any (·.isAbandoned) = false := by simpa using whole
      obtain ⟨rest, inOrder, reached⟩ := h.inOrder
      obtain ⟨target, mem⟩ := List.exists_mem_of_ne_nil _ left
      obtain ⟨lt, absent⟩ := mem_outstanding.1 mem
      rw [hasAccepted_append, Bool.or_eq_false_iff] at absent
      have due : target ∈ sends during := by
        have before := mem_outstanding.2 ⟨lt, absent.1⟩
        rwa [← inOrder.order, reached whole, List.append_nil] at before
      obtain ⟨c, hc, aim⟩ := List.mem_map.1 due
      obtain ⟨hc, letter⟩ := List.mem_filter.1 hc
      have missing : c.isAccepted = false := by
        have all := List.any_eq_false.1 absent.2 c hc
        simpa [aim] using all
      have answered := isAnswered_of_ended (h.ended c hc)
        (by simpa using List.any_eq_false.1 whole c hc)
      have failed := failure_of_isAnswered answered (by simpa using letter) missing
      have some : (during.findSome? (·.failure?)).isSome :=
        List.findSome?_isSome_iff.2 ⟨c, hc, failed⟩
      split at ok
      · cases ok
      · rename_i none
        rw [none] at some
        cases some
  · intro all
    unfold verdict
    rw [if_pos all]

namespace History

variable {relay : Relay} {calls : List Call} {attempts : List AttemptRecord}

theorem once (h : History relay calls attempts) :
    calls.Pairwise fun c later => c.isAccepted → later.target ≠ c.target := by
  induction h with
  | none => exact .nil
  | refused _ _ _ _ _ ih => exact ih
  | @conducted calls attempts during r _ _ _ _ conducted ih =>
    obtain ⟨rest, inOrder, _⟩ := conducted.inOrder
    rw [List.pairwise_append]
    refine ⟨ih, inOrder.once, fun c hc later hl accepted same => ?_⟩
    obtain ⟨_, absent⟩ := mem_outstanding.1 (inOrder.sends_subset (inOrder.aimed later hl))
    rw [same, hasAccepted_iff.2 ⟨c, hc, rfl, accepted⟩] at absent
    cases absent

end History

end OutboxRelay
