import OutboxRelay.Proofs.Dispatch.CallLog
import OutboxRelay.Proofs.Dispatch.History
import OutboxRelay.Proofs.Dispatch.Timing

/-! What a delivery knows agrees with the record. The calls and attempts of its event are a history,
followed by the attempt that is under way; the targets it holds to have accepted are those whose
letters were answered so. Every step keeps this, and leaves the record of other events alone. -/

namespace OutboxRelay.Delivery

structure Sending (relay : Relay) (past sent : List Call) (number : UInt32) (a : Attempt) :
    Prop where
  inOrder : InOrder relay past sent (a.targets.map (·.1)) number
  answered : ∀ c ∈ sent, c.IsAnswered
  failure : a.firstError = sent.findSome? (·.failure?)

structure Awaiting (relay : Relay) (past sent : List Call) (c : Call) (number : UInt32)
    (a : Attempt) (f : Flight) : Prop where
  inOrder : InOrder relay past (sent ++ [c]) (a.targets.map (·.1)) number
  answered : ∀ c ∈ sent, c.IsAnswered
  out : c.state = .inProgress
  aim : c.target = f.target.1
  copy : c.isCopy = f.cause.isSome
  failure : (match f.cause with
    | none => a.firstError
    | some e => some (a.firstError.getD e)) = sent.findSome? (·.failure?)

/-- What is past when another attempt is to be made, or is being made. -/
structure Past (relay : Relay) (calls : List Call) (attempts : List AttemptRecord)
    (number : UInt32) : Prop where
  history : History relay calls attempts
  left : outstanding relay calls ≠ []
  next : number.toNat = attempts.length + 1

/-- The stage of a delivery, in the light of the calls and attempts of its event. -/
def StageRecorded (relay : Relay) (log : List (Call × Nat)) (attempts : List AttemptRecord)
    (d : Delivery) : Prop :=
  match d.stage with
  | .beginning | .pausing _ => Past relay (log.map (·.1)) attempts d.attempt
  | .sending a => ∃ past sent, log.map (·.1) = past ++ sent ∧
      Past relay past attempts d.attempt ∧ Sending relay past sent d.attempt a
  | .awaiting a f => ∃ past sent earlier c, log = earlier ++ [(c, f.call)] ∧
      earlier.map (·.1) = past ++ sent ∧ Past relay past attempts d.attempt ∧
      Awaiting relay past sent c d.attempt a f
  | .settling result => History relay (log.map (·.1)) attempts ∧
      (result = .ok () ↔ outstanding relay (log.map (·.1)) = [])

structure Recorded (relay : Relay) (log : List (Call × Nat)) (attempts : List AttemptRecord)
    (d : Delivery) : Prop where
  accepted : ∀ target, target ∈ d.accepted ↔ hasAccepted (log.map (·.1)) target
  stage : StageRecorded relay log attempts d

def AwaitsLast (log : List (Call × Nat)) (d : Delivery) : Prop :=
  match d.stage with
  | .awaiting _ f => ∃ earlier c, log = earlier ++ [(c, f.call)]
  | _ => True

theorem Recorded.awaitsLast {relay : Relay} {log : List (Call × Nat)}
    {attempts : List AttemptRecord} {d : Delivery} (h : Recorded relay log attempts d) :
    d.AwaitsLast log := by
  have known := h.stage
  unfold StageRecorded at known
  unfold AwaitsLast
  split
  · rename_i stage
    rw [stage] at known
    obtain ⟨_, _, earlier, c, last, _⟩ := known
    exact ⟨earlier, c, last⟩
  · trivial

section Attempts

variable {relay : Relay} {past sent : List Call} {c : Call} {d d' : Delivery} {a : Attempt}
  {f : Flight} {number : UInt32} {attempts : List AttemptRecord} {log : List (Call × Nat)}

theorem waitingTargets_positions (accepted : ∀ i, i ∈ d.accepted ↔ hasAccepted past i) :
    (d.waitingTargets relay).map (·.1) = outstanding relay past := by
  have unfolded : d.waitingTargets relay =
      (relay.targets.zipIdx.map fun x => (x.2, x.1)).filter fun x => !d.accepted.contains x.1 := rfl
  have positions : (relay.targets.zipIdx.map fun x => (x.2, x.1)).map (·.1) =
      List.range relay.targets.length := by
    rw [List.map_map, List.range_eq_range', ← List.zipIdx_map_snd 0 relay.targets]
    rfl
  rw [unfolded]
  unfold outstanding
  generalize relay.targets.zipIdx.map (fun x => (x.2, x.1)) = numbered at positions ⊢
  rw [← positions, List.filter_map]
  congr 1
  apply List.filter_congr
  intro x _
  have same := accepted x.1
  cases h : hasAccepted past x.1 <;> simp_all

theorem sending_nil (accepted : ∀ i, i ∈ d.accepted ↔ hasAccepted past i) (now : Instant) :
    Sending relay past [] d.attempt ⟨now, none, d.waitingTargets relay, none⟩ := by
  refine ⟨?_, by simp, rfl⟩
  rw [waitingTargets_positions accepted]
  exact .nil relay past d.attempt

theorem Awaiting.answered_endLast (h : Awaiting relay past sent c number a f) (time : Instant)
    (answer : Except PublishError Receipt) :
    ∀ x ∈ sent ++ [{ c with state := .answered time answer }], x.IsAnswered :=
  List.forall_mem_append.2 ⟨h.answered, List.forall_mem_singleton.2 ⟨time, answer, rfl⟩⟩

theorem Awaiting.failure_endLast (h : Awaiting relay past sent c number a f) (first : f.cause = none)
    (time : Instant) (e : PublishError) :
    some (a.firstError.getD e) =
      (sent ++ [{ c with state := .answered time (.error e) }]).findSome? Call.failure? := by
  have failure := h.failure
  have letter := h.copy
  rw [first] at failure letter
  rw [List.findSome?_append, ← failure]
  cases a.firstError <;> simp_all [Call.failure?]

theorem findSome_failure_concat (none : c.failure? = none) :
    (sent ++ [c]).findSome? Call.failure? = sent.findSome? Call.failure? := by
  rw [List.findSome?_append]
  simp [none]

theorem hasAccepted_concat {target : Nat} (missing : c.isAccepted = false) :
    hasAccepted (sent ++ [c]) target = hasAccepted sent target := by
  rw [hasAccepted_append]
  simp [hasAccepted, missing]

theorem map_fst_concat {earlier : List (Call × Nat)} (h : earlier.map (·.1) = past ++ sent)
    (c : Call) (k : Nat) : (earlier ++ [(c, k)]).map (·.1) = past ++ (sent ++ [c]) := by
  rw [List.map_append, h, List.append_assoc]
  rfl

theorem hasAccepted_map_concat {earlier : List (Call × Nat)} {target k : Nat}
    (missing : c.isAccepted = false) :
    hasAccepted ((earlier ++ [(c, k)]).map (·.1)) target =
      hasAccepted (earlier.map (·.1)) target := by
  rw [List.map_append, List.map_singleton, hasAccepted_concat missing]

theorem Awaiting.accepted_iff {earlier : List (Call × Nat)} {positions : List Nat}
    (h : Awaiting relay past sent c number a f)
    (accepted : ∀ i, i ∈ positions ↔ hasAccepted ((earlier ++ [(c, f.call)]).map (·.1)) i) :
    ∀ i, i ∈ positions ↔ hasAccepted (earlier.map (·.1)) i := by
  have missing : c.isAccepted = false := by
    unfold Call.isAccepted
    rw [h.out]
  intro i
  rw [accepted, hasAccepted_map_concat missing]

theorem Sending.conducted (h : Sending relay past sent number a) (reached : a.targets = [])
    {r : AttemptRecord} (same : r.number = number) (result : r.result = a.result)
    (begun : r.start.nanos ≤ r.finish.nanos)
    (within : r.finish.nanos ≤ (r.start.timerAfter relay.plan.publishTimeout).nanos) :
    Conducted relay past sent r := by
  have inOrder := h.inOrder
  rw [reached, List.map_nil] at inOrder
  have kept : sent.any (·.isAbandoned) = false := by
    rw [List.any_eq_false]
    intro c hc
    obtain ⟨time, answer, state⟩ := h.answered c hc
    simp [Call.isAbandoned, state]
  refine ⟨⟨[], same ▸ inOrder, fun _ => rfl⟩, fun c hc => ?_, ?_, begun, within, fun cut => ?_⟩
  · obtain ⟨time, answer, state⟩ := h.answered c hc
    simp [Call.isInProgress, state]
  · rw [result, inOrder.verdict_of_answered h.answered, ← h.failure]
    rfl
  · rw [kept] at cut
    cases cut

theorem Awaiting.conducted (h : Awaiting relay past sent c number a f) {r : AttemptRecord}
    (same : r.number = number)
    (result : r.result = .error (.timeout relay.plan.publishTimeout))
    (cut : r.finish = r.start.timerAfter relay.plan.publishTimeout) :
    Conducted relay past (sent ++ [{ c with state := .abandoned }]) r := by
  have inOrder := h.inOrder.endLast .abandoned
  have abandoned : (sent ++ [{ c with state := .abandoned }]).any (·.isAbandoned) = true := by
    simp [Call.isAbandoned]
  refine ⟨⟨_, same ▸ inOrder, fun kept => ?_⟩, fun x hx => ?_, ?_, ?_, ?_, fun _ => cut⟩
  · rw [abandoned] at kept
    cases kept
  · rcases List.mem_append.1 hx with old | new
    · obtain ⟨time, answer, state⟩ := h.answered x old
      simp [Call.isInProgress, state]
    · cases List.mem_singleton.1 new
      rfl
  · rw [result, inOrder.verdict_of_abandoned rfl]
  · rw [cut]
    exact r.start.le_timerAfter _
  · rw [cut]

theorem hasAccepted_map_accepted {earlier : List (Call × Nat)} {target k : Nat}
    (letter : c.isCopy = false) (time : Instant) (receipt : Receipt) :
    hasAccepted
        ((earlier ++ [(({ c with state := .answered time (.ok receipt) } : Call), k)]).map (·.1))
        target ↔
      hasAccepted (earlier.map (·.1)) target ∨ target = c.target := by
  have new : hasAccepted [{ c with state := .answered time (.ok receipt) }] target ↔
      target = c.target := by
    simp only [hasAccepted, List.any_cons, List.any_nil, Call.isAccepted, letter]
    simpa using eq_comm
  rw [List.map_append, List.map_singleton, hasAccepted_append, Bool.or_eq_true, new]

theorem recorded_of_answered {earlier : List (Call × Nat)} {a' : Attempt} {positions : List Nat}
    {time : Instant} {answer : Except PublishError Receipt}
    (eq : earlier.map (·.1) = past ++ sent) (before : Past relay past attempts d.attempt)
    (awaiting : Awaiting relay past sent c d.attempt a f) (targets : a'.targets = a.targets)
    (accepted : ∀ i, i ∈ positions ↔ hasAccepted
      ((earlier ++ [(({ c with state := .answered time answer } : Call), f.call)]).map (·.1)) i)
    (failure : a'.firstError =
      (sent ++ [{ c with state := .answered time answer }]).findSome? Call.failure?) :
    Recorded relay (earlier ++ [({ c with state := .answered time answer }, f.call)]) attempts
      { d with accepted := positions, stage := .sending a' } := by
  have inOrder := awaiting.inOrder.endLast (.answered time answer)
  rw [← targets] at inOrder
  exact ⟨accepted, past, _, map_fst_concat eq _ _, before, inOrder,
    awaiting.answered_endLast time answer, failure⟩

theorem recorded_of_copied {earlier : List (Call × Nat)} {copy : Call} {letter : Letter} {k : Nat}
    {deadline : Option Timer} {e : PublishError}
    {answer : Option (Timer × Except PublishError Receipt)}
    (accepted : ∀ i, i ∈ d.accepted ↔ hasAccepted (earlier.map (·.1)) i)
    (eq : earlier.map (·.1) = past ++ sent) (before : Past relay past attempts d.attempt)
    (awaiting : Awaiting relay past sent c d.attempt a f) (first : f.cause = none) (time : Instant)
    (isCopy : copy.isCopy = true) (aim : copy.target = f.target.1)
    (attempt : copy.attempt = d.attempt) (out : copy.state = .inProgress) :
    Recorded relay
      (earlier ++ [({ c with state := .answered time (.error e) }, f.call)] ++ [(copy, k)]) attempts
      { d with
        stage := .awaiting { a with deadline := deadline } ⟨f.target, letter, k, some e, answer⟩ } := by
  have unaccepted : copy.isAccepted = false := by
    unfold Call.isAccepted
    rw [out]
  have failed : ({ c with state := .answered time (.error e) } : Call).failure?.isSome := by
    simp [Call.failure?, awaiting.copy, first]
  have inOrder := (awaiting.inOrder.endLast (.answered time (.error e))).sendCopy failed isCopy
    (aim.trans awaiting.aim.symm) attempt
  refine ⟨fun i => ?_, past, _, _, _, rfl, map_fst_concat eq _ _, before, inOrder,
    awaiting.answered_endLast time (.error e), out, aim, isCopy,
    awaiting.failure_endLast first time e⟩
  rw [hasAccepted_map_concat unaccepted, hasAccepted_map_concat rfl]
  exact accepted i

theorem recorded_of_concluded {now : Instant} {r : AttemptRecord}
    (concluded : Concluded relay now d r.result d')
    (accepted : ∀ target, target ∈ d.accepted ↔ hasAccepted (log.map (·.1)) target)
    (history : History relay (log.map (·.1)) (attempts ++ [r]))
    (number : d.attempt.toNat = attempts.length + 1)
    (ok : r.result = .ok () ↔ outstanding relay (log.map (·.1)) = []) :
    Recorded relay log (attempts ++ [r]) d' := by
  have again {e : PublishError} (failed : r.result = .error e)
      (short : d.attempt < relay.retry.attemptLimit) :
      outstanding relay (log.map (·.1)) ≠ [] ∧
        (d.attempt + 1).toNat = (attempts ++ [r]).length + 1 := by
    constructor
    · intro none
      rw [ok.2 none] at failed
      cases failed
    · rw [RetryPolicy.toNat_succ short, number, List.length_append]
      rfl
  cases concluded with
  | settling => exact ⟨accepted, history, ok⟩
  | again failed _ short _ =>
    obtain ⟨left, number⟩ := again failed short
    exact ⟨accepted, history, left, number⟩
  | pausing failed _ short _ =>
    obtain ⟨left, number⟩ := again failed short
    exact ⟨accepted, history, left, number⟩

theorem recorded_of_conducted {now : Instant} {r : AttemptRecord} {during : List Call}
    (concluded : Concluded relay now d r.result d')
    (accepted : ∀ target, target ∈ d.accepted ↔ hasAccepted (log.map (·.1)) target)
    (split : log.map (·.1) = past ++ during) (before : Past relay past attempts d.attempt)
    (admitted : r.admitted = true) (same : r.number = d.attempt)
    (conducted : Conducted relay past during r) : Recorded relay log (attempts ++ [r]) d' := by
  refine recorded_of_concluded concluded accepted ?_ before.next ?_
  · rw [split]
    exact .conducted before.history before.left (same ▸ before.next) admitted conducted
  · rw [split]
    exact conducted.result_eq_ok

/-- The last call of a delivery that awaits an answer is the one that is out, and so far the target
of it has not accepted the event through it. -/
theorem Recorded.awaiting (h : Recorded relay log attempts d) (stage : d.stage = .awaiting a f) :
    ∃ past sent earlier c, log = earlier ++ [(c, f.call)] ∧ earlier.map (·.1) = past ++ sent ∧
      Past relay past attempts d.attempt ∧ Awaiting relay past sent c d.attempt a f ∧
      ∀ i, i ∈ d.accepted ↔ hasAccepted (earlier.map (·.1)) i := by
  have known := h.stage
  unfold StageRecorded at known
  rw [stage] at known
  obtain ⟨past, sent, earlier, c, log, eq, before, awaiting⟩ := known
  exact ⟨past, sent, earlier, c, log, eq, before, awaiting, awaiting.accepted_iff (log ▸ h.accepted)⟩

end Attempts

section Step

variable {σ : Type} {relay : Relay} {s s' : RelayState σ} {d d' : Delivery} {m n : Nat}

theorem event_of_next (h : Next relay s d s' d') : d'.event = d.event := by
  have concluded {now result d'} (h : Concluded relay now d result d') : d'.event = d.event := by
    cases h <;> rfl
  cases h with
  | refused _ _ h => exact concluded h
  | completed _ _ h => exact concluded h
  | timedOut _ _ _ _ h => exact concluded h
  | _ => rfl

theorem store_of_next (h : Next relay s d s' d') : s'.store = s.store := by
  cases h <;> rfl

theorem ownAttempts_record (h : n ≤ s.attempts.length) (start : Instant) (admitted : Bool)
    (result : Except PublishError Unit) :
    ownAttempts n d.event.id (s.attempts ++ [record s d start admitted result]) =
      ownAttempts n d.event.id s.attempts ++ [record s d start admitted result] :=
  ownAttempts_append_same h rfl

theorem ownCalls_newCall (h : m ≤ s.calls.length) (target : Nat) (isCopy : Bool)
    (letter : Letter) :
    ownCalls m d.event.id (s.calls ++ [newCall s d target isCopy letter]) =
      ownCalls m d.event.id s.calls ++ [(newCall s d target isCopy letter, s.calls.length)] :=
  ownCalls_append_same h rfl

theorem ownCalls_endCall {log : List (Call × Nat)} {c : Call} {number : Nat}
    (h : ownCalls m d.event.id s.calls = log ++ [(c, number)]) (state : CallState) :
    ownCalls m d.event.id (s.endCall number state).calls =
      log ++ [({ c with state := state }, number)] :=
  ownCalls_modify_last (fun _ => rfl) h

theorem recorded_of_next (h : Next relay s d s' d') (timely : d.Timely relay s.now)
    (calls : m ≤ s.calls.length) (attempts : n ≤ s.attempts.length)
    (recorded : Recorded relay (ownCalls m d.event.id s.calls)
      (ownAttempts n d.event.id s.attempts) d) :
    Recorded relay (ownCalls m d.event.id s'.calls) (ownAttempts n d.event.id s'.attempts) d' := by
  have accepted := recorded.accepted
  have known := recorded.stage
  unfold StageRecorded at known
  cases h with
  | refused stage _ concluded =>
    rw [stage] at known
    rw [ownAttempts_record attempts]
    refine recorded_of_concluded concluded accepted ?_ known.next ?_
    · exact .refused known.history known.left known.next rfl rfl
    · exact ⟨nofun, fun none => absurd none known.left⟩
  | admitted stage _ =>
    rw [stage] at known
    exact ⟨accepted, _, [], (List.append_nil _).symm, known, sending_nil accepted s.now⟩
  | @handed a target rest letter ids timers answer deadline stage targets _ _ =>
    rw [stage] at known
    obtain ⟨past, sent, log, before, sending⟩ := known
    have inOrder := sending.inOrder
    rw [targets, List.map_cons] at inOrder
    rw [ownCalls_newCall calls]
    refine ⟨fun i => ?_, past, sent, _, _, rfl, log, before, ?_⟩
    · rw [hasAccepted_map_concat rfl]
      exact accepted i
    · exact ⟨inOrder.send rfl rfl rfl, sending.answered, rfl, rfl, rfl, sending.failure⟩
  | @completed a journal timers _ stage targets concluded =>
    rw [stage] at known
    obtain ⟨past, sent, log, before, sending⟩ := known
    have onTime : a.OnTime relay.plan.publishTimeout s.now := by
      simpa only [Timely, stage] using timely
    have conducted := sending.conducted targets (r := record s d a.started true a.result)
      rfl rfl onTime.begun onTime.within
    rw [ownAttempts_record attempts]
    exact recorded_of_conducted concluded accepted log before rfl rfl conducted
  | @accepted a f timer receipt journal stage first answer due =>
    obtain ⟨past, sent, earlier, c, log, eq, before, awaiting, known⟩ := recorded.awaiting stage
    have letter : c.isCopy = false := by rw [awaiting.copy, first]; rfl
    have failure := awaiting.failure
    rw [first] at failure
    rw [ownCalls_endCall log]
    refine recorded_of_answered eq before awaiting rfl (fun i => ?_) ?_
    · rw [List.mem_cons, known i, or_comm, hasAccepted_map_accepted letter, awaiting.aim]
    · rw [findSome_failure_concat (by simp [Call.failure?])]
      exact failure
  | @failed a f timer e journal stage first answer due plain =>
    obtain ⟨past, sent, earlier, c, log, eq, before, awaiting, known⟩ := recorded.awaiting stage
    rw [ownCalls_endCall log]
    refine recorded_of_answered eq before awaiting rfl (fun i => ?_)
      (awaiting.failure_endLast first s.now e)
    have missing : ({ c with state := .answered s.now (.error e) } : Call).isAccepted = false := rfl
    rw [known i, hasAccepted_map_concat missing]
  | @copied a f timer e suffix timers answer deadline journal copy stage first _ _ _ _ _ =>
    obtain ⟨past, sent, earlier, c, log, eq, before, awaiting, known⟩ := recorded.awaiting stage
    have grown := ownCalls_newCall (s := s.endCall f.call (.answered s.now (.error e))) (d := d)
      (by simpa [RelayState.endCall] using calls) f.target.1 true copy
    have number : (s.endCall f.call (.answered s.now (.error e))).calls.length = s.calls.length := by
      simp [RelayState.endCall]
    rw [ownCalls_endCall log, number] at grown
    rw [grown]
    exact recorded_of_copied known eq before awaiting first s.now rfl rfl rfl rfl
  | @copyAnswered a f timer reply e journal stage copy answer due =>
    obtain ⟨past, sent, earlier, c, log, eq, before, awaiting, known⟩ := recorded.awaiting stage
    have isCopy : c.isCopy = true := by rw [awaiting.copy, copy]; rfl
    have failure := awaiting.failure
    rw [copy] at failure
    rw [ownCalls_endCall log]
    refine recorded_of_answered eq before awaiting rfl (fun i => ?_) ?_
    · have missing : ({ c with state := .answered s.now reply } : Call).isAccepted = false :=
        not_isAccepted_of_isCopy isCopy
      rw [known i, hasAccepted_map_concat missing]
    · rw [findSome_failure_concat (by cases reply <;> simp [Call.failure?, isCopy])]
      exact failure
  | @timedOut a f deadline journal timers _ stage budget spent late concluded =>
    obtain ⟨past, sent, earlier, c, log, eq, before, awaiting, known⟩ := recorded.awaiting stage
    have now := now_of_timedOut timely stage budget spent
    have conducted := awaiting.conducted
      (r := record s d a.started true (.error (.timeout relay.plan.publishTimeout))) rfl rfl now
    rw [ownAttempts_record attempts, ownCalls_endCall log]
    refine recorded_of_conducted concluded (fun i => ?_) (map_fst_concat eq _ _) before rfl rfl
      conducted
    have missing : ({ c with state := .abandoned } : Call).isAccepted = false := rfl
    rw [known i, hasAccepted_map_concat missing]
  | resumed stage _ =>
    rw [stage] at known
    exact ⟨accepted, known⟩

theorem calls_of_next (h : Next relay s d s' d') : s.calls.length ≤ s'.calls.length := by
  cases h <;> simp [RelayState.endCall]

theorem attempts_of_next (h : Next relay s d s' d') : s.attempts.length ≤ s'.attempts.length := by
  cases h <;> simp [RelayState.endCall]

theorem ownCalls_of_next_other (h : Next relay s d s' d')
    (awaits : d.AwaitsLast (ownCalls m d.event.id s.calls)) {event : Int}
    (other : d.event.id ≠ event) : ownCalls m event s'.calls = ownCalls m event s.calls := by
  have ended {a f} (stage : d.stage = .awaiting a f) (state : CallState) :
      ownCalls m event (s.endCall f.call state).calls = ownCalls m event s.calls := by
    unfold AwaitsLast at awaits
    rw [stage] at awaits
    obtain ⟨earlier, c, log⟩ := awaits
    have last : (c, f.call) ∈ ownCalls m d.event.id s.calls := by
      rw [log]
      exact List.mem_append_right _ List.mem_cons_self
    obtain ⟨get, _, own⟩ := mem_ownCalls.1 last
    refine ownCalls_modify_other (fun _ => rfl) fun c' get' => ?_
    rw [get] at get'
    cases get'
    rw [own]
    exact other
  cases h with
  | handed => exact ownCalls_append_other other
  | accepted stage => exact ended stage _
  | failed stage => exact ended stage _
  | copied stage => exact (ownCalls_append_other other).trans (ended stage _)
  | copyAnswered stage => exact ended stage _
  | timedOut stage => exact ended stage _
  | _ => rfl

theorem ownAttempts_of_next_other (h : Next relay s d s' d') (attempts : n ≤ s.attempts.length)
    {event : Int} (other : d.event.id ≠ event) :
    ownAttempts n event s'.attempts = ownAttempts n event s.attempts := by
  cases h with
  | refused => exact ownAttempts_append_other attempts other
  | completed => exact ownAttempts_append_other attempts other
  | timedOut => exact ownAttempts_append_other attempts other
  | _ => rfl

end Step

end OutboxRelay.Delivery
