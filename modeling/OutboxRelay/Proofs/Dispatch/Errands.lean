import OutboxRelay.Proofs.Dispatch.Course
import OutboxRelay.Proofs.Dispatch.Openings
import OutboxRelay.Store.Trial

/-! A dispatcher that has at most one event in flight. All that it does, its attempts, its letters
and its calls of the store, falls into errands, one for each event: the rounds of attempts, and the
mark that the last of them led to. No errand begins before the one before it has ended, so the
circuit breaker is driven by one attempt after the other. -/

namespace OutboxRelay

/-- An attempt and the letters that were sent in it. -/
structure Round where
  record : AttemptRecord
  calls : List Call

namespace Round

structure Sound (r : Round) : Prop where
  own : ∀ c ∈ r.calls, c.event = r.record.event ∧ c.attempt = r.record.number
  during : ∀ c ∈ r.calls, r.record.start.nanos ≤ c.start.nanos ∧
    c.start.nanos ≤ r.record.finish.nanos
  silent : r.record.admitted = false → r.calls = []

def records (rounds : List Round) : List AttemptRecord := rounds.map (·.record)

def letters (rounds : List Round) : List Call := rounds.flatMap (·.calls)

theorem records_append (xs ys : List Round) : records (xs ++ ys) = records xs ++ records ys :=
  List.map_append

theorem letters_append (xs ys : List Round) : letters (xs ++ ys) = letters xs ++ letters ys :=
  List.flatMap_append

theorem letters_singleton (r : Round) : letters [r] = r.calls := by
  simp [letters]

end Round

def StoreCall.ofResult (event : Int) : Except PublishError Unit → StoreCall
  | .ok _ => .published event
  | .error e => .failed event e.message

def StoreCall.isMark : StoreCall → Bool
  | .published _ | .failed _ _ => true
  | .claim _ | .stale _ => false

namespace TrialStore

variable {σ α : Type}

def marks (s : TrialStore σ) : List StoreCall := s.calls.filter (·.isMark)

theorem marks_pass (s : TrialStore σ) (call : StoreCall) (fails : Bool) (context : String)
    (request : σ → StoreReply σ α) :
    (s.pass call fails context request).store.marks = s.marks ++ [call].filter (·.isMark) := by
  rw [marks, calls_pass, List.filter_append]
  rfl

theorem marks_settleReply [Outbox σ] (s : RelayState (TrialStore σ)) (d : Delivery)
    (result : Except PublishError Unit) :
    (d.settleReply s result).store.marks = s.store.marks ++ [.ofResult d.event.id result] := by
  cases result with
  | ok value => exact marks_pass ..
  | error e => exact marks_pass ..

end TrialStore

/-- An event from its first attempt to its mark. -/
structure Errand where
  rounds : List Round
  outcome : Outcome
  mark : StoreCall

namespace Errand

structure Sound (relay : Relay) (e : Errand) : Prop where
  rounds : ∀ r ∈ e.rounds, r.Sound ∧ r.record.event = e.outcome.event
  exhausted : Exhausted relay (Round.records e.rounds)
  settled : ∃ last ∈ e.rounds.getLast?, e.outcome.ended = last.record.finish ∧
    e.mark = .ofResult e.outcome.event last.record.result ∧
    ∀ mark, e.outcome.result = .ok mark → mark = .ofResult last.record.result

def allRounds (errands : List Errand) : List Round := errands.flatMap (·.rounds)

theorem allRounds_concat (errands : List Errand) (e : Errand) :
    allRounds (errands ++ [e]) = allRounds errands ++ e.rounds := by
  simp [allRounds]

end Errand

namespace Delivery

structure IsLetter (event : Int) (attempt : UInt32) (started now : Instant) (c : Call) : Prop where
  event : c.event = event
  attempt : c.attempt = attempt
  begun : started.nanos ≤ c.start.nanos
  past : c.start.nanos ≤ now.nanos

section Stage

variable {σ : Type} {relay : Relay} {s s' : RelayState σ} {d d' : Delivery} {started : Instant}
  {past own : List Round} {sent letters : List Call} {a : Attempt} {f : Flight}

structure Underway (relay : Relay) (s : RelayState σ) (d : Delivery) (started : Instant)
    (sent : List Call) : Prop where
  admitted : ∃ before journal, Breaker.Driven relay.breaker s.attempts before ∧
    before.request relay.breaker started = .admitted s.breaker journal
  since : ∀ r ∈ s.attempts, r.finish.nanos ≤ started.nanos
  begun : started.nanos ≤ s.now.nanos
  letters : ∀ c ∈ sent, IsLetter d.event.id d.attempt started s.now c

/-- What the stage says about the breaker and the rounds of the delivery. -/
def StageDriven (relay : Relay) (s : RelayState σ) (own : List Round) (sent : List Call)
    (d : Delivery) : Prop :=
  match d.stage with
  | .beginning | .pausing _ => sent = [] ∧ Breaker.Driven relay.breaker s.attempts s.breaker
  | .sending a => Underway relay s d a.started sent
  | .awaiting a f => s.calls.length = f.call + 1 ∧ sent ≠ [] ∧ Underway relay s d a.started sent
  | .settling result => sent = [] ∧ Breaker.Driven relay.breaker s.attempts s.breaker ∧
      ∃ last ∈ own.getLast?, last.record.result = result ∧ last.record.finish = s.now

/-- A delivery that has the dispatcher to itself. Before it there were the rounds `past`, it has
made the rounds `own`, and its present attempt has sent these letters. -/
structure InHand (relay : Relay) (s : RelayState σ) (past own : List Round) (sent : List Call)
    (d : Delivery) : Prop where
  attempts : s.attempts = Round.records (past ++ own)
  calls : s.calls = Round.letters (past ++ own) ++ sent
  ended : ∀ r ∈ s.attempts, r.finish.nanos ≤ s.now.nanos
  sound : ∀ r ∈ own, r.Sound ∧ r.record.event = d.event.id
  retries : Retries relay (Round.records own) d
  stage : StageDriven relay s own sent d

theorem Underway.goOn (h : Underway relay s d started sent) (attempts : s'.attempts = s.attempts)
    (breaker : s'.breaker = s.breaker) (now : s'.now = s.now) (event : d'.event = d.event)
    (number : d'.attempt = d.attempt)
    (all : ∀ c ∈ letters, IsLetter d.event.id d.attempt started s.now c) :
    Underway relay s' d' started letters := by
  constructor
  · rw [attempts, breaker]
    exact h.admitted
  · rw [attempts]
    exact h.since
  · rw [now]
    exact h.begun
  · rw [now, event, number]
    exact all

theorem isLetter_newCall (begun : started.nanos ≤ s.now.nanos) (target : Nat) (isCopy : Bool)
    (letter : Letter) :
    IsLetter d.event.id d.attempt started s.now (newCall s d target isCopy letter) :=
  ⟨rfl, rfl, begun, Nat.le_refl _⟩

theorem Underway.sound (h : Underway relay s d started sent) (result : Except PublishError Unit) :
    Round.Sound ⟨record s d started true result, sent⟩ :=
  ⟨fun c hc => ⟨(h.letters c hc).event, (h.letters c hc).attempt⟩,
    fun c hc => ⟨(h.letters c hc).begun, (h.letters c hc).past⟩, nofun⟩

theorem Underway.driven (h : Underway relay s d started sent) (result : Except PublishError Unit) :
    Breaker.Driven relay.breaker (s.attempts ++ [record s d started true result])
      (s.breaker.settle relay.breaker s.now result).1 := by
  obtain ⟨before, journal, driven, admits⟩ := h.admitted
  exact driven.attempt (r := record s d started true result) h.since (.admitted admits rfl h.begun)

theorem InHand.idle (h : InHand relay s past own sent d)
    (stage : d.stage = .beginning ∨ ∃ timer, d.stage = .pausing timer) :
    sent = [] ∧ Breaker.Driven relay.breaker s.attempts s.breaker := by
  rcases stage with stage | ⟨timer, stage⟩ <;> simpa only [StageDriven, stage] using h.stage

theorem InHand.underway (h : InHand relay s past own sent d) (stage : d.stage = .sending a) :
    Underway relay s d a.started sent := by
  simpa only [StageDriven, stage] using h.stage

theorem InHand.last (h : InHand relay s past own sent d) {result : Except PublishError Unit}
    (stage : d.stage = .settling result) :
    sent = [] ∧ Breaker.Driven relay.breaker s.attempts s.breaker ∧
      ∃ last ∈ own.getLast?, last.record.result = result ∧ last.record.finish = s.now := by
  simpa only [StageDriven, stage] using h.stage

theorem modify_last (before : List Call) (c : Call) (change : Call → Call) :
    (before ++ [c]).modify before.length change = before ++ [change c] := by
  induction before with
  | nil => rfl
  | cons b rest ih => simp [ih]

theorem InHand.endCall (h : InHand relay s past own sent d) (stage : d.stage = .awaiting a f)
    (state : CallState) : ∃ letters,
      (s.endCall f.call state).calls = Round.letters (past ++ own) ++ letters ∧
      Underway relay s d a.started letters := by
  have known := h.stage
  simp only [StageDriven, stage] at known
  obtain ⟨last, out, underway⟩ := known
  obtain ⟨earlier, c, rfl⟩ : ∃ earlier c, sent = earlier ++ [c] :=
    ⟨_, _, (List.dropLast_append_getLast out).symm⟩
  have calls := h.calls
  rw [← List.append_assoc] at calls
  have place : f.call = (Round.letters (past ++ own) ++ earlier).length := by
    rw [calls, List.length_append, List.length_singleton] at last
    omega
  refine ⟨earlier ++ [{ c with state := state }], ?_, underway.goOn rfl rfl rfl rfl rfl ?_⟩
  · rw [RelayState.endCall, calls, place, modify_last, List.append_assoc]
  · have letters := underway.letters
    rw [List.forall_mem_append, List.forall_mem_singleton] at letters ⊢
    obtain ⟨event, attempt, begun, past⟩ := letters.2
    exact ⟨letters.1, event, attempt, begun, past⟩

end Stage

/-! ### The steps of a delivery -/

section Step

variable {σ : Type} {relay : Relay} {s s' : RelayState σ} {d d' : Delivery}
  {past own : List Round} {sent letters : List Call} {started : Instant}

theorem inHand_of_concluded {r : AttemptRecord} (h : InHand relay s past own sent d)
    (unsettled : ∀ x ∈ Round.records own, x.IsRetried relay)
    (attempts : s'.attempts = s.attempts ++ [r]) (now : s'.now = s.now)
    (calls : s'.calls = Round.letters (past ++ own) ++ letters)
    (sound : Round.Sound ⟨r, letters⟩) (event : r.event = d.event.id)
    (number : r.number = d.attempt) (finish : r.finish = s.now)
    (driven : Breaker.Driven relay.breaker s'.attempts s'.breaker)
    (concluded : Concluded relay s.now d r.result d') :
    ∃ own' sent', InHand relay s' past own' sent' d' := by
  have same : d'.event = d.event := by cases concluded <;> rfl
  have stage : StageDriven relay s' (own ++ [⟨r, letters⟩]) [] d' := by
    cases concluded with
    | settling _ => exact ⟨rfl, driven, ⟨r, letters⟩, by simp, rfl, finish.trans now.symm⟩
    | again _ _ _ _ => exact ⟨rfl, driven⟩
    | pausing _ _ _ _ => exact ⟨rfl, driven⟩
  refine ⟨own ++ [⟨r, letters⟩], [], ?_, ?_, ?_, ?_, ?_, stage⟩
  · rw [attempts, h.attempts, ← List.append_assoc, Round.records_append (past ++ own)]
    rfl
  · rw [calls, ← List.append_assoc, Round.letters_append (past ++ own), Round.letters_singleton,
      List.append_nil]
  · rw [attempts, now, List.forall_mem_append, List.forall_mem_singleton, finish]
    exact ⟨h.ended, Nat.le_refl _⟩
  · rw [same, List.forall_mem_append, List.forall_mem_singleton]
    exact ⟨h.sound, sound, event⟩
  · rw [Round.records_append]
    exact retries_of_concluded unsettled number concluded

theorem inHand_of_ended (h : InHand relay s past own sent d)
    (unsettled : ∀ x ∈ Round.records own, x.IsRetried relay)
    (underway : Underway relay s d started letters) {result : Except PublishError Unit}
    (attempts : s'.attempts = s.attempts ++ [record s d started true result])
    (breaker : s'.breaker = (s.breaker.settle relay.breaker s.now result).1)
    (calls : s'.calls = Round.letters (past ++ own) ++ letters) (now : s'.now = s.now)
    (concluded : Concluded relay s.now d result d') :
    ∃ own' sent', InHand relay s' past own' sent' d' := by
  refine inHand_of_concluded h unsettled attempts now calls (underway.sound result) rfl rfl rfl ?_
    concluded
  rw [attempts, breaker]
  exact underway.driven result

theorem inHand_of_ongoing (h : InHand relay s past own sent d)
    (attempts : s'.attempts = s.attempts) (now : s'.now = s.now)
    (calls : s'.calls = Round.letters (past ++ own) ++ letters) (event : d'.event = d.event)
    (retries : Retries relay (Round.records own) d') (stage : StageDriven relay s' own letters d') :
    ∃ own' sent', InHand relay s' past own' sent' d' := by
  refine ⟨own, letters, attempts.trans h.attempts, calls, ?_, ?_, retries, stage⟩
  · rw [attempts, now]
    exact h.ended
  · rw [event]
    exact h.sound

theorem inHand_of_answered (h : InHand relay s past own sent d)
    (unsettled : ∀ x ∈ Round.records own, x.IsRetried relay) {a a' : Attempt} {f : Flight}
    (stage : d.stage = .awaiting a f) {state : CallState} (attempts : s'.attempts = s.attempts)
    (breaker : s'.breaker = s.breaker) (now : s'.now = s.now)
    (calls : s'.calls = (s.endCall f.call state).calls) (event : d'.event = d.event)
    (number : d'.attempt = d.attempt) (sending : d'.stage = .sending a')
    (started : a'.started = a.started) : ∃ own' sent', InHand relay s' past own' sent' d' := by
  obtain ⟨letters, ended, underway⟩ := h.endCall stage state
  refine inHand_of_ongoing h attempts now (calls.trans ended) event ?_ ?_
  · simpa only [Retries, sending] using unsettled
  · simp only [StageDriven, sending, started]
    exact underway.goOn attempts breaker now event number underway.letters

theorem inHand_of_handed (h : InHand relay s past own sent d)
    (unsettled : ∀ x ∈ Round.records own, x.IsRetried relay) {c : Call}
    (underway : Underway relay s d started letters)
    (letter : IsLetter d.event.id d.attempt started s.now c)
    (calls : s'.calls = Round.letters (past ++ own) ++ letters ++ [c])
    (attempts : s'.attempts = s.attempts) (breaker : s'.breaker = s.breaker)
    (now : s'.now = s.now) (event : d'.event = d.event) (number : d'.attempt = d.attempt)
    {a' : Attempt} {f' : Flight} (awaiting : d'.stage = .awaiting a' f')
    (begun : a'.started = started) (last : s'.calls.length = f'.call + 1) :
    ∃ own' sent', InHand relay s' past own' sent' d' := by
  rw [List.append_assoc] at calls
  refine inHand_of_ongoing h attempts now calls event ?_ ?_
  · simpa only [Retries, awaiting] using unsettled
  · have all := List.forall_mem_append.2 ⟨underway.letters, List.forall_mem_singleton.2 letter⟩
    simp only [StageDriven, awaiting, begun]
    exact ⟨last, by simp, underway.goOn attempts breaker now event number all⟩

theorem inHand_of_next (h : Next relay s d s' d') (inHand : InHand relay s past own sent d) :
    ∃ own' sent', InHand relay s' past own' sent' d' := by
  have unsettled := isRetried_of_next h inHand.retries
  cases h with
  | refused stage rejected concluded =>
    obtain ⟨rfl, driven⟩ := inHand.idle (.inl stage)
    refine inHand_of_concluded inHand unsettled rfl rfl inHand.calls
      ⟨by simp, by simp, fun _ => rfl⟩ rfl rfl rfl ?_ concluded
    exact driven.attempt inHand.ended (.rejected rejected rfl rfl rfl)
  | @admitted breaker entries journal stage admits =>
    obtain ⟨rfl, driven⟩ := inHand.idle (.inl stage)
    exact inHand_of_ongoing inHand rfl rfl inHand.calls rfl unsettled
      ⟨⟨s.breaker, entries, driven, admits⟩, inHand.ended, Nat.le_refl _, nofun⟩
  | @handed a target rest letter ids timers answer deadline stage targets first awaits =>
    have underway := inHand.underway stage
    exact inHand_of_handed inHand unsettled underway
      (isLetter_newCall underway.begun target.1 false letter)
      (congrArg (· ++ [newCall s d target.1 false letter]) inHand.calls)
      rfl rfl rfl rfl rfl rfl rfl (by simp)
  | completed stage targets concluded =>
    exact inHand_of_ended inHand unsettled (inHand.underway stage) rfl rfl inHand.calls rfl
      concluded
  | accepted stage first answer due =>
    exact inHand_of_answered inHand unsettled stage rfl rfl rfl rfl rfl rfl rfl rfl
  | failed stage first answer due plain =>
    exact inHand_of_answered inHand unsettled stage rfl rfl rfl rfl rfl rfl rfl rfl
  | @copied a f timer e suffix timers answer' deadline journal copy stage first answer due kafka
      letter awaits =>
    obtain ⟨letters, calls, underway⟩ := inHand.endCall stage (.answered s.now (.error e))
    exact inHand_of_handed inHand unsettled underway (isLetter_newCall
      (s := s.endCall f.call (.answered s.now (.error e))) underway.begun f.target.1 true copy)
      (by simp only [calls]) rfl rfl rfl rfl rfl rfl rfl (by simp [RelayState.endCall])
  | copyAnswered stage copy answer due =>
    exact inHand_of_answered inHand unsettled stage rfl rfl rfl rfl rfl rfl rfl rfl
  | timedOut stage budget spent late concluded =>
    obtain ⟨letters, calls, underway⟩ := inHand.endCall stage .abandoned
    exact inHand_of_ended inHand unsettled underway rfl rfl calls rfl concluded
  | resumed stage due =>
    obtain ⟨rfl, driven⟩ := inHand.idle (.inr ⟨_, stage⟩)
    exact inHand_of_ongoing inHand rfl rfl inHand.calls rfl unsettled ⟨rfl, driven⟩

end Step

end Delivery

end OutboxRelay
