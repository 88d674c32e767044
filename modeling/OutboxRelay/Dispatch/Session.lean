import OutboxRelay.Dispatch.Cycle

/-! Overlapping calls for a cycle on one dispatcher. A mark keeps them apart: a call that finds it
set is skipped, any other call sets it, and takes it away when it ends, in whatever way: with a
report, with an error, or given up between two of its steps. Calls are told apart by identifiers of
the caller's choice. -/

namespace OutboxRelay

inductive Phase
  | checking
  | claiming
  | delivering (batch : Batch)

structure Session (ι σ : Type) where
  state : RelayState σ
  running : Bool
  active : List (ι × Phase)
  ended : List (ι × Instant × CycleResult)

namespace Session

variable {ι σ : Type} [DecidableEq ι]

def initial (store : σ) : Session ι σ := ⟨.initial store, false, [], []⟩

def skippedEntry : JournalEntry :=
  ⟨.debug, "previous dispatch cycle still running, skipping tick", []⟩

def begin (s : Session ι σ) (id : ι) : Session ι σ :=
  if s.running then
    { s with
      state := s.state.note [skippedEntry]
      ended := (id, s.state.now, .ok .ofSkipped) :: s.ended }
  else { s with running := true, active := (id, .checking) :: s.active }

def finish (s : Session ι σ) (id : ι) (state : RelayState σ) (result : CycleResult) :
    Session ι σ :=
  { state := state
    running := false
    active := s.active.filter (·.1 ≠ id)
    ended := (id, state.now, result) :: s.ended }

def move (s : Session ι σ) (id : ι) (state : RelayState σ) (phase : Phase) : Session ι σ :=
  { s with
    state := state
    active := s.active.map fun (i, p) => (i, if i = id then phase else p) }

/-- A batch at rest is kept; one that is over is reported. -/
def takeBatch (s : Session ι σ) (id : ι) (state : RelayState σ) (batch : Batch) : Session ι σ :=
  if batch.isOver then
    let (state, result) := Cycle.close state batch
    s.finish id state result
  else s.move id state (.delivering batch)

def resume [Outbox σ] (relay : Relay) (s : Session ι σ) (id : ι) : Session ι σ :=
  match s.active.lookup id with
  | none => s
  | some .checking => s.move id (Cycle.check relay s.state) .claiming
  | some .claiming =>
    match Cycle.claim relay s.state with
    | (state, .inl batch) => s.move id state (.delivering batch)
    | (state, .inr result) => s.finish id state result
  | some (.delivering batch) =>
    let (state, batch) := batch.drain relay s.state
    s.takeBatch id state batch

def drop (s : Session ι σ) (id : ι) : Session ι σ :=
  match s.active.lookup id with
  | none => s
  | some phase =>
    { s with
      state := match phase with
        | .delivering batch => batch.abandon s.state
        | _ => s.state
      running := false
      active := s.active.filter (·.1 ≠ id) }

def advance (s : Session ι σ) (now : Instant) : Session ι σ :=
  { s with
    state := { s.state with now := now }
    active := s.active.map fun (i, p) => (i, match p with
      | .delivering batch => .delivering (batch.wake now)
      | p => p) }

inductive Action (ι σ : Type)
  | begin (id : ι)
  | resume (id : ι)
  | drop (id : ι)
  | advance (now : Instant)
  | elsewhere (change : σ → σ)

def act [Outbox σ] (relay : Relay) (s : Session ι σ) : Action ι σ → Session ι σ
  | .begin id => s.begin id
  | .resume id => s.resume relay id
  | .drop id => s.drop id
  | .advance now => s.advance now
  | .elsewhere change => { s with state := { s.state with store := change s.state.store } }

def call [Outbox σ] (relay : Relay) (s : Session ι σ) (id : ι) : Session ι σ :=
  (((s.begin id).resume relay id).resume relay id).resume relay id

/-- Let the call in progress go on, to its end or up to a limit. There is at most one such call. -/
def runTo [Outbox σ] (relay : Relay) (limit : Option Instant) (s : Session ι σ) :
    Session ι σ :=
  match s.active with
  | (id, .delivering batch) :: _ =>
    let (state, batch) := batch.runTo relay limit s.state
    s.takeBatch id state batch
  | _ => s

def idleTo (s : Session ι σ) (now : Instant) : Session ι σ :=
  { s with state := { s.state with now := s.state.now.max now } }

def resultOf (s : Session ι σ) (id : ι) : Option (Instant × CycleResult) := s.ended.lookup id

/-! ### Schedules -/

def callUntil [Outbox σ] (relay : Relay) (s : Session ι σ) (id : ι)
    (limit : Option Instant) : Session ι σ :=
  let s := (s.call relay id).runTo relay limit
  match limit with
  | some limit => if (s.resultOf id).isNone then (s.idleTo limit).drop id else s
  | none => s

def justBefore (t : Instant) : Instant := ⟨t.nanos - 1⟩

/-- A call at an instant. Of two calls that have something to do at the same instant the one with
the lower number goes first. -/
def callAt [Outbox σ] (relay : Relay) (s : Session Nat σ) (id : Nat) (time : Instant) :
    Session Nat σ :=
  let limit := if s.active.any (id < ·.1) then justBefore time else time
  ((s.runTo relay (some limit)).idleTo time).call relay id

def callAll [Outbox σ] (relay : Relay) (s : Session Nat σ) (times : List Instant) :
    Session Nat σ :=
  let calls := times.zipIdx.mergeSort fun a b => a.1.nanos ≤ b.1.nanos
  (calls.foldl (fun s (time, id) => s.callAt relay id time) s).runTo relay none

end Session

end OutboxRelay
