import OutboxRelay.Broker.Script
import OutboxRelay.Dispatch.Poller
import OutboxRelay.Store.Trial

/-! Trials of a dispatcher: scripted brokers, a store that can be made to fail, and a course of
steps on one clock. -/

namespace OutboxRelay

def Relay.scripted (targets : List (Target × BrokerScript)) (retry : RetryPolicy)
    (breaker : BreakerConfig) (plan : DispatchPlan) : Relay :=
  { targets := targets.map (·.1)
    retry := retry
    breaker := breaker
    plan := plan
    react := fun now past _ target letter =>
      match targets[target]? with
      | some (_, script) =>
        (script.react ((past.filter (·.target = target)).map (·.letter)) letter).slept now
      | none => .never }

namespace Trial

inductive Step
  | persist (event : NewEvent)
  | seed (count : Nat)
  | cycle (patience : Option Duration)
  | cycles (offsets : List Duration)
  | run (stopAtOnce : Bool) (occurrences : List (Duration × Poller.Occurrence))
  | advance (time : Duration)
  | faults (faults : Faults)

inductive Answer
  | persisted (result : Except StoreError Int)
  | seeded (results : List (Except StoreError Int))
  | cycle (result : CycleResult)
  | cancelled
  | cycles (results : List (Instant × Instant × CycleResult))
  | stopped
  | notStarted
  | done

variable {σ : Type} [Outbox σ]

abbrev State (σ : Type) := RelayState (TrialStore σ)

def initial (store : σ) (faults : Faults) : State σ := .initial ⟨store, faults, []⟩

def persist (s : State σ) (event : NewEvent) : Except StoreError Int × State σ :=
  s.ask fun store time => Outbox.persist store time event

def seedEvent (n : Nat) : NewEvent :=
  ⟨"Order", "order-" ++ toString n, "OrderPlaced", "p" ++ toString n, .empty⟩

def seed (s : State σ) (count : Nat) : List (Except StoreError Int) × State σ :=
  (List.range count).foldl (fun (results, s) n =>
    let (result, s) := persist s (seedEvent n)
    (results ++ [result], s)) ([], s)

def session {ι : Type} (s : State σ) : Session ι (TrialStore σ) := ⟨s, false, [], []⟩

def cycle (relay : Relay) (s : State σ) (patience : Option Duration) : Answer × State σ :=
  let done := (session s).callUntil relay () (patience.map s.now.wokenAfter)
  (match done.resultOf () with
    | some (_, result) => .cycle result
    | none => .cancelled, done.state)

def cycles (relay : Relay) (s : State σ) (offsets : List Duration) : Answer × State σ :=
  let starts := offsets.map s.now.wokenAfter
  let done := (session s).callAll relay starts
  (.cycles (starts.zipIdx.filterMap fun (start, id) =>
    (done.resultOf id).map fun (stop, result) => (start, stop, result)), done.state)

def timetable (start : Instant) (occurrences : List (Duration × Poller.Occurrence)) :
    List (Instant × Poller.Occurrence) :=
  (occurrences.foldl (fun (last, table) (time, o) =>
    let t := last.max (start.wokenAfter time)
    (t, table ++ [(t, o)])) (start, ([] : List (Instant × Poller.Occurrence)))).2

def run (relay : Relay) (s : State σ) (stopAtOnce : Bool)
    (occurrences : List (Duration × Poller.Occurrence)) : Answer × State σ :=
  match Poller.start? relay s stopAtOnce with
  | some poller => (.stopped, (poller.follow relay (timetable s.now occurrences)).session.state)
  | none => (.notStarted, s)

def step (relay : Relay) (s : State σ) : Step → Answer × State σ
  | .persist event => let (result, s) := persist s event; (.persisted result, s)
  | .seed count => let (results, s) := seed s count; (.seeded results, s)
  | .cycle patience => cycle relay s patience
  | .cycles offsets => cycles relay s offsets
  | .run stopAtOnce occurrences => run relay s stopAtOnce occurrences
  | .advance time => (.done, { s with now := s.now.add time })
  | .faults faults => (.done, { s with store := { s.store with faults := faults } })

end Trial

end OutboxRelay
