import OutboxRelay.Dispatch.Batch

/-! A dispatch cycle: look for claims that are stuck, claim a batch, dispatch it, report. A stuck
claim is only written to the journal. A failed claim ends the cycle; after it every claimed event is
dispatched, whatever becomes of the others. -/

namespace OutboxRelay

structure Report where
  claimed : Nat
  published : Nat
  failed : Nat
  skipped : Bool
deriving DecidableEq

def Report.empty : Report := ⟨0, 0, 0, false⟩

def Report.ofSkipped : Report := { Report.empty with skipped := true }

abbrev CycleResult := Except CycleError Report

namespace Cycle

variable {σ : Type}

def staleEntry (count : UInt64) (age : Duration) : JournalEntry :=
  ⟨.warn, "outbox rows stuck in progress; they are not reclaimed automatically",
    [("stale", toString count.toNat), ("older_than_secs", toString age.wholeSecs)]⟩

def staleFailedEntry (e : StoreError) : JournalEntry :=
  ⟨.debug, "stale claim count failed", [("error", e.message)]⟩

def check [Outbox σ] (relay : Relay) (s : RelayState σ) : RelayState σ :=
  let age := relay.plan.staleAfter
  match s.ask fun store time => Outbox.staleClaims store time age with
  | (.ok count, s) => if count = 0 then s else s.note [staleEntry count age]
  | (.error e, s) => s.note [staleFailedEntry e]

def claim [Outbox σ] (relay : Relay) (s : RelayState σ) :
    RelayState σ × (Batch ⊕ CycleResult) :=
  match s.ask fun store time => Outbox.claimNew store time relay.plan.batchSize with
  | (.error e, s) => (s, .inr (.error (.store e)))
  | (.ok [], s) => (s, .inr (.ok Report.empty))
  | (.ok events, s) => (s, .inl (.ofEvents events))

def settledAs (b : Batch) (mark : Settlement) : Nat :=
  b.outcomes.countP fun o => match o.result with
    | .ok m => m = mark
    | .error _ => false

def settleErrors (b : Batch) : List StoreError :=
  b.outcomes.filterMap fun o => match o.result with
    | .ok _ => none
    | .error e => some e

def report (b : Batch) : Report :=
  ⟨b.claimed, settledAs b .published, settledAs b .failed, false⟩

def finishedEntry (b : Batch) : JournalEntry :=
  ⟨.info, "dispatch cycle finished",
    [("claimed", toString b.claimed), ("published", toString (settledAs b .published)),
     ("failed", toString (settledAs b .failed)), ("unsettled", toString (settleErrors b).length)]⟩

def result (b : Batch) : CycleResult :=
  match settleErrors b with
  | [] => .ok (report b)
  | first :: rest => .error (.unsettled (rest.length + 1) first)

def close (s : RelayState σ) (b : Batch) : RelayState σ × CycleResult :=
  (s.note [finishedEntry b], result b)

def run [Outbox σ] (relay : Relay) (s : RelayState σ) : RelayState σ × CycleResult :=
  match claim relay (check relay s) with
  | (s, .inr result) => (s, result)
  | (s, .inl batch) =>
    let (s, batch) := batch.runTo relay none s
    close s batch

end Cycle

namespace Delivery

variable {σ : Type}

/-- Give a delivery up. An attempt that the breaker admitted never gets an outcome. -/
def abandon (s : RelayState σ) (d : Delivery) : RelayState σ :=
  match d.stage with
  | .awaiting _ f =>
    { s.endCall f.call .abandoned with breaker := s.breaker.abandon s.now }
  | .sending _ => { s with breaker := s.breaker.abandon s.now }
  | _ => s

end Delivery

def Batch.abandon {σ : Type} (s : RelayState σ) (b : Batch) : RelayState σ :=
  (b.ready ++ b.asleep).foldl Delivery.abandon s

end OutboxRelay
