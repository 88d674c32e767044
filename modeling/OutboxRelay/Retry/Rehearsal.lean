import OutboxRelay.Retry

/-! A retry policy on its own: an operation that reacts by the number of the attempt, and the
instants at which the attempts begin. -/

namespace OutboxRelay

structure Rehearsal where
  now : Instant
  starts : List (UInt32 × Instant)
  journal : Journal

namespace RetryPolicy

def rehearseAttempt (react : UInt32 → Reaction Unit) (attempt : UInt32) (r : Rehearsal) :
    Except PublishError UInt32 × Rehearsal :=
  let r := { r with starts := r.starts ++ [(attempt, r.now)] }
  match react attempt with
  | .never => (.error (.circuitOpen ""), r)
  | .after delay answer =>
    (answer.map fun _ => attempt, { r with now := r.now.wokenAfter delay })

def rehearsePause (entry : JournalEntry) (delay : Duration) (r : Rehearsal) : Rehearsal :=
  { r with now := r.now.wokenAfter delay, journal := r.journal ++ [entry] }

def rehearse (p : RetryPolicy) (react : UInt32 → Reaction Unit) :
    Except PublishError UInt32 × Rehearsal :=
  p.run (rehearseAttempt react) rehearsePause ⟨.start, [], []⟩

end RetryPolicy

end OutboxRelay
