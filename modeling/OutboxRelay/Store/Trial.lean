import OutboxRelay.Store

/-! A store for trials: it keeps a record of what is asked of it, and can be made to fail, in which
case the store behind it is not touched. -/

namespace OutboxRelay

inductive StoreCall
  | claim (limit : UInt64)
  | published (id : Int)
  | failed (id : Int) (reason : String)
  | stale (olderThan : Duration)

structure Faults where
  claim : Bool
  stale : Bool
  published : Int → Bool
  failed : Int → Bool

def Faults.none : Faults := ⟨false, false, fun _ => false, fun _ => false⟩

structure TrialStore (σ : Type) where
  inner : σ
  faults : Faults
  calls : List StoreCall

namespace TrialStore

variable {σ α : Type}

def fault (context : String) : StoreError :=
  (StoreError.ofRoot "connection refused").withContext context

def pass (s : TrialStore σ) (call : StoreCall) (fails : Bool) (context : String)
    (request : σ → StoreReply σ α) : StoreReply (TrialStore σ) α :=
  let s := { s with calls := s.calls ++ [call] }
  if fails then ⟨.error (fault context), s, []⟩
  else
    let reply := request s.inner
    ⟨reply.result, { s with inner := reply.store }, reply.journal⟩

theorem calls_pass (s : TrialStore σ) (call : StoreCall) (fails : Bool) (context : String)
    (request : σ → StoreReply σ α) :
    (s.pass call fails context request).store.calls = s.calls ++ [call] := by
  unfold pass
  split <;> rfl

def passQuietly (s : TrialStore σ) (request : σ → StoreReply σ α) :
    StoreReply (TrialStore σ) α :=
  let reply := request s.inner
  ⟨reply.result, { s with inner := reply.store }, reply.journal⟩

instance [Outbox σ] : Outbox (TrialStore σ) where
  persist s now e := s.passQuietly (Outbox.persist · now e)
  claimNew s now limit := s.pass (.claim limit) s.faults.claim "claim outbox batch"
    (Outbox.claimNew · now limit)
  settlePublished s now id := s.pass (.published id) (s.faults.published id)
    "mark outbox event published" (Outbox.settlePublished · now id)
  settleFailed s now id reason := s.pass (.failed id reason) (s.faults.failed id)
    "mark outbox event failed" (Outbox.settleFailed · now id reason)
  stats s now := s.passQuietly (Outbox.stats · now)
  staleClaims s now olderThan := s.pass (.stale olderThan) s.faults.stale
    "count stale outbox claims" (Outbox.staleClaims · now olderThan)

end TrialStore

end OutboxRelay
