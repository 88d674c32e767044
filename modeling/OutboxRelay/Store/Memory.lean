import OutboxRelay.Store

/-! An outbox table in memory, with the claim and settle rules of the durable one. -/

namespace OutboxRelay

structure MemoryStore.Row where
  event : Event
  claimedAt : Option Timestamp
deriving DecidableEq

/-- Rows in ascending order of their ids, which are handed out as 1, 2, 3 and so on. -/
structure MemoryStore where
  lastId : Nat
  rows : List MemoryStore.Row
deriving DecidableEq

namespace MemoryStore

def empty : MemoryStore := ⟨0, []⟩

def Row.ofNew (id : Int) (now : Timestamp) (e : NewEvent) : Row :=
  ⟨⟨e, id, .new, now, none⟩, none⟩

def persist (s : MemoryStore) (now : Timestamp) (e : NewEvent) : Int × MemoryStore :=
  let id := s.lastId + 1
  (id, ⟨id, s.rows ++ [Row.ofNew id now e]⟩)

def Row.claim (now : Timestamp) (r : Row) : Row :=
  ⟨{ r.event with status := .inProgress }, some now⟩

def claimRows (now : Timestamp) : (limit : Nat) → List Row → List Event × List Row
  | 0, rows => ([], rows)
  | _ + 1, [] => ([], [])
  | limit + 1, r :: rest =>
    if r.event.status = .new then
      let (events, rest) := claimRows now limit rest
      ((r.claim now).event :: events, r.claim now :: rest)
    else
      let (events, rest) := claimRows now (limit + 1) rest
      (events, r :: rest)

def claimNew (s : MemoryStore) (now : Timestamp) (limit : UInt64) : List Event × MemoryStore :=
  let (events, rows) := claimRows now limit.toNat s.rows
  (events, { s with rows := rows })

def Row.settle (now : Timestamp) (status : Status) (r : Row) : Row :=
  let publishedAt :=
    if status = .published then some (Timestamp.max now r.event.createdAt)
    else r.event.publishedAt
  { r with event := { r.event with status := status, publishedAt := publishedAt } }

def Row.isClaimed (id : Int) (r : Row) : Bool := r.event.id = id && r.event.status = .inProgress

def settle (s : MemoryStore) (now : Timestamp) (id : Int) (status : Status) : Bool × MemoryStore :=
  (s.rows.any (Row.isClaimed id),
    { s with rows := s.rows.map fun r => if r.isClaimed id then r.settle now status else r })

def get? (s : MemoryStore) (id : Int) : Option Event :=
  (s.rows.find? (·.event.id = id)).map (·.event)

def events (s : MemoryStore) : List Event := s.rows.map (·.event)

def stats (s : MemoryStore) : Stats :=
  s.rows.foldl (fun stats r => stats.add r.event.status 1) Stats.zero

def Row.isStale (now : Timestamp) (age : Nat) (r : Row) : Bool :=
  r.event.status = .inProgress &&
    match r.claimedAt with
    | some claimedAt => (age : Int) ≤ now.nanos - claimedAt.nanos
    | none => false

/-- A span too long for an age counts as the largest age. -/
def staleClaims (s : MemoryStore) (now : Timestamp) (olderThan : Duration) : Nat :=
  (s.rows.filter (Row.isStale now ((Timestamp.age? olderThan).getD Timestamp.maxAge))).length

instance : Outbox MemoryStore where
  persist s now e := let (id, s) := s.persist now e; ⟨.ok id, s, []⟩
  claimNew s now limit := let (events, s) := s.claimNew now limit; ⟨.ok events, s, []⟩
  settlePublished s now id :=
    let (settled, s) := s.settle now id .published
    ⟨.ok (), s, if settled then [] else [Outbox.publishedSkippedEntry id]⟩
  settleFailed s now id reason :=
    let (settled, s) := s.settle now id .failed
    ⟨.ok (), s, if settled then [] else [Outbox.failedSkippedEntry id reason]⟩
  stats s _ := ⟨.ok s.stats, s, []⟩
  staleClaims s now olderThan := ⟨.ok (.ofNat (s.staleClaims now olderThan)), s, []⟩

end MemoryStore

end OutboxRelay
