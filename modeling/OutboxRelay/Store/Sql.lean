import OutboxRelay.Sql.Database
import OutboxRelay.Store
import OutboxRelay.Store.HeaderBlob

/-! The outbox table in a database. Each call is one command, so that dispatchers in several
processes can share the table; an insert can join a transaction of its caller's. -/

namespace OutboxRelay

open Sql

structure SqlStore (σ : Type) where
  database : σ

namespace SqlStore

def claimCommand : Command (List Row) :=
  .updateReturning [(.status, .parameter 1), (.claimedAt, .now)]
    (.lowest (.equal .status (.parameter 2)) (.parameter 3))

def settleCondition : Condition :=
  .both (.equal .id (.parameter 2)) (.equal .status (.parameter 3))

def publishedCommand : Command Nat :=
  .update [(.status, .parameter 1), (.publishedAt, .greatest .now (.column .createdAt))]
    (.matching settleCondition)

def failedCommand : Command Nat := .update [(.status, .parameter 1)] (.matching settleCondition)

def countsCommand : Command (List (String × Int)) := .countPer .status

def staleCommand : Command (List Int) :=
  .countMatching (.both (.equal .status (.parameter 1)) (.less .claimedAt (.parameter 2)))

def insertColumns : List Column :=
  [.aggregateType, .aggregateId, .eventType, .payload, .headers, .status, .publishedAt, .claimedAt]

def insertCommand : Command (List Row) := .insertReturning insertColumns

def insertValues (e : NewEvent) : List Value :=
  [.text e.aggregateType, .text e.aggregateId, .text e.eventType, .text e.payload,
   .text (HeaderBlob.encode e.headers), .text Status.new.text, .null, .null]

variable {σ : Type} [Database σ]

def insert (s : σ) (e : NewEvent) : Except DbError Int × σ :=
  match Database.run s insertCommand (insertValues e) with
  | (.ok (row :: _), s) => (.ok row.id, s)
  | (.ok [], s) => (.error (.recordNotFound "Failed to find inserted item"), s)
  | (.error e, s) => (.error e, s)

def storeResult {α : Type} (context : String) (result : Except DbError α) : Except StoreError α :=
  result.mapError fun e => e.toStoreError.withContext context

def insertAsPart (s : σ) (e : NewEvent) : Except StoreError Int × σ :=
  let (result, s) := insert s e
  (storeResult "insert outbox event" result, s)

/-- A client's work and the insert in one transaction. -/
def insertAfter {α : Type} (s : σ) (work : Work α) (e : NewEvent) :
    Except StoreError (α × Int) × σ :=
  let (result, s) := transaction s fun s =>
    match work.run s with
    | (.error e, s) => (.error e, s)
    | (.ok value, s) =>
      let (id, s) := insert s e
      (id.map (value, ·), s)
  (result.mapError fun e =>
    (StoreError.ofRoot e.message).withContext "persist outbox event with business write", s)

def unreadableHeadersEntry (id : Int) : JournalEntry :=
  ⟨.warn, "unreadable outbox headers, using empty map",
    [("event_id", toString id), ("error", "not an object of texts")]⟩

def rowHeaders (r : Row) : Headers × Journal :=
  match HeaderBlob.decode? r.headers with
  | some h => (h, [])
  | none => (.empty, [unreadableHeadersEntry r.id])

def eventOfRow (r : Row) (status : Status) (headers : Headers) : Event :=
  ⟨⟨r.aggregateType, r.aggregateId, r.eventType, r.payload, headers⟩, r.id, status, r.createdAt,
    r.publishedAt⟩

def eventsOfRows : List Row → Except UnknownStatus (List Event) × Journal
  | [] => (.ok [], [])
  | r :: rest =>
    match Status.read r.status with
    | .error e => (.error e, [])
    | .ok status =>
      let (headers, journal) := rowHeaders r
      let (events, later) := eventsOfRows rest
      (events.map (eventOfRow r status headers :: ·), journal ++ later)

def byId (events : List Event) : List Event := events.mergeSort fun a b => a.id ≤ b.id

def limitValue (limit : UInt64) : Int := Int.ofNat (min limit.toNat (Nat.pow 2 63 - 1))

/-- A claim of nothing is not put to the database. Its answer has the rows in no order. -/
def claimNew (s : σ) (limit : UInt64) : StoreReply σ (List Event) :=
  if limit = 0 then ⟨.ok [], s, []⟩
  else
    match Database.run s claimCommand [.text Status.inProgress.text, .text Status.new.text,
        .integer (limitValue limit)] with
    | (.error e, s) => ⟨.error (e.toStoreError.withContext "claim outbox batch"), s, []⟩
    | (.ok rows, s) =>
      let (events, journal) := eventsOfRows rows
      ⟨match events with
        | .ok events => .ok (byId events)
        | .error e => .error ((StoreError.ofRoot e.message).withContext
            "decode claimed outbox rows"), s, journal⟩

def settle (s : σ) (command : Command Nat) (id : Int) (status : Status) :
    Except DbError Nat × σ :=
  Database.run s command [.text status.text, .integer id, .text Status.inProgress.text]

def settlePublished (s : σ) (id : Int) : StoreReply σ Unit :=
  let (updated, s) := settle s publishedCommand id .published
  ⟨storeResult "mark outbox event published" (updated.map fun _ => ()), s,
    match updated with
    | .ok 0 => [Outbox.publishedSkippedEntry id]
    | _ => []⟩

def failedEntry (id : Int) (reason : String) : JournalEntry :=
  ⟨.debug, "outbox event marked failed", [("event_id", toString id), ("reason", reason)]⟩

def settleFailed (s : σ) (id : Int) (reason : String) : StoreReply σ Unit :=
  let (updated, s) := settle s failedCommand id .failed
  ⟨storeResult "mark outbox event failed" (updated.map fun _ => ()), s,
    match updated with
    | .ok 0 => [Outbox.failedSkippedEntry id reason]
    | .ok _ => [failedEntry id reason]
    | .error _ => []⟩

def unknownStatusEntry (e : UnknownStatus) (count : Int) : JournalEntry :=
  ⟨.warn, "skipping unknown outbox status", [("error", e.message), ("count", toString count)]⟩

def addCount (acc : Stats × Journal) (row : String × Int) : Stats × Journal :=
  match Status.read row.1 with
  | .ok status => (acc.1.add status (.ofNat row.2.toNat), acc.2)
  | .error e => (acc.1, acc.2 ++ [unknownStatusEntry e row.2])

def stats (s : σ) : StoreReply σ Stats :=
  match Database.run s countsCommand [] with
  | (.error e, s) => ⟨.error (e.toStoreError.withContext "count outbox rows by status"), s, []⟩
  | (.ok rows, s) =>
    let (stats, journal) := rows.foldl addCount (Stats.zero, [])
    ⟨.ok stats, s, journal⟩

def staleCutoff? (now : Timestamp) (olderThan : Duration) : Option Timestamp :=
  (Timestamp.age? olderThan).bind now.before?

def staleClaims (s : σ) (now : Timestamp) (olderThan : Duration) : StoreReply σ UInt64 :=
  match staleCutoff? now olderThan with
  | none => ⟨.error (.ofRoot "stale claim threshold out of range"), s, []⟩
  | some cutoff =>
    match Database.run s staleCommand [.text Status.inProgress.text, .time cutoff] with
    | (.error e, s) => ⟨.error (e.toStoreError.withContext "count stale outbox claims"), s, []⟩
    | (.ok counts, s) => ⟨.ok (.ofNat (counts.headD 0).toNat), s, []⟩

def wrap {α : Type} (r : StoreReply σ α) : StoreReply (SqlStore σ) α :=
  ⟨r.result, ⟨r.store⟩, r.journal⟩

instance : Outbox (SqlStore σ) where
  persist s _ e := let (result, db) := insertAsPart s.database e; ⟨result, ⟨db⟩, []⟩
  claimNew s _ limit := wrap (claimNew s.database limit)
  settlePublished s _ id := wrap (settlePublished s.database id)
  settleFailed s _ id reason := wrap (settleFailed s.database id reason)
  stats s _ := wrap (stats s.database)
  staleClaims s now olderThan := wrap (staleClaims s.database now olderThan)

end SqlStore

end OutboxRelay
