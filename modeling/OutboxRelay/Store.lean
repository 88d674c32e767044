import OutboxRelay.Event
import OutboxRelay.Journal
import OutboxRelay.StoreError

/-! What a durable outbox table does for its clients. All changes are single steps of the table, so
that any number of dispatchers may share one. A call takes no time: it is complete when it is made,
so calls are completed in the order in which they are made. -/

namespace OutboxRelay

structure StoreReply (σ α : Type) where
  result : Except StoreError α
  store : σ
  journal : Journal

/-- A store of events. `now` is the reading of the civil clock that a call may stamp rows with. -/
class Outbox (σ : Type) where
  persist : σ → Timestamp → NewEvent → StoreReply σ Int
  /-- Move up to so many new rows, lowest ids first, to in progress, and return them in the order
  of their ids. -/
  claimNew : σ → Timestamp → UInt64 → StoreReply σ (List Event)
  /-- In progress to published. A row in any other status stays as it is. -/
  settlePublished : σ → Timestamp → Int → StoreReply σ Unit
  /-- In progress to failed. The reason goes to the journal only. -/
  settleFailed : σ → Timestamp → Int → String → StoreReply σ Unit
  stats : σ → Timestamp → StoreReply σ Stats
  /-- Count the rows in progress that were claimed longer ago than this. -/
  staleClaims : σ → Timestamp → Duration → StoreReply σ UInt64

namespace Outbox

def publishedSkippedEntry (id : Int) : JournalEntry :=
  ⟨.warn, "outbox event was not in progress, published mark skipped", [("event_id", toString id)]⟩

def failedSkippedEntry (id : Int) (reason : String) : JournalEntry :=
  ⟨.warn, "outbox event was not in progress, failed mark skipped",
    [("event_id", toString id), ("reason", reason)]⟩

end Outbox

end OutboxRelay
