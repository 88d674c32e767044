import OutboxRelay.Proofs.Store.TableCommands
import OutboxRelay.Store.Memory

/-! Stale claims, as the table in memory counts them by their age and the database by their time.
The two counts are of the rows that were claimed before one point of civil time, as far as there is
such a point. How a row is counted that was claimed at that very point is not described here. Both
stores are taken to hold the times of the claims to the nanosecond and over all of civil time: what
a column of coarser times, or of fewer, makes of them is left out. -/

namespace OutboxRelay

open Sql

namespace Timestamp

def latest : Timestamp := ⟨8210266876799999999999⟩

/-- A point of civil time that the clock can show. -/
def InRange (t : Timestamp) : Prop := earliest.nanos ≤ t.nanos ∧ t.nanos ≤ latest.nanos

instance (t : Timestamp) : Decidable t.InRange :=
  inferInstanceAs (Decidable (earliest.nanos ≤ t.nanos ∧ t.nanos ≤ latest.nanos))

theorem latest_sub_earliest_lt : latest.nanos - earliest.nanos < maxAge := by decide

theorem sub_lt_maxAge {now t : Timestamp} (present : now.InRange) (past : t.InRange) :
    now.nanos - t.nanos < maxAge := by
  have span := latest_sub_earliest_lt
  have above := present.2
  have below := past.1
  omega

end Timestamp

/-- Rows of the same status that were claimed at the same times, in any order. -/
def SameClaims (m : MemoryStore) (t : Table) : Prop :=
  (t.rows.map fun r => (r.status, r.claimedAt)).Perm
    (m.rows.map fun r => (r.event.status.text, r.claimedAt))

def MemoryStore.claimedBefore (m : MemoryStore) (cutoff : Int) : Nat :=
  m.rows.countP fun r => r.event.status = .inProgress && r.claimedAt.any (·.nanos < cutoff)

section Counts

variable {m : MemoryStore} {t : Table} {now : Timestamp}

theorem SameClaims.length_claimedBefore (same : SameClaims m t) (cutoff : Timestamp) :
    (SqlStore.claimedBefore t.rearranged.rows cutoff).length = m.claimedBefore cutoff.nanos := by
  have arranged : t.rearranged.rows.Perm t.rows := t.order.perm t.commands t.rows
  let counted (x : String × Option Timestamp) : Bool :=
    x.1 = Status.inProgress.text && x.2.any (·.nanos < cutoff.nanos)
  calc (SqlStore.claimedBefore t.rearranged.rows cutoff).length
      = t.rows.countP (fun r => counted (r.status, r.claimedAt)) := by
        rw [SqlStore.claimedBefore, ← List.countP_eq_length_filter]
        exact arranged.countP_eq _
    _ = (t.rows.map fun r => (r.status, r.claimedAt)).countP counted := by
        rw [List.countP_map]
        rfl
    _ = (m.rows.map fun r => (r.event.status.text, r.claimedAt)).countP counted :=
        same.countP_eq _
    _ = m.claimedBefore cutoff.nanos := by
        rw [List.countP_map, MemoryStore.claimedBefore]
        refine List.countP_congr fun r _ => ?_
        simp only [counted, Function.comp_apply, Bool.and_eq_true, decide_eq_true_eq]
        exact and_congr_left fun _ => Status.text_inj

theorem SqlStore.staleCutoff?_eq (present : now.InRange) (olderThan : Duration) :
    staleCutoff? now olderThan =
      if Timestamp.earliest.nanos ≤ now.nanos - olderThan.nanos then
        some ⟨now.nanos - olderThan.nanos⟩ else none := by
  have span := Timestamp.latest_sub_earliest_lt
  have above := present.2
  unfold staleCutoff? Timestamp.age?
  split
  · rfl
  · rename_i long
    rw [if_neg (by omega)]
    rfl

theorem MemoryStore.staleClaims_of_age {olderThan : Duration}
    (short : olderThan.nanos ≤ Timestamp.maxAge)
    (apart : ∀ r ∈ m.rows, r.event.status = .inProgress →
      ∀ c ∈ r.claimedAt, c.nanos ≠ now.nanos - olderThan.nanos) :
    m.staleClaims now olderThan = m.claimedBefore (now.nanos - olderThan.nanos) := by
  have age : (Timestamp.age? olderThan).getD Timestamp.maxAge = olderThan.nanos := by
    rw [Timestamp.age?, if_pos short]
    rfl
  rw [staleClaims, age, ← List.countP_eq_length_filter, claimedBefore]
  refine List.countP_congr fun r member => ?_
  simp only [Row.isStale, Bool.and_eq_true, decide_eq_true_eq]
  refine and_congr_right fun inProgress => ?_
  have apart := apart r member inProgress
  cases claimed : r.claimedAt with
  | none => simp
  | some c =>
    have other := apart c claimed
    simp only [Option.any_some, decide_eq_true_eq]
    omega

theorem MemoryStore.claimedBefore_eq_zero {cutoff : Int} (early : cutoff ≤ Timestamp.earliest.nanos)
    (stamped : ∀ r ∈ m.rows, ∀ c ∈ r.claimedAt, c.InRange) : m.claimedBefore cutoff = 0 := by
  refine List.countP_eq_zero.2 fun r member stale => ?_
  obtain ⟨_, before⟩ := (Bool.and_eq_true_iff ..).1 stale
  obtain ⟨c, claimed, before⟩ := (Option.any_eq_true ..).1 before
  have known := (stamped r member c claimed).1
  have before := of_decide_eq_true before
  omega

theorem MemoryStore.staleClaims_eq_zero {olderThan : Duration} (present : now.InRange)
    (early : now.nanos - olderThan.nanos < Timestamp.earliest.nanos)
    (stamped : ∀ r ∈ m.rows, ∀ c ∈ r.claimedAt, c.InRange) : m.staleClaims now olderThan = 0 := by
  rw [staleClaims, ← List.countP_eq_length_filter]
  refine List.countP_eq_zero.2 fun r member stale => ?_
  obtain ⟨_, old⟩ := (Bool.and_eq_true_iff ..).1 stale
  cases claimed : r.claimedAt with
  | none =>
    rw [claimed] at old
    cases old
  | some c =>
    have known := stamped r member c claimed
    have near := Timestamp.sub_lt_maxAge present known
    have below := known.1
    rw [claimed] at old
    have old := of_decide_eq_true old
    unfold Timestamp.age? at old
    split at old
    · dsimp only [Option.getD_some] at old
      omega
    · dsimp only [Option.getD_none] at old
      omega

/-- Where there is such a point as `olderThan` before now, both stores count the claims before it;
where there is none, the database says so and the table in memory counts nothing. -/
theorem staleClaims_agree (same : SameClaims m t) (present : now.InRange)
    (stamped : ∀ r ∈ m.rows, ∀ c ∈ r.claimedAt, c.InRange) (olderThan : Duration) :
    (Timestamp.earliest.nanos ≤ now.nanos - olderThan.nanos →
      (Outbox.staleClaims (SqlStore.mk t) now olderThan).result =
          .ok (.ofNat (m.claimedBefore (now.nanos - olderThan.nanos))) ∧
        ((∀ r ∈ m.rows, r.event.status = .inProgress →
            ∀ c ∈ r.claimedAt, c.nanos ≠ now.nanos - olderThan.nanos) →
          (Outbox.staleClaims m now olderThan).result =
            .ok (.ofNat (m.claimedBefore (now.nanos - olderThan.nanos))))) ∧
    (now.nanos - olderThan.nanos < Timestamp.earliest.nanos →
      (Outbox.staleClaims (SqlStore.mk t) now olderThan).result =
          .error (.ofRoot "stale claim threshold out of range") ∧
        (Outbox.staleClaims m now olderThan).result = .ok 0 ∧
        m.claimedBefore (now.nanos - olderThan.nanos) = 0) := by
  have cutoff := SqlStore.staleCutoff?_eq present olderThan
  refine ⟨fun known => ⟨?_, fun apart => ?_⟩, fun early => ⟨?_, ?_, ?_⟩⟩
  · rw [if_pos known] at cutoff
    change (SqlStore.staleClaims t now olderThan).result = _
    unfold SqlStore.staleClaims
    rw [cutoff]
    dsimp only
    rw [SqlStore.run_stale, same.length_claimedBefore]
    rfl
  · have span := Timestamp.latest_sub_earliest_lt
    have above := present.2
    exact congrArg (Except.ok ∘ UInt64.ofNat) (MemoryStore.staleClaims_of_age (by omega) apart)
  · rw [if_neg (by omega)] at cutoff
    change (SqlStore.staleClaims t now olderThan).result = _
    unfold SqlStore.staleClaims
    rw [cutoff]
  · exact congrArg (Except.ok ∘ UInt64.ofNat)
      (MemoryStore.staleClaims_eq_zero present early stamped)
  · exact MemoryStore.claimedBefore_eq_zero (Int.le_of_lt early) stamped

end Counts

def smallOrder : NewEvent := ⟨"Order", "order-1", "OrderPlaced", "p", .empty⟩

def claimedInMemory : MemoryStore :=
  ⟨3, [(MemoryStore.Row.ofNew 1 ⟨0⟩ smallOrder).claim ⟨100⟩, .ofNew 2 ⟨0⟩ smallOrder,
    (MemoryStore.Row.ofNew 3 ⟨0⟩ smallOrder).claim ⟨500⟩]⟩

def claimedInTable : Table :=
  { Table.empty .backwards ⟨0⟩ with
    rows := [SqlStore.insertedRow 2 ⟨0⟩ smallOrder,
      SqlStore.claimedRow ⟨100⟩ (SqlStore.insertedRow 1 ⟨0⟩ smallOrder),
      SqlStore.claimedRow ⟨500⟩ (SqlStore.insertedRow 3 ⟨0⟩ smallOrder)]
    lastId := 3 }

theorem staleClaims_agree_of_fresh_claim :
    SameClaims claimedInMemory claimedInTable ∧ Timestamp.InRange ⟨1000⟩ ∧
      (∀ r ∈ claimedInMemory.rows, ∀ c ∈ r.claimedAt, c.InRange) ∧
      (Outbox.staleClaims (SqlStore.mk claimedInTable) ⟨1000⟩ (.ofNanos 899)).result = .ok 1 ∧
      (Outbox.staleClaims claimedInMemory ⟨1000⟩ (.ofNanos 899)).result = .ok 1 ∧
      (Outbox.staleClaims (SqlStore.mk claimedInTable) ⟨1000⟩ .longest).result =
        .error (.ofRoot "stale claim threshold out of range") := by
  have same : SameClaims claimedInMemory claimedInTable := .swap ..
  have present : Timestamp.InRange ⟨1000⟩ := by decide
  have stamped : ∀ r ∈ claimedInMemory.rows, ∀ c ∈ r.claimedAt, c.InRange := by decide
  obtain ⟨told, counted⟩ := (staleClaims_agree same present stamped (.ofNanos 899)).1 (by decide)
  obtain ⟨refused, _⟩ := (staleClaims_agree same present stamped .longest).2 (by decide)
  exact ⟨same, present, stamped, told, counted (by decide), refused⟩

theorem too_long_a_span_is_refused :
    ¬ ∀ (m : MemoryStore) (t : Table) (now : Timestamp) (olderThan : Duration), SameClaims m t →
      now.InRange → (∀ r ∈ m.rows, ∀ c ∈ r.claimedAt, c.InRange) →
      (Outbox.staleClaims (SqlStore.mk t) now olderThan).result =
        (Outbox.staleClaims m now olderThan).result := by
  intro alike
  have counts := alike MemoryStore.empty (Table.empty .backwards ⟨0⟩) ⟨0⟩ .longest (.refl _)
    (by decide) nofun
  have refused : (Outbox.staleClaims (SqlStore.mk (Table.empty .backwards ⟨0⟩)) ⟨0⟩ .longest).result =
      .error (.ofRoot "stale claim threshold out of range") := rfl
  rw [refused] at counts
  cases counts

end OutboxRelay
