import Mathlib.Data.List.Sort
import OutboxRelay.Proofs.Store.SharedTable
import OutboxRelay.Sql.Table
import OutboxRelay.Store.Sql

/-! What the commands of the store do to its table: one statement for each, in terms of the rows as
the command finds them. The clock of the table gives the times; nothing here depends on the order
of the rows. -/

namespace OutboxRelay.SqlStore

open Sql

variable {t : Table}

theorem run_of_storable {α : Type} {command : Command α} {parameters : List Value}
    (storable : parameters.all Value.isStorable = true) :
    Database.run t command parameters = t.rearranged.execute command parameters :=
  if_pos storable

/-! ### Inserts -/

theorem isStorable_text {s : String} :
    (Value.text s).isStorable = true ↔ Char.ofNat 0 ∉ s.toList := by
  simp [Value.isStorable]

def insertedRow (id : Int) (now : Timestamp) (e : NewEvent) : Row :=
  ⟨id, e.aggregateType, e.aggregateId, e.eventType, e.payload, HeaderBlob.encode e.headers,
    Status.new.text, now, none, none⟩

theorem insert_spec {e : NewEvent} (storable : (insertValues e).all Value.isStorable = true) :
    insert t e = (.ok ((t.lastId : Int) + 1), { t.rearranged with
      rows := t.rearranged.rows ++ [insertedRow (t.lastId + 1) t.now e]
      lastId := t.lastId + 1 }) := by
  unfold insert
  rw [run_of_storable storable]
  rfl

theorem insert_of_refused {e : NewEvent} (refused : ¬ (insertValues e).all Value.isStorable = true) :
    insert t e = (.error (Table.refusal insertCommand), t) := by
  have run : Database.run t insertCommand (insertValues e) =
      (.error (Table.refusal insertCommand), t) := if_neg refused
  unfold insert
  rw [run]

/-! ### Claims -/

def newIds (rows : List Row) : List Int :=
  (rows.filter (·.status = Status.new.text)).map (·.id)

def lowestIds (rows : List Row) (limit : Nat) : List Int :=
  ((newIds rows).mergeSort (· ≤ ·)).take limit

def claimedRow (now : Timestamp) (r : Row) : Row :=
  { r with status := Status.inProgress.text, claimedAt := some now }

theorem isEqual_text (s s' : String) : (Value.text s).isEqual (.text s') = decide (s = s') :=
  decide_eq_decide.2 (Iff.of_eq (Value.text.injEq ..))

theorem isEqual_integer (n n' : Int) :
    (Value.integer n).isEqual (.integer n') = decide (n = n') :=
  decide_eq_decide.2 (Iff.of_eq (Value.integer.injEq ..))

theorem selected_claim (t : Table) (limit : Int) :
    t.selected [.text Status.inProgress.text, .text Status.new.text, .integer limit]
        (.lowest (.equal .status (.parameter 2)) (.parameter 3)) =
      lowestIds t.rows limit.toNat := by
  have condition (r : Row) : (Condition.equal .status (.parameter 2)).holds t.now
      [.text Status.inProgress.text, .text Status.new.text, .integer limit] r =
        decide (r.status = Status.new.text) := isEqual_text ..
  unfold Table.selected lowestIds newIds
  simp only [condition]
  split
  · rename_i none
    simp [none]
  · rfl

theorem run_claim (t : Table) (limit : Int) :
    Database.run t claimCommand
        [.text Status.inProgress.text, .text Status.new.text, .integer limit] =
      (.ok ((t.rearranged.rows.filter (·.id ∈ lowestIds t.rearranged.rows limit.toNat)).map
          (claimedRow t.now)),
        { t.rearranged with rows := t.rearranged.rows.map fun r =>
            if r.id ∈ lowestIds t.rearranged.rows limit.toNat then claimedRow t.now r else r }) := by
  rw [run_of_storable (by rfl)]
  unfold Table.execute claimCommand Table.update
  dsimp only
  rw [selected_claim]
  rfl

theorem pairwise_byId (events : List Event) : (byId events).Pairwise (·.id ≤ ·.id) := by
  have total : Std.Total fun a b : Event => a.id ≤ b.id := ⟨fun a b => Int.le_total a.id b.id⟩
  have transitive : IsTrans Event fun a b => a.id ≤ b.id := ⟨fun _ _ _ => Int.le_trans⟩
  exact List.pairwise_mergeSort' (fun a b : Event => a.id ≤ b.id) events

/-! ### Settles -/

/-- The ids that a settle of one id reaches: this one, or none. -/
def reachedIds (rows : List Row) (id : Int) : List Int :=
  (rows.filter fun r => r.id = id && r.status = Status.inProgress.text).map (·.id)

def settledRow (now : Timestamp) (settlement : Settlement) (r : Row) : Row :=
  match settlement with
  | .published =>
    { r with status := Status.published.text, publishedAt := some (Timestamp.max now r.createdAt) }
  | .failed => { r with status := Status.failed.text }

def settledTable (t : Table) (id : Int) (settlement : Settlement) : Table :=
  { t.rearranged with rows := t.rearranged.rows.map fun r =>
      if r.id ∈ reachedIds t.rearranged.rows id then settledRow t.now settlement r else r }

def settleCommand : Settlement → Command Nat
  | .published => publishedCommand
  | .failed => failedCommand

theorem settle_spec (t : Table) (id : Int) (settlement : Settlement) :
    ∃ count, settle t (settleCommand settlement) id settlement.status =
      (.ok count, settledTable t id settlement) := by
  have storable : [Value.text settlement.status.text, .integer id,
      .text Status.inProgress.text].all Value.isStorable = true := by
    cases settlement <;> rfl
  have condition (r : Row) : settleCondition.holds t.rearranged.now [.text settlement.status.text,
      .integer id, .text Status.inProgress.text] r =
        (decide (r.id = id) && decide (r.status = Status.inProgress.text)) :=
    congrArg₂ _ (isEqual_integer ..) (isEqual_text ..)
  have reached (sets : List (Column × Operand)) (changes : ∀ r, t.rearranged.change
      [.text settlement.status.text, .integer id, .text Status.inProgress.text] sets r =
        settledRow t.now settlement r) :
      ∃ count, settle t (.update sets (.matching settleCondition)) id settlement.status =
        (.ok count, settledTable t id settlement) := by
    unfold settle
    rw [run_of_storable storable]
    unfold Table.execute Table.update Table.selected
    simp only [condition, changes]
    exact ⟨_, rfl⟩
  cases settlement with
  | published => exact reached _ fun _ => rfl
  | failed => exact reached _ fun _ => rfl

theorem settlePublished_spec (t : Table) (id : Int) :
    (settlePublished t id).result = .ok () ∧
      (settlePublished t id).store = settledTable t id .published := by
  obtain ⟨count, eq⟩ := settle_spec t id .published
  unfold settlePublished
  rw [show settle t publishedCommand id .published = _ from eq]
  exact ⟨rfl, rfl⟩

theorem settleFailed_spec (t : Table) (id : Int) (reason : String) :
    (settleFailed t id reason).result = .ok () ∧
      (settleFailed t id reason).store = settledTable t id .failed := by
  obtain ⟨count, eq⟩ := settle_spec t id .failed
  unfold settleFailed
  rw [show settle t failedCommand id .failed = _ from eq]
  exact ⟨rfl, rfl⟩

/-! ### Counts -/

theorem run_counts (t : Table) :
    Database.run t countsCommand [] =
      (.ok ((t.rearranged.rows.map (·.status)).eraseDups.map fun s =>
          (s, (((t.rearranged.rows.map (·.status)).count s : Nat) : Int))), t.rearranged) := by
  have texts : t.rearranged.rows.filterMap (fun r => (r.get .status).text?) =
      t.rearranged.rows.map (·.status) := List.filterMap_eq_map_iff_forall_eq_some.2 fun _ _ => rfl
  rw [run_of_storable (by rfl), ← texts]
  rfl

def claimedBefore (rows : List Row) (cutoff : Timestamp) : List Row :=
  rows.filter fun r => r.status = Status.inProgress.text &&
    r.claimedAt.any (·.nanos < cutoff.nanos)

theorem run_stale (t : Table) (cutoff : Timestamp) :
    Database.run t staleCommand [.text Status.inProgress.text, .time cutoff] =
      (.ok [((claimedBefore t.rearranged.rows cutoff).length : Int)], t.rearranged) := by
  have condition (r : Row) : (Condition.both (.equal .status (.parameter 1))
      (.less .claimedAt (.parameter 2))).holds t.rearranged.now
        [.text Status.inProgress.text, .time cutoff] r =
      (decide (r.status = Status.inProgress.text) &&
        r.claimedAt.any (·.nanos < cutoff.nanos)) := by
    refine congrArg₂ _ (isEqual_text ..) ?_
    unfold Condition.holds Row.get Operand.eval Value.ofOption
    cases r.claimedAt <;> rfl
  rw [run_of_storable (by rfl)]
  unfold Table.execute staleCommand claimedBefore
  simp only [condition]

end OutboxRelay.SqlStore
