import Mathlib.Data.List.Forall2
import Mathlib.Data.List.Perm.Basic
import OutboxRelay.Proofs.Store.HeaderReader
import OutboxRelay.Proofs.Store.TableCommands
import OutboxRelay.Sql.Script

/-! What the store makes of the rows that the database returns for a claim, in whatever order and
with whatever texts in them. Only a status that is not known keeps the rows from being events; the
headers never do, and each row is read for itself. -/

namespace OutboxRelay.SqlStore

open Sql

/-! ### One row -/

theorem ofText?_eq_some_iff {s : String} {status : Status} :
    Status.ofText? s = some status ↔ s = status.text := by
  constructor
  · intro read
    unfold Status.ofText? at read
    split at read <;> cases read <;> rfl
  · rintro rfl
    exact Status.ofText?_text status

def statusTexts : List String := ["NEW", "IN_PROGRESS", "PUBLISHED", "FAILED"]

theorem mem_statusTexts_iff {s : String} :
    s ∈ statusTexts ↔ ∃ status, Status.ofText? s = some status := by
  have texts : statusTexts = Status.all.map Status.text := rfl
  simp only [ofText?_eq_some_iff, texts, List.mem_map]
  constructor
  · rintro ⟨status, -, same⟩
    exact ⟨status, same.symm⟩
  · rintro ⟨status, same⟩
    exact ⟨status, by cases status <;> decide, same.symm⟩

def eventOf (r : Row) : Event :=
  eventOfRow r ((Status.ofText? r.status).getD .new) (rowHeaders r).1

/-- The row tells of the event, field by field. -/
structure Tells (r : Row) (e : Event) : Prop where
  id : e.id = r.id
  aggregateType : e.aggregateType = r.aggregateType
  aggregateId : e.aggregateId = r.aggregateId
  eventType : e.eventType = r.eventType
  payload : e.payload = r.payload
  status : e.status.text = r.status
  createdAt : e.createdAt = r.createdAt
  publishedAt : e.publishedAt = r.publishedAt
  headers : HeaderBlob.Holds r.headers e.headers ∨
    (∀ h, ¬ HeaderBlob.Holds r.headers h) ∧ e.headers = .empty

theorem headers_rowHeaders (r : Row) : HeaderBlob.Holds r.headers (rowHeaders r).1 ∨
    (∀ h, ¬ HeaderBlob.Holds r.headers h) ∧ (rowHeaders r).1 = .empty := by
  unfold rowHeaders
  cases read : HeaderBlob.decode? r.headers with
  | some h => exact .inl (HeaderBlob.decode?_eq_some_iff.1 read)
  | none =>
    refine .inr ⟨fun h holds => ?_, rfl⟩
    rw [HeaderBlob.decode?_eq_some_iff.2 holds] at read
    cases read

theorem tells_eventOf {r : Row} (known : r.status ∈ statusTexts) : Tells r (eventOf r) := by
  obtain ⟨status, read⟩ := mem_statusTexts_iff.1 known
  have same : (eventOf r).status = status := congrArg (Option.getD · Status.new) read
  have text : (eventOf r).status.text = r.status := by
    rw [same, ofText?_eq_some_iff.1 read]
  exact ⟨rfl, rfl, rfl, rfl, rfl, text, rfl, rfl, headers_rowHeaders r⟩

/-! ### All rows -/

theorem eventsOfRows_of_known {rows : List Row} (known : ∀ r ∈ rows, r.status ∈ statusTexts) :
    (eventsOfRows rows).1 = .ok (rows.map eventOf) := by
  induction rows with
  | nil => rfl
  | cons r rest ih =>
    obtain ⟨first, others⟩ := List.forall_mem_cons.1 known
    obtain ⟨status, read⟩ := mem_statusTexts_iff.1 first
    have here : eventOf r = eventOfRow r status (rowHeaders r).1 := by
      rw [eventOf, read]
      rfl
    unfold eventsOfRows Status.read
    rw [read]
    dsimp only
    rw [ih others, List.map_cons, here]
    rfl

theorem known_of_eventsOfRows {rows : List Row} {events : List Event}
    (read : (eventsOfRows rows).1 = .ok events) : ∀ r ∈ rows, r.status ∈ statusTexts := by
  induction rows generalizing events with
  | nil => nofun
  | cons r rest ih =>
    unfold eventsOfRows Status.read at read
    split at read
    · cases read
    · rename_i status known
      split at known
      · rename_i own first
        dsimp only at read
        cases others : (eventsOfRows rest).1 with
        | error e =>
          rw [others] at read
          cases read
        | ok events =>
          exact List.forall_mem_cons.2 ⟨mem_statusTexts_iff.2 ⟨own, first⟩, ih others⟩
      · cases known

/-! ### The order -/

theorem perm_byId (events : List Event) : (byId events).Perm events := List.mergeSort_perm ..

theorem ascending_byId {events : List Event} (distinct : (events.map (·.id)).Nodup) :
    (byId events).Pairwise (·.id < ·.id) := by
  have apart : (byId events).Pairwise (·.id ≠ ·.id) :=
    List.pairwise_map.1 (((perm_byId events).map _).nodup_iff.2 distinct)
  exact ((pairwise_byId events).and apart).imp fun both => Int.lt_iff_le_and_ne.2 both

theorem eq_of_ascending {events others : List Event} (perm : events.Perm others)
    (ascending : events.Pairwise (·.id < ·.id)) (ascending' : others.Pairwise (·.id < ·.id)) :
    events = others :=
  perm.eq_of_pairwise (fun _ _ _ _ below above => absurd below (Int.lt_asymm above)) ascending
    ascending'

theorem ids_map_eventOf (rows : List Row) : (rows.map eventOf).map (·.id) = rows.map (·.id) := by
  rw [List.map_map]
  rfl

/-! ### The claim -/

variable {σ : Type} [Database σ]

/-- The database answers the claim with these rows. -/
def Answers (s : σ) (limit : UInt64) (rows : List Row) : Prop :=
  (Database.run s claimCommand [.text "IN_PROGRESS", .text "NEW", .integer (limitValue limit)]).1 =
    .ok rows

section Reply

variable {s : σ} {limit : UInt64} {rows : List Row}

theorem result_claimNew (positive : limit ≠ 0) (answers : Answers s limit rows) :
    (claimNew s limit).result = match (eventsOfRows rows).1 with
      | .ok events => .ok (byId events)
      | .error e => .error ((StoreError.ofRoot e.message).withContext
          "decode claimed outbox rows") := by
  have told : (Database.run s claimCommand [.text Status.inProgress.text, .text Status.new.text,
      .integer (limitValue limit)]).1 = .ok rows := answers
  unfold claimNew
  rw [if_neg positive]
  split
  · rename_i failed
    rw [failed] at told
    cases told
  · rename_i answered
    rw [answered] at told
    cases told
    rfl

theorem result_of_known (positive : limit ≠ 0) (answers : Answers s limit rows)
    (known : ∀ r ∈ rows, r.status ∈ statusTexts) :
    (claimNew s limit).result = .ok (byId (rows.map eventOf)) := by
  rw [result_claimNew positive answers, eventsOfRows_of_known known]

theorem known_of_result (positive : limit ≠ 0) (answers : Answers s limit rows)
    {events : List Event} (claimed : (claimNew s limit).result = .ok events) :
    ∀ r ∈ rows, r.status ∈ statusTexts := by
  rw [result_claimNew positive answers] at claimed
  split at claimed
  · rename_i read
    exact known_of_eventsOfRows read
  · cases claimed

end Reply

def withHeaders (id : Int) (raw : String) (rows : List Row) : List Row :=
  rows.map fun r => if r.id = id then { r with headers := raw } else r

theorem status_withHeaders {id : Int} {raw : String} {rows : List Row}
    (known : ∀ r ∈ rows, r.status ∈ statusTexts) :
    ∀ r ∈ withHeaders id raw rows, r.status ∈ statusTexts := by
  refine List.forall_mem_map.2 fun r member => ?_
  split <;> exact known r member

theorem ids_withHeaders (id : Int) (raw : String) (rows : List Row) :
    (withHeaders id raw rows).map (·.id) = rows.map (·.id) := by
  rw [withHeaders, List.map_map]
  refine List.map_congr_left fun r _ => ?_
  dsimp only [Function.comp_apply]
  split <;> rfl

theorem filter_withHeaders (id : Int) (raw : String) (rows : List Row) :
    (withHeaders id raw rows).filter (·.id ≠ id) = rows.filter (·.id ≠ id) := by
  have same : ((fun r : Row => decide (r.id ≠ id)) ∘
      fun r => if r.id = id then { r with headers := raw } else r) = fun r => decide (r.id ≠ id) := by
    funext r
    dsimp only [Function.comp_apply]
    split <;> rfl
  rw [withHeaders, List.filter_map, same]
  refine (List.map_congr_left fun r member => if_neg ?_).trans (List.map_id _)
  exact of_decide_eq_true (List.mem_filter.1 member).2

theorem filter_map_eventOf (id : Int) (rows : List Row) :
    (rows.map eventOf).filter (·.id ≠ id) = (rows.filter (·.id ≠ id)).map eventOf :=
  List.filter_map

/-- A claim of rows is answered with their events exactly if the status of each is a known one,
whatever the headers are: one event for each row, with what the row tells and nothing else, in the
order of the ids. The order of the rows makes no difference, and neither do the headers of a row to
the event of another one. -/
theorem claim_reads_rows {s : σ} {limit : UInt64} {rows : List Row} (positive : limit ≠ 0)
    (answers : Answers s limit rows) (distinct : (rows.map (·.id)).Nodup) :
    ((∃ events, (claimNew s limit).result = .ok events) ↔
      ∀ r ∈ rows, r.status ∈ ["NEW", "IN_PROGRESS", "PUBLISHED", "FAILED"]) ∧
    ∀ events, (claimNew s limit).result = .ok events →
      events.Pairwise (·.id < ·.id) ∧
      (∃ sorted, sorted.Perm rows ∧ List.Forall₂ Tells sorted events) ∧
      (∀ (s' : σ) rows', Answers s' limit rows' → rows'.Perm rows →
        (claimNew s' limit).result = .ok events) ∧
      ∀ id raw (s' : σ), Answers s' limit (withHeaders id raw rows) →
        ∃ events', (claimNew s' limit).result = .ok events' ∧
          events'.filter (·.id ≠ id) = events.filter (·.id ≠ id) := by
  refine ⟨⟨fun ⟨_, claimed⟩ => known_of_result positive answers claimed,
    fun known => ⟨_, result_of_known positive answers known⟩⟩, fun events claimed => ?_⟩
  have known := known_of_result positive answers claimed
  rw [result_of_known positive answers known] at claimed
  cases claimed
  have distinctEvents {rows : List Row} (distinct : (rows.map (·.id)).Nodup) :
      ((rows.map eventOf).map (·.id)).Nodup := (ids_map_eventOf rows).symm ▸ distinct
  have ascending := ascending_byId (distinctEvents distinct)
  refine ⟨ascending, ?_, fun s' rows' answers' perm => ?_, fun id raw s' answers' => ?_⟩
  · have each : List.Forall₂ Tells rows (rows.map eventOf) :=
      List.forall₂_map_right_iff.2 (List.forall₂_same.2 fun r member => tells_eventOf (known r member))
    obtain ⟨sorted, tells, perm⟩ :=
      List.perm_comp_forall₂ (perm_byId (rows.map eventOf)) each.flip
    exact ⟨sorted, perm, tells.flip⟩
  · have known' : ∀ r ∈ rows', r.status ∈ statusTexts := fun r member =>
      known r (perm.mem_iff.1 member)
    have distinct' : (rows'.map (·.id)).Nodup := (perm.map _).nodup_iff.2 distinct
    have same : (byId (rows'.map eventOf)).Perm (byId (rows.map eventOf)) :=
      (perm_byId _).trans ((perm.map _).trans (perm_byId _).symm)
    rw [result_of_known positive answers' known',
      eq_of_ascending same (ascending_byId (distinctEvents distinct')) ascending]
  · have distinct' : ((withHeaders id raw rows).map (·.id)).Nodup :=
      (ids_withHeaders id raw rows).symm ▸ distinct
    have same : ((byId ((withHeaders id raw rows).map eventOf)).filter (·.id ≠ id)).Perm
        ((byId (rows.map eventOf)).filter (·.id ≠ id)) := by
      refine ((perm_byId _).filter _).trans (.trans (.of_eq ?_) ((perm_byId _).filter _).symm)
      rw [filter_map_eventOf, filter_map_eventOf, filter_withHeaders]
    refine ⟨_, result_of_known positive answers' (status_withHeaders known), ?_⟩
    exact eq_of_ascending same ((ascending_byId (distinctEvents distinct')).filter _)
      (ascending.filter _)

def scrambled : List Row :=
  let row (id : Int) (headers : String) : Row :=
    ⟨id, "Order", "order-1", "OrderPlaced", "p", headers, "IN_PROGRESS", ⟨0⟩, none, some ⟨5⟩⟩
  [row 9 "not json", row 3 "\x7b\"tenant\":\"t1\"\x7d"]

def answering (rows : List Row) : ScriptedDatabase :=
  ⟨[.ok (rows.map fun r => ⟨r, 0⟩)], [], [], false⟩

theorem claim_reads_rows_of_scrambled :
    (25 : UInt64) ≠ 0 ∧ Answers (answering scrambled) 25 scrambled ∧
      (scrambled.map (·.id)).Nodup ∧
      ∃ events, (claimNew (answering scrambled) 25).result = .ok events ∧
        events.Pairwise (·.id < ·.id) ∧
        ∃ sorted, sorted.Perm scrambled ∧ List.Forall₂ Tells sorted events := by
  have positive : (25 : UInt64) ≠ 0 := by decide
  have answers : Answers (answering scrambled) 25 scrambled := rfl
  have distinct : (scrambled.map (·.id)).Nodup := by decide
  obtain ⟨exactly, reads⟩ := claim_reads_rows positive answers distinct
  obtain ⟨events, claimed⟩ := exactly.2 (by decide)
  obtain ⟨ascending, rows, -⟩ := reads events claimed
  exact ⟨positive, answers, distinct, events, claimed, ascending, rows⟩

end OutboxRelay.SqlStore
