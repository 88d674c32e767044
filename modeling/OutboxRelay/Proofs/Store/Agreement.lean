import Mathlib.Data.List.Forall2
import Mathlib.Data.List.Perm.Basic
import OutboxRelay.Proofs.Store.Claiming
import OutboxRelay.Proofs.Store.HeaderColumn
import OutboxRelay.Proofs.Store.LifeCycle
import OutboxRelay.Proofs.Store.TableCommands

/-! The store over a table of a database and the store in memory answer the same calls alike, for
whole runs of calls by any number of clients. The two have clocks of their own, so times are left
out, and the order in which the table keeps its rows may be any. -/

namespace OutboxRelay

open Sql

/-! ### Rows -/

structure MemoryStore.Row.KeptAs (m : MemoryStore.Row) (r : Sql.Row) : Prop where
  id : r.id = m.event.id
  aggregateType : r.aggregateType = m.event.aggregateType
  aggregateId : r.aggregateId = m.event.aggregateId
  eventType : r.eventType = m.event.eventType
  payload : r.payload = m.event.payload
  headers : r.headers = HeaderBlob.encode m.event.headers
  status : r.status = m.event.status.text

/-- The event without its times. -/
def Event.untimed (e : Event) : Event := { e with createdAt := ⟨0⟩, publishedAt := none }

def Kept (ms : List MemoryStore.Row) (rows : List Sql.Row) : Prop :=
  List.Forall₂ MemoryStore.Row.KeptAs ms rows

namespace Kept

variable {ms : List MemoryStore.Row} {rows : List Sql.Row}

theorem map_eq {α : Type} {f : MemoryStore.Row → α} {g : Sql.Row → α} (h : Kept ms rows)
    (same : ∀ m r, m.KeptAs r → f m = g r) : ms.map f = rows.map g := by
  induction h with
  | nil => rfl
  | cons first _ ih => rw [List.map_cons, List.map_cons, same _ _ first, ih]

theorem ids (h : Kept ms rows) : ms.map (·.event.id) = rows.map (·.id) :=
  h.map_eq fun _ _ kept => kept.id.symm

theorem filter {p : MemoryStore.Row → Bool} {q : Sql.Row → Bool} (h : Kept ms rows)
    (same : ∀ m r, m.KeptAs r → p m = q r) : Kept (ms.filter p) (rows.filter q) :=
  List.rel_filter (fun m r kept => Iff.of_eq (congrArg (· = true) (same m r kept))) h

theorem map {f : MemoryStore.Row → MemoryStore.Row} {g : Sql.Row → Sql.Row} (h : Kept ms rows)
    (same : ∀ m r, m.KeptAs r → (f m).KeptAs (g r)) : Kept (ms.map f) (rows.map g) :=
  List.rel_map (fun m r kept => same m r kept) h

theorem change {ids : List Int} {f : MemoryStore.Row → MemoryStore.Row} {g : Sql.Row → Sql.Row}
    (h : Kept ms rows) (same : ∀ m r, m.KeptAs r → (f m).KeptAs (g r)) :
    Kept (ms.map fun m => if m.event.id ∈ ids then f m else m)
      (rows.map fun r => if r.id ∈ ids then g r else r) := by
  refine h.map fun m r kept => ?_
  rw [kept.id]
  split
  · exact same m r kept
  · exact kept

theorem eventsOfRows (h : Kept ms rows) : ∃ events,
    SqlStore.eventsOfRows rows = (.ok events, []) ∧
      events.map (·.untimed) = ms.map (·.event.untimed) := by
  induction h with
  | nil => exact ⟨[], rfl, rfl⟩
  | @cons m r ms rows kept _ ih =>
    obtain ⟨events, read, same⟩ := ih
    have status : Status.read r.status = .ok m.event.status := by
      rw [kept.status, Status.read, Status.ofText?_text]
    have headers : SqlStore.rowHeaders r = (m.event.headers, []) := by
      rw [SqlStore.rowHeaders, kept.headers, HeaderBlob.decode?_encode]
    refine ⟨SqlStore.eventOfRow r m.event.status m.event.headers :: events, ?_, ?_⟩
    · unfold SqlStore.eventsOfRows
      rw [status, headers, read]
      rfl
    · rw [List.map_cons, List.map_cons, same]
      unfold SqlStore.eventOfRow Event.untimed
      rw [kept.id, kept.aggregateType, kept.aggregateId, kept.eventType, kept.payload]

end Kept

/-! ### What a claim takes -/

theorem filter_mem_of_sublist {α : Type} {key : α → Int} {part whole : List α}
    (sub : part.Sublist whole) (distinct : (whole.map key).Nodup) :
    whole.filter (key · ∈ part.map key) = part := by
  induction sub with
  | slnil => rfl
  | @cons part whole a sub ih =>
    obtain ⟨apart, distinct⟩ := List.nodup_cons.1 distinct
    have missing : key a ∉ part.map key := fun mem => apart ((sub.map key).subset mem)
    rw [List.filter_cons_of_neg (by simpa using missing), ih distinct]
  | @cons_cons part whole a sub ih =>
    obtain ⟨apart, distinct⟩ := List.nodup_cons.1 distinct
    rw [List.filter_cons_of_pos (by simp)]
    refine congrArg (a :: ·) ((List.filter_congr fun b mem => ?_).trans (ih distinct))
    have other : key b ≠ key a := fun same => apart (same ▸ List.mem_map_of_mem mem)
    simp [other]

theorem take_limitValue {ids : List Int} (few : ids.length < Nat.pow 2 63) (limit : UInt64) :
    ids.take (SqlStore.limitValue limit).toNat = ids.take limit.toNat := by
  have value : (SqlStore.limitValue limit).toNat = min limit.toNat (Nat.pow 2 63 - 1) := rfl
  rw [value]
  rcases Nat.le_total limit.toNat (Nat.pow 2 63 - 1) with small | large
  · rw [Nat.min_eq_left small]
  · rw [Nat.min_eq_right large, List.take_of_length_le (Nat.le_sub_one_of_lt few),
      List.take_of_length_le (Nat.le_trans (Nat.le_sub_one_of_lt few) large)]

theorem MemoryStore.Numbered.claimNew_events {m : MemoryStore} (numbered : m.Numbered)
    (now : Timestamp) (limit : UInt64) :
    (m.claimNew now limit).1 =
      (m.rows.filter (·.event.id ∈ (m.claimNew now limit).1.map (·.id))).map
        fun r => (r.claim now).event := by
  have taken := (numbered.takesLowest now limit).events
  have ids : (m.claimNew now limit).1.map (·.id) =
      (m.newRows.take limit.toNat).map (·.event.id) := by
    rw [taken, List.map_map]
    rfl
  have part : (m.newRows.take limit.toNat).Sublist m.rows :=
    (List.take_sublist ..).trans List.filter_sublist
  rw [ids, filter_mem_of_sublist part numbered.nodup]
  exact taken

theorem byId_untimed {events claimed : List Event}
    (perm : (events.map (·.untimed)).Perm (claimed.map (·.untimed)))
    (ascending : (claimed.map (·.id)).Pairwise (· < ·)) :
    (SqlStore.byId events).map (·.untimed) = claimed.map (·.untimed) := by
  have ids (events : List Event) : (events.map (·.untimed)).map (·.id) = events.map (·.id) := by
    rw [List.map_map]
    rfl
  have all : ((SqlStore.byId events).map (·.untimed)).Perm (claimed.map (·.untimed)) :=
    ((List.mergeSort_perm ..).map _).trans perm
  have distinct : ((claimed.map (·.untimed)).map (·.id)).Nodup := by
    rw [ids]
    exact ascending.imp fun lt => Int.ne_of_lt lt
  have sorted : ((SqlStore.byId events).map (·.untimed)).Pairwise (·.id ≤ ·.id) :=
    List.pairwise_map.2 (SqlStore.pairwise_byId events)
  have sorted' : (claimed.map (·.untimed)).Pairwise (·.id ≤ ·.id) :=
    List.pairwise_map.2 ((List.pairwise_map.1 ascending).imp Int.le_of_lt)
  exact List.Perm.eq_of_pairwise (fun a b here there ab ba =>
    List.inj_on_of_nodup_map distinct (all.mem_iff.1 here) there (Int.le_antisymm ab ba))
    sorted sorted' all

/-! ### Counts of rows -/

theorem nodup_eraseDups {α : Type} [DecidableEq α] (l : List α) : l.eraseDups.Nodup := by
  match l with
  | [] => exact .nil
  | a :: rest =>
    have shorter := List.length_filter_le (!· == a) rest
    rw [List.eraseDups_cons]
    refine List.nodup_cons.2 ⟨fun mem => ?_, nodup_eraseDups (rest.filter (!· == a))⟩
    have kept := (List.mem_filter.1 (List.mem_eraseDups.1 mem)).2
    simp at kept
termination_by l.length
decreasing_by simpa using Nat.lt_succ_of_le shorter

theorem Stats.eq_of_count {s s' : Stats}
    (same : ∀ status, s.count status = s'.count status) : s = s' := by
  obtain ⟨_, _, _, _⟩ := s
  obtain ⟨_, _, _, _⟩ := s'
  have new := same .new
  have inProgress := same .inProgress
  have published := same .published
  have failed := same .failed
  simp only [Stats.count] at new inProgress published failed
  rw [new, inProgress, published, failed]

theorem count_foldl_addCount {texts : List String} (number : String → Nat)
    (known : ∀ s ∈ texts, ∃ status : Status, s = status.text) (distinct : texts.Nodup)
    (acc : Stats × Journal) (status : Status) :
    ((texts.map fun s => (s, (number s : Int))).foldl SqlStore.addCount acc).1.count status =
      acc.1.count status + if status.text ∈ texts then .ofNat (number status.text) else 0 := by
  induction texts generalizing acc with
  | nil => simp
  | cons s rest ih =>
    obtain ⟨apart, distinctRest⟩ := List.nodup_cons.1 distinct
    obtain ⟨⟨own, rfl⟩, others⟩ := List.forall_mem_cons.1 known
    have added : SqlStore.addCount acc (own.text, (number own.text : Int)) =
        (acc.1.add own (.ofNat (number own.text)), acc.2) := by
      rw [SqlStore.addCount, Status.read, Status.ofText?_text]
      rfl
    rw [List.map_cons, List.foldl_cons, added, ih others distinctRest, Stats.count_add]
    by_cases same : status = own
    · subst same
      simp [apart]
    · simp [same, Status.text_inj]

/-! ### Tables -/

/-- The table keeps the rows in memory, in any order. -/
structure Mirrors (m : MemoryStore) (t : Table) : Prop where
  rows : ∃ ms, ms.Perm m.rows ∧ Kept ms t.rows
  lastId : t.lastId = m.lastId
  numbered : m.Numbered

namespace Mirrors

variable {m : MemoryStore} {t : Table}

theorem empty (order : RowOrder) (now : Timestamp) :
    Mirrors MemoryStore.empty (Table.empty order now) :=
  ⟨⟨[], .refl _, .nil⟩, rfl, MemoryStore.numbered_empty⟩

theorem rearranged (h : Mirrors m t) : Mirrors m t.rearranged := by
  obtain ⟨ms, all, kept⟩ := h.rows
  obtain ⟨ms', kept', all'⟩ := List.perm_comp_forall₂ (t.order.perm t.commands t.rows) kept.flip
  exact ⟨⟨ms', all'.trans all, kept'.flip⟩, h.lastId, h.numbered⟩

theorem persist (h : Mirrors m t) {e : NewEvent}
    (storable : (SqlStore.insertValues e).all Value.isStorable = true) (now : Timestamp) :
    (SqlStore.insert t e).1 = .ok (m.persist now e).1 ∧
      Mirrors (m.persist now e).2 (SqlStore.insert t e).2 := by
  obtain ⟨⟨ms, all, kept⟩, _, _⟩ := h.rearranged
  rw [SqlStore.insert_spec storable, h.lastId]
  refine ⟨rfl, ⟨_, all.append_right _, ?_⟩, rfl, h.numbered.act (.persist now e)⟩
  exact List.rel_append kept (.cons ⟨rfl, rfl, rfl, rfl, rfl, rfl, rfl⟩ .nil)

theorem lowestIds (h : Mirrors m t) (few : m.lastId < Nat.pow 2 63) (now : Timestamp)
    (limit : UInt64) :
    SqlStore.lowestIds t.rows (SqlStore.limitValue limit).toNat =
      (m.claimNew now limit).1.map (·.id) := by
  obtain ⟨ms, all, kept⟩ := h.rows
  have new : SqlStore.newIds t.rows = (ms.filter (·.event.status = .new)).map (·.event.id) := by
    have same (m : MemoryStore.Row) (r : Sql.Row) (kept : m.KeptAs r) :
        decide (m.event.status = .new) = decide (r.status = Status.new.text) := by
      rw [kept.status]
      exact decide_eq_decide.2 Status.text_inj.symm
    exact (kept.filter same).ids.symm
  have perm : (SqlStore.newIds t.rows).Perm m.newIds := new ▸ (all.filter _).map _
  have sorted : (SqlStore.newIds t.rows).mergeSort (· ≤ ·) = m.newIds := by
    have ascending := h.numbered.newIds_ascending.imp Int.le_of_lt
    exact List.Perm.eq_of_pairwise (fun a b _ _ => Int.le_antisymm)
      (List.pairwise_mergeSort' (· ≤ ·) _) ascending ((List.mergeSort_perm _ _).trans perm)
  have length : m.newIds.length < Nat.pow 2 63 := by
    have part : m.newIds.length ≤ m.rows.length := by
      rw [MemoryStore.newIds, List.length_map]
      exact List.length_filter_le ..
    exact Nat.lt_of_le_of_lt (h.numbered.length ▸ part) few
  rw [SqlStore.lowestIds, sorted, take_limitValue length, m.claimNew_ids]

theorem claimNew (h : Mirrors m t) (few : m.lastId < Nat.pow 2 63) (now : Timestamp)
    (limit : UInt64) : ∃ events,
    (SqlStore.claimNew t limit).result = .ok events ∧
      events.map (·.untimed) = (m.claimNew now limit).1.map (·.untimed) ∧
      Mirrors (m.claimNew now limit).2 (SqlStore.claimNew t limit).store := by
  have takes := h.numbered.takesLowest now limit
  unfold SqlStore.claimNew
  split
  · rename_i none
    subst none
    have nothing : m.claimNew now 0 = ([], m) := by simp [MemoryStore.claimNew, MemoryStore.claimRows]
    rw [nothing]
    exact ⟨[], rfl, rfl, h⟩
  · have found := h.rearranged
    have ids := found.lowestIds few now limit
    obtain ⟨ms, all, kept⟩ := found.rows
    have claimed (m : MemoryStore.Row) (r : Sql.Row) (kept : m.KeptAs r) :
        (m.claim now).KeptAs (SqlStore.claimedRow t.now r) :=
      ⟨kept.id, kept.aggregateType, kept.aggregateId, kept.eventType, kept.payload, kept.headers,
        rfl⟩
    rw [SqlStore.run_claim, ids]
    dsimp only
    have touched : Kept ((ms.filter (·.event.id ∈ (m.claimNew now limit).1.map (·.id))).map
        (·.claim now)) ((t.rearranged.rows.filter
          (·.id ∈ (m.claimNew now limit).1.map (·.id))).map (SqlStore.claimedRow t.now)) :=
      (kept.filter fun m r kept => by rw [kept.id]).map claimed
    obtain ⟨events, read, same⟩ := touched.eventsOfRows
    rw [read]
    refine ⟨_, rfl, byId_untimed ?_ takes.ascending, ⟨_, ?_, kept.change claimed⟩, ?_, ?_⟩
    · have claimed := congrArg (List.map Event.untimed) (h.numbered.claimNew_events now limit)
      rw [same, List.map_map, claimed, List.map_map]
      exact (all.filter _).map _
    · rw [takes.moved]
      exact all.map _
    · exact h.lastId
    · exact h.numbered.act (.claim now limit)

theorem settle (h : Mirrors m t) (now : Timestamp) (id : Int) (settlement : Settlement) :
    Mirrors (m.settle now id settlement.status).2 (SqlStore.settledTable t id settlement) := by
  obtain ⟨ms, all, kept⟩ := h.rearranged.rows
  have settled (m : MemoryStore.Row) (r : Sql.Row) (kept : m.KeptAs r) :
      (m.settle now settlement.status).KeptAs (SqlStore.settledRow t.now settlement r) := by
    cases settlement <;> exact ⟨kept.id, kept.aggregateType, kept.aggregateId, kept.eventType,
      kept.payload, kept.headers, rfl⟩
  have reached : (ms.filter (·.isClaimed id)).map (·.event.id) =
      SqlStore.reachedIds t.rearranged.rows id := by
    refine Kept.ids (kept.filter fun m r kept => ?_)
    rw [MemoryStore.Row.isClaimed, kept.id, kept.status]
    exact congrArg _ (decide_eq_decide.2 Status.text_inj.symm)
  have mem_reached : ∀ r ∈ m.rows, (if r.event.id ∈ SqlStore.reachedIds t.rearranged.rows id then
      r.settle now settlement.status else r) =
        if r.isClaimed id then r.settle now settlement.status else r := by
    intro r member
    have same : r.event.id ∈ SqlStore.reachedIds t.rearranged.rows id ↔ r.isClaimed id := by
      rw [← reached]
      constructor
      · intro mem
        obtain ⟨r', mem, same⟩ := List.mem_map.1 mem
        obtain ⟨member', claimed⟩ := List.mem_filter.1 mem
        have one := List.inj_on_of_nodup_map h.numbered.nodup (all.mem_iff.1 member') member same
        exact one ▸ claimed
      · intro claimed
        exact List.mem_map_of_mem (List.mem_filter.2 ⟨all.mem_iff.2 member, claimed⟩)
    simp only [same]
  refine ⟨⟨_, ?_, kept.change settled⟩, h.lastId, h.numbered.act (.settle now id settlement)⟩
  exact (all.map _).trans (List.Perm.of_eq (List.map_congr_left mem_reached))

theorem stats (h : Mirrors m t) :
    (SqlStore.stats t).result = .ok m.stats ∧ Mirrors m (SqlStore.stats t).store := by
  obtain ⟨ms, all, kept⟩ := h.rearranged.rows
  have texts : (ms.map (·.event.status.text)).Perm (m.rows.map (·.event.status.text)) := all.map _
  have same : t.rearranged.rows.map (·.status) = ms.map (·.event.status.text) :=
    (kept.map_eq fun _ _ kept => kept.status.symm).symm
  unfold SqlStore.stats
  rw [SqlStore.run_counts, same]
  refine ⟨congrArg Except.ok (Stats.eq_of_count fun status => ?_), h.rearranged⟩
  have known : ∀ s ∈ (ms.map (·.event.status.text)).eraseDups, ∃ status : Status,
      s = status.text := by
    intro s mem
    obtain ⟨r, _, rfl⟩ := List.mem_map.1 (List.mem_eraseDups.1 mem)
    exact ⟨_, rfl⟩
  have zero : Stats.zero.count status = 0 := by cases status <;> rfl
  have number : (ms.map (·.event.status.text)).count status.text = m.count status := by
    rw [texts.count_eq, MemoryStore.count, List.count, List.countP_map]
    congr 1
    funext r
    exact decide_eq_decide.2 Status.text_inj
  rw [count_foldl_addCount _ known (nodup_eraseDups _), m.stats_count, zero, UInt64.zero_add,
    number]
  split
  · rfl
  · rename_i missing
    rw [List.mem_eraseDups] at missing
    rw [← number, List.count_eq_zero_of_not_mem missing]
    rfl

end Mirrors

/-! ### Runs of calls -/

/-- The texts of an event are such as a text column can hold. Its headers may be any. -/
def NewEvent.Storable (e : NewEvent) : Prop :=
  ∀ s ∈ [e.aggregateType, e.aggregateId, e.eventType, e.payload], Char.ofNat 0 ∉ s.toList

instance (e : NewEvent) : Decidable e.Storable := List.decidableBAll ..

namespace Outbox

/-- A call of a client. The count of stale claims, which looks at times only, is not among them. -/
inductive Request
  | persist (event : NewEvent)
  | claimNew (limit : UInt64)
  | settlePublished (id : Int)
  | settleFailed (id : Int) (reason : String)
  | stats

def Request.isPersist : Request → Bool
  | .persist _ => true
  | _ => false

def Request.Storable (request : Request) : Prop :=
  match request with
  | .persist e => e.Storable
  | _ => True

instance (request : Request) : Decidable request.Storable :=
  match request with
  | .persist e => inferInstanceAs (Decidable e.Storable)
  | .claimNew _ | .settlePublished _ | .settleFailed _ _ | .stats => .isTrue trivial

inductive Answer
  | persisted (id : Int)
  | claimed (events : List Event)
  | settled
  | counted (stats : Stats)
deriving DecidableEq

variable {σ : Type} [Outbox σ]

def answer (s : σ) (now : Timestamp) : Request → Except StoreError Answer × σ
  | .persist event =>
    let reply := Outbox.persist s now event
    (reply.result.map .persisted, reply.store)
  | .claimNew limit =>
    let reply := Outbox.claimNew s now limit
    (reply.result.map fun events => .claimed (events.map (·.untimed)), reply.store)
  | .settlePublished id =>
    let reply := Outbox.settlePublished s now id
    (reply.result.map fun _ => .settled, reply.store)
  | .settleFailed id reason =>
    let reply := Outbox.settleFailed s now id reason
    (reply.result.map fun _ => .settled, reply.store)
  | .stats =>
    let reply := Outbox.stats s now
    (reply.result.map .counted, reply.store)

def answerAll (tick : Timestamp → σ → σ) :
    WallClock → σ → List Request → List (Except StoreError Answer) × σ
  | _, s, [] => ([], s)
  | clock, s, request :: rest =>
    let (now, clock) := clock.read
    let (first, s) := answer (tick now s) now request
    let (later, s) := answerAll tick clock s rest
    (first :: later, s)

end Outbox

/-- The database reads its own clock. -/
def SqlStore.setClock (now : Timestamp) (s : SqlStore Table) : SqlStore Table :=
  ⟨{ s.database with now := now }⟩

open Outbox

theorem SqlStore.insertValues_eq (e : NewEvent) : insertValues e =
    [e.aggregateType, e.aggregateId, e.eventType, e.payload].map Value.text ++
      [.text (HeaderBlob.encode e.headers), .text Status.new.text, .null, .null] := rfl

theorem SqlStore.isStorable_insertValues {e : NewEvent} (h : e.Storable) :
    (insertValues e).all Value.isStorable = true := by
  have headers : (Value.text (HeaderBlob.encode e.headers)).isStorable := by
    refine isStorable_text.2 fun here => ?_
    have visible := HeaderBlob.le_of_mem_encode here
    exact absurd visible (by decide)
  have fields : ([e.aggregateType, e.aggregateId, e.eventType, e.payload].map Value.text).all
      Value.isStorable = true := by
    rw [List.all_map, List.all_eq_true]
    exact fun s field => isStorable_text.2 (h s field)
  rw [insertValues_eq, List.all_append, fields, List.all_cons, headers]
  decide

namespace Mirrors

variable {m : MemoryStore} {t : Table}

theorem answer (h : Mirrors m t) (few : m.lastId < Nat.pow 2 63) {request : Request}
    (storable : request.Storable) (now now' : Timestamp) :
    (Outbox.answer (SqlStore.mk t) now' request).1 = (Outbox.answer m now request).1 ∧
      Mirrors (Outbox.answer m now request).2
        (Outbox.answer (SqlStore.mk t) now' request).2.database := by
  cases request with
  | persist e =>
    obtain ⟨id, after⟩ := h.persist (SqlStore.isStorable_insertValues storable) now
    refine ⟨?_, after⟩
    change (SqlStore.storeResult _ (SqlStore.insert t e).1).map Answer.persisted = _
    rw [id]
    rfl
  | claimNew limit =>
    obtain ⟨events, told, same, after⟩ := h.claimNew few now limit
    refine ⟨?_, after⟩
    change (SqlStore.claimNew t limit).result.map
      (fun events => Answer.claimed (events.map (·.untimed))) = _
    rw [told]
    exact congrArg (Except.ok ∘ Answer.claimed) same
  | settlePublished id =>
    obtain ⟨told, store⟩ := SqlStore.settlePublished_spec t id
    have after := h.settle now id .published
    rw [← store] at after
    exact ⟨congrArg (Except.map fun _ => Answer.settled) told, after⟩
  | settleFailed id reason =>
    obtain ⟨told, store⟩ := SqlStore.settleFailed_spec t id reason
    have after := h.settle now id .failed
    rw [← store] at after
    exact ⟨congrArg (Except.map fun _ => Answer.settled) told, after⟩
  | stats =>
    obtain ⟨told, after⟩ := h.stats
    exact ⟨congrArg (Except.map Answer.counted) told, after⟩

theorem lastId_answer (m : MemoryStore) (now : Timestamp) (request : Request) :
    (Outbox.answer m now request).2.lastId = m.lastId + [request].countP (·.isPersist) := by
  cases request <;> rfl

theorem answerAll (h : Mirrors m t) {requests : List Request}
    (few : m.lastId + requests.countP (·.isPersist) < Nat.pow 2 63)
    (storable : ∀ request ∈ requests, request.Storable) (clock clock' : WallClock) :
    (Outbox.answerAll SqlStore.setClock clock' (SqlStore.mk t) requests).1 =
        (Outbox.answerAll (fun _ m => m) clock m requests).1 ∧
      Mirrors (Outbox.answerAll (fun _ m => m) clock m requests).2
        (Outbox.answerAll SqlStore.setClock clock' (SqlStore.mk t) requests).2.database := by
  induction requests generalizing m t clock clock' with
  | nil => exact ⟨rfl, h⟩
  | cons request rest ih =>
    have clocked : Mirrors m { t with now := clock'.read.1 } := ⟨h.rows, h.lastId, h.numbered⟩
    have start : m.lastId < Nat.pow 2 63 := Nat.lt_of_le_of_lt (Nat.le_add_right ..) few
    obtain ⟨same, after⟩ := clocked.answer start (storable request List.mem_cons_self)
      clock.read.1 clock'.read.1
    have left : (Outbox.answer m clock.read.1 request).2.lastId +
        rest.countP (·.isPersist) < Nat.pow 2 63 := by
      rw [lastId_answer, Nat.add_assoc, ← List.countP_append]
      exact few
    obtain ⟨others, atEnd⟩ := ih after left
      (fun request mem => storable request (List.mem_cons_of_mem _ mem)) clock.read.2 clock'.read.2
    exact ⟨congrArg₂ List.cons same others, atEnd⟩

theorem statuses (h : Mirrors m t) : (t.rows.map fun r => (r.id, r.status)).Perm
    (m.rows.map fun r => (r.event.id, r.event.status.text)) := by
  obtain ⟨ms, all, kept⟩ := h.rows
  rw [← kept.map_eq (f := fun m => (m.event.id, m.event.status.text)) fun m r kept =>
    Prod.ext kept.id.symm kept.status.symm]
  exact all.map _

end Mirrors

/-- From an empty table on, the two stores give the same answers and leave every row in the same
status. Ids are 64-bit numbers, so there are less than `2 ^ 63` events. -/
theorem stores_agree (order : RowOrder) (start : Timestamp) (clock clock' : WallClock)
    (requests : List Request) (storable : ∀ request ∈ requests, request.Storable)
    (few : requests.countP (·.isPersist) < Nat.pow 2 63) :
    let inMemory := answerAll (fun _ m => m) clock MemoryStore.empty requests
    let inTable := answerAll SqlStore.setClock clock' ⟨Table.empty order start⟩ requests
    inTable.1 = inMemory.1 ∧
      (inTable.2.database.rows.map fun r => (r.id, r.status)).Perm
        (inMemory.2.rows.map fun r => (r.event.id, r.event.status.text)) := by
  have zero : MemoryStore.empty.lastId + requests.countP (·.isPersist) < Nat.pow 2 63 := by
    rw [show MemoryStore.empty.lastId = 0 from rfl, Nat.zero_add]
    exact few
  obtain ⟨same, after⟩ := (Mirrors.empty order start).answerAll zero storable clock clock'
  exact ⟨same, after.statuses⟩

def sharedRun : List Request :=
  let order (id : String) : NewEvent :=
    ⟨"Order", id, "OrderPlaced", "p", .ofList [("tenant", "a\"b\n")]⟩
  [.persist (order "order-1"), .persist (order "order-2"), .settleFailed 1 "too early",
    .claimNew 5, .settlePublished 2, .settleFailed 2 "too late", .stats]

theorem stores_agree_of_sharedRun :
    (∀ request ∈ sharedRun, request.Storable) ∧ sharedRun.countP (·.isPersist) < Nat.pow 2 63 ∧
      (answerAll SqlStore.setClock .steady ⟨Table.empty .backwards ⟨0⟩⟩ sharedRun).1 =
        (answerAll (fun _ m => m) .steady MemoryStore.empty sharedRun).1 := by
  have storable : ∀ request ∈ sharedRun, request.Storable := by decide
  have few : sharedRun.countP (·.isPersist) < Nat.pow 2 63 := by decide
  exact ⟨storable, few, (stores_agree .backwards ⟨0⟩ .steady .steady sharedRun storable few).1⟩

end OutboxRelay
