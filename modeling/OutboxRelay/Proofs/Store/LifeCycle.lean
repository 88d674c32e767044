import Mathlib.Data.List.Forall2
import OutboxRelay.Proofs.Store.SharedTable

/-! The life of a row in memory. A call leaves a row as it is or moves it on by one status, and only
a call that persists an event adds one. From this follows what is true of the table at all times,
whatever the clock reads at each call: ids without a gap, times that fit the status, and counts
that are those of the rows. -/

namespace OutboxRelay

/-- One move forward in the life of a row. -/
inductive Status.Next : Status → Status → Prop
  | claim : Next .new .inProgress
  | publish : Next .inProgress .published
  | fail : Next .inProgress .failed

namespace MemoryStore

inductive Request
  | persist (event : NewEvent)
  | claimNew (limit : UInt64)
  | settlePublished (id : Int)
  | settleFailed (id : Int) (reason : String)
  | stats
  | staleClaims (olderThan : Duration)

def serve (s : MemoryStore) (now : Timestamp) : Request → MemoryStore
  | .persist event => (Outbox.persist s now event).store
  | .claimNew limit => (Outbox.claimNew s now limit).store
  | .settlePublished id => (Outbox.settlePublished s now id).store
  | .settleFailed id reason => (Outbox.settleFailed s now id reason).store
  | .stats => (Outbox.stats s now).store
  | .staleClaims olderThan => (Outbox.staleClaims s now olderThan).store

def serveAll (s : MemoryStore) (calls : List (Timestamp × Request)) : MemoryStore :=
  calls.foldl (fun s call => s.serve call.1 call.2) s

theorem serve_eq (s : MemoryStore) (now : Timestamp) (request : Request) :
    s.serve now request = s ∨ ∃ a, s.serve now request = s.act a := by
  cases request with
  | persist event => exact .inr ⟨.persist now event, rfl⟩
  | claimNew limit => exact .inr ⟨.claim now limit, rfl⟩
  | settlePublished id => exact .inr ⟨.settle now id .published, rfl⟩
  | settleFailed id reason => exact .inr ⟨.settle now id .failed, rfl⟩
  | stats => exact .inl rfl
  | staleClaims olderThan => exact .inl rfl

/-! ### Rows -/

/-- What a call may make of a row. -/
inductive Row.Moves (r : Row) : Row → Prop
  | stay : Moves r r
  | claim (new : r.event.status = .new) (now : Timestamp) : Moves r (r.claim now)
  | settle (claimed : r.event.status = .inProgress) (now : Timestamp) (settlement : Settlement) :
    Moves r (r.settle now settlement.status)

def Row.Stamped (r : Row) : Prop :=
  match r.event.status with
  | .new => r.claimedAt = none ∧ r.event.publishedAt = none
  | .inProgress | .failed => r.claimedAt.isSome ∧ r.event.publishedAt = none
  | .published => r.claimedAt.isSome ∧
      ∃ time, r.event.publishedAt = some time ∧ r.event.createdAt.nanos ≤ time.nanos

structure Row.Follows (r r' : Row) : Prop where
  id : r'.event.id = r.event.id
  content : r'.event.toNewEvent = r.event.toNewEvent
  createdAt : r'.event.createdAt = r.event.createdAt
  status : r' = r ∨ r.event.status.Next r'.event.status
  final : r.event.status.isFinal → r' = r

theorem Row.stamped_ofNew (id : Int) (now : Timestamp) (event : NewEvent) :
    (Row.ofNew id now event).Stamped := ⟨rfl, rfl⟩

theorem le_timestamp_max (a b : Timestamp) : b.nanos ≤ (Timestamp.max a b).nanos := by
  unfold Timestamp.max
  split <;> omega

theorem Row.Moves.stamped {r r' : Row} (move : r.Moves r') (h : r.Stamped) : r'.Stamped := by
  cases move with
  | stay => exact h
  | claim new now =>
    simp only [Stamped, new] at h
    exact ⟨rfl, h.2⟩
  | settle claimed now settlement =>
    simp only [Stamped, claimed] at h
    cases settlement with
    | published => exact ⟨h.1, _, rfl, le_timestamp_max now r.event.createdAt⟩
    | failed => exact h

theorem Row.Moves.follows {r r' : Row} (move : r.Moves r') : r.Follows r' := by
  cases move with
  | stay => exact ⟨rfl, rfl, rfl, .inl rfl, fun _ => rfl⟩
  | claim new now =>
    refine ⟨rfl, rfl, rfl, .inr (new ▸ .claim), fun final => ?_⟩
    rw [new] at final
    cases final
  | settle claimed now settlement =>
    refine ⟨rfl, rfl, rfl, .inr ?_, fun final => ?_⟩
    · rw [claimed]
      cases settlement with
      | published => exact .publish
      | failed => exact .fail
    · rw [claimed] at final
      cases final

/-! ### The table -/

theorem moves_claimRows (now : Timestamp) (limit : Nat) (rows : List Row) :
    List.Forall₂ Row.Moves rows (claimRows now limit rows).2 := by
  fun_induction claimRows now limit rows with
  | case1 rows => exact List.forall₂_same.2 fun _ _ => .stay
  | case2 limit => exact .nil
  | case3 limit r rest new events rest' eq ih =>
    rw [eq] at ih
    exact .cons (.claim new now) ih
  | case4 limit r rest old events rest' eq ih =>
    rw [eq] at ih
    exact .cons .stay ih

theorem moves_settle (s : MemoryStore) (now : Timestamp) (id : Int) (settlement : Settlement) :
    List.Forall₂ Row.Moves s.rows (s.settle now id settlement.status).2.rows := by
  simp only [settle, List.forall₂_map_right_iff]
  refine List.forall₂_same.2 fun r _ => ?_
  split
  · rename_i claimed
    simp only [Row.isClaimed, Bool.and_eq_true, decide_eq_true_eq] at claimed
    exact .settle claimed.2 now settlement
  · exact .stay

theorem moves_act (s : MemoryStore) (a : Act) :
    ∃ kept fresh, (s.act a).rows = kept ++ fresh ∧ List.Forall₂ Row.Moves s.rows kept ∧
      ∀ r ∈ fresh, ∃ id now event, r = Row.ofNew id now event := by
  cases a with
  | persist now event =>
    refine ⟨s.rows, _, rfl, List.forall₂_same.2 fun _ _ => .stay, fun r mem => ?_⟩
    exact ⟨_, now, event, List.mem_singleton.1 mem⟩
  | claim now limit =>
    exact ⟨_, [], (List.append_nil _).symm, moves_claimRows now limit.toNat s.rows, nofun⟩
  | settle now id settlement =>
    exact ⟨_, [], (List.append_nil _).symm, moves_settle s now id settlement, nofun⟩

/-- No row of `before` is lost in `after`, and each is still as it was or one status further. -/
def Extends (before after : MemoryStore) : Prop :=
  ∃ kept fresh, after.rows = kept ++ fresh ∧ List.Forall₂ Row.Follows before.rows kept ∧
    ∀ r ∈ fresh, r.event.status = .new

theorem extends_serve (s : MemoryStore) (now : Timestamp) (request : Request) :
    s.Extends (s.serve now request) := by
  rcases s.serve_eq now request with same | ⟨a, same⟩
  · rw [same]
    exact ⟨s.rows, [], (List.append_nil _).symm,
      List.forall₂_same.2 fun r _ => (Row.Moves.stay (r := r)).follows, nofun⟩
  · obtain ⟨kept, fresh, rows, moves, new⟩ := s.moves_act a
    rw [same]
    refine ⟨kept, fresh, rows, moves.imp fun _ _ => Row.Moves.follows, fun r mem => ?_⟩
    obtain ⟨id, now, event, rfl⟩ := new r mem
    rfl

theorem forall_of_moves {p : Row → Prop} {rows kept : List Row}
    (move : ∀ {r r'}, Row.Moves r r' → p r → p r') (moves : List.Forall₂ Row.Moves rows kept)
    (h : ∀ r ∈ rows, p r) : ∀ r ∈ kept, p r := by
  induction moves with
  | nil => exact h
  | cons first rest ih =>
    rw [List.forall_mem_cons] at h ⊢
    exact ⟨move first h.1, ih h.2⟩

theorem stamped_act {s : MemoryStore} (h : ∀ r ∈ s.rows, r.Stamped) (a : Act) :
    ∀ r ∈ (s.act a).rows, r.Stamped := by
  obtain ⟨kept, fresh, rows, moves, new⟩ := s.moves_act a
  rw [rows, List.forall_mem_append]
  refine ⟨forall_of_moves Row.Moves.stamped moves h, fun r mem => ?_⟩
  obtain ⟨id, now, event, rfl⟩ := new r mem
  exact Row.stamped_ofNew id now event

/-! ### Counts -/

def count (s : MemoryStore) (status : Status) : Nat := s.rows.countP (·.event.status = status)

theorem count_foldl (rows : List Row) (stats : Stats) (status : Status) :
    (rows.foldl (fun stats r => stats.add r.event.status 1) stats).count status =
      stats.count status + .ofNat (rows.countP (·.event.status = status)) := by
  induction rows generalizing stats with
  | nil => simp
  | cons r rest ih =>
    rw [List.foldl_cons, ih, Stats.count_add, List.countP_cons]
    by_cases same : r.event.status = status
    · simp [same, UInt64.ofNat_add, UInt64.add_assoc, UInt64.add_comm 1]
    · simp [same, Ne.symm same]

theorem stats_count (s : MemoryStore) (status : Status) :
    s.stats.count status = .ofNat (s.count status) := by
  have zero : Stats.zero.count status = 0 := by cases status <;> rfl
  rw [stats, count_foldl, zero, UInt64.zero_add]
  rfl

theorem count_sum (s : MemoryStore) :
    s.count .new + s.count .inProgress + s.count .published + s.count .failed = s.rows.length := by
  unfold count
  induction s.rows with
  | nil => rfl
  | cons r rest ih =>
    simp only [List.countP_cons, List.length_cons]
    cases r.event.status <;> simp <;> omega

variable {s : MemoryStore}

theorem Numbered.length (h : s.Numbered) : s.rows.length = s.lastId := by
  have lengths := congrArg List.length h
  rwa [List.length_map, List.length_map, List.length_range] at lengths

theorem Numbered.get?_id (h : s.Numbered) (id : Int) :
    (s.get? id).map (·.id) = if 1 ≤ id ∧ id ≤ s.lastId then some id else none := by
  have ids : id ∈ s.rows.map (·.event.id) ↔ 1 ≤ id ∧ id ≤ s.lastId := by
    rw [h, List.mem_map]
    constructor
    · rintro ⟨n, mem, rfl⟩
      have := List.mem_range.1 mem
      omega
    · rintro ⟨pos, le⟩
      exact ⟨(id - 1).toNat, List.mem_range.2 (by omega), by omega⟩
  unfold get?
  cases found : s.rows.find? (·.event.id = id) with
  | none =>
    have absent : id ∉ s.rows.map (·.event.id) := fun mem => by
      obtain ⟨r, row, same⟩ := List.mem_map.1 mem
      simpa [same] using List.find?_eq_none.1 found r row
    rw [ids] at absent
    rw [if_neg absent]
    rfl
  | some r =>
    have same : r.event.id = id := by simpa using List.find?_some found
    have present : id ∈ s.rows.map (·.event.id) :=
      same ▸ List.mem_map_of_mem (List.mem_of_find?_eq_some found)
    rw [ids] at present
    rw [if_pos present, ← same]
    rfl

/-- What is true of the table at all times. -/
structure Sound (s : MemoryStore) : Prop where
  keys : s.Numbered
  found : ∀ id, (s.get? id).map (·.id) = if 1 ≤ id ∧ id ≤ s.lastId then some id else none
  stamped : ∀ r ∈ s.rows, r.Stamped
  counts : ∀ status, s.stats.count status = .ofNat (s.count status)
  total : s.stats.total = .ofNat s.lastId
  exact : s.lastId < UInt64.size → (∀ status, (s.stats.count status).toNat = s.count status) ∧
    s.stats.new.toNat + s.stats.inProgress.toNat + s.stats.published.toNat +
      s.stats.failed.toNat = s.lastId

theorem Numbered.sound (h : s.Numbered) (stamped : ∀ r ∈ s.rows, r.Stamped) : s.Sound := by
  have sum := s.count_sum
  rw [h.length] at sum
  refine ⟨h, h.get?_id, stamped, s.stats_count, ?_, fun small => ?_⟩
  · have words : s.stats.total = .ofNat (s.count .new) + .ofNat (s.count .inProgress) +
        .ofNat (s.count .published) + .ofNat (s.count .failed) := by
      rw [← s.stats_count, ← s.stats_count, ← s.stats_count, ← s.stats_count]
      rfl
    rw [words, ← sum]
    simp only [UInt64.ofNat_add]
  · have counts (status : Status) : (s.stats.count status).toNat = s.count status := by
      have le : s.count status ≤ s.lastId := h.length ▸ List.countP_le_length
      rw [s.stats_count, UInt64.toNat_ofNat']
      exact Nat.mod_eq_of_lt (Nat.lt_of_le_of_lt le small)
    refine ⟨counts, ?_⟩
    rw [← sum, ← counts, ← counts, ← counts, ← counts]
    rfl

theorem Numbered.serve (h : s.Numbered) (now : Timestamp) (request : Request) :
    (s.serve now request).Numbered := by
  rcases s.serve_eq now request with same | ⟨a, same⟩
  · rw [same]
    exact h
  · rw [same]
    exact h.act a

theorem stamped_serve (h : ∀ r ∈ s.rows, r.Stamped) (now : Timestamp) (request : Request) :
    ∀ r ∈ (s.serve now request).rows, r.Stamped := by
  rcases s.serve_eq now request with same | ⟨a, same⟩
  · rw [same]
    exact h
  · rw [same]
    exact stamped_act h a

theorem sound_serveAll (h : s.Sound) (calls : List (Timestamp × Request)) :
    (s.serveAll calls).Sound := by
  induction calls generalizing s with
  | nil => exact h
  | cons call rest ih =>
    exact ih ((h.keys.serve call.1 call.2).sound (stamped_serve h.stamped call.1 call.2))

/-- After any calls at any readings of the clock the table is sound, and every further call only
takes rows forward. -/
theorem rows_go_forward (calls : List (Timestamp × Request)) :
    (empty.serveAll calls).Sound ∧
      ∀ now request,
        (empty.serveAll calls).Extends ((empty.serveAll calls).serve now request) :=
  ⟨sound_serveAll (numbered_empty.sound nofun) calls,
    fun now request => extends_serve _ now request⟩

end MemoryStore

end OutboxRelay
