import Mathlib.Data.List.Nodup
import OutboxRelay.Dispatch.Delivery
import OutboxRelay.Store.Memory

/-! The table in memory, when many clients work on it. A row leaves the status new only by a claim
and the status in progress only by a settle, so what a client has claimed stays as it is for as long
as no other client settles it. `SharedStore` is the table as one client sees it: before each of its
calls the others may have done anything. -/

namespace OutboxRelay

def Settlement.status : Settlement → Status
  | .published => .published
  | .failed => .failed

namespace MemoryStore

inductive Act
  | persist (now : Timestamp) (event : NewEvent)
  | claim (now : Timestamp) (limit : UInt64)
  | settle (now : Timestamp) (id : Int) (settlement : Settlement)

def Act.settles (id : Int) : Act → Prop
  | .settle _ id' _ => id' = id
  | _ => False

def act (s : MemoryStore) : Act → MemoryStore
  | .persist now event => (s.persist now event).2
  | .claim now limit => (s.claimNew now limit).2
  | .settle now id settlement => (s.settle now id settlement.status).2

def acts (s : MemoryStore) (run : List Act) : MemoryStore := run.foldl act s

def statusOf (s : MemoryStore) (id : Int) : Option Status := (s.get? id).map (·.status)

/-- Ids are 1, 2, 3 and so on. -/
def Numbered (s : MemoryStore) : Prop :=
  s.rows.map (·.event.id) = (List.range s.lastId).map fun n : Nat => (n : Int) + 1

section Claim

variable {now : Timestamp} {limit : Nat} {rows : List Row}

theorem claimRows_ids (now : Timestamp) (limit : Nat) (rows : List Row) :
    (claimRows now limit rows).2.map (·.event.id) = rows.map (·.event.id) := by
  fun_induction claimRows now limit rows with
  | case1 rows => rfl
  | case2 limit => rfl
  | case3 limit r rest new events rest' eq ih =>
    rw [eq] at ih
    rw [List.map_cons, List.map_cons, ih]
    rfl
  | case4 limit r rest old events rest' eq ih =>
    rw [eq] at ih
    rw [List.map_cons, List.map_cons, ih]

theorem mem_of_mem_claimRows {e : Event} (h : e ∈ (claimRows now limit rows).1) :
    ∃ r ∈ (claimRows now limit rows).2, r.event = e ∧ e.status = .inProgress := by
  fun_induction claimRows now limit rows with
  | case1 rows => cases h
  | case2 limit => cases h
  | case3 limit r rest new events rest' eq ih =>
    rw [eq] at ih
    rcases List.mem_cons.1 h with rfl | later
    · exact ⟨r.claim now, List.mem_cons_self, rfl, rfl⟩
    · obtain ⟨r', mem, same⟩ := ih later
      exact ⟨r', List.mem_cons_of_mem _ mem, same⟩
  | case4 limit r rest old events rest' eq ih =>
    rw [eq] at ih
    obtain ⟨r', mem, same⟩ := ih h
    exact ⟨r', List.mem_cons_of_mem _ mem, same⟩

theorem claimRows_sublist (now : Timestamp) (limit : Nat) (rows : List Row) :
    ((claimRows now limit rows).1.map (·.id)).Sublist (rows.map (·.event.id)) := by
  fun_induction claimRows now limit rows with
  | case1 rows => exact List.nil_sublist _
  | case2 limit => exact List.Sublist.refl _
  | case3 limit r rest new events rest' eq ih =>
    rw [eq] at ih
    exact ih.cons_cons _
  | case4 limit r rest old events rest' eq ih =>
    rw [eq] at ih
    exact ih.cons _

theorem find_claimRows {id : Int} {r : Row} (found : rows.find? (·.event.id = id) = some r)
    (old : r.event.status ≠ .new) :
    (claimRows now limit rows).2.find? (·.event.id = id) = some r := by
  fun_induction claimRows now limit rows with
  | case1 rows => exact found
  | case2 limit => exact found
  | case3 limit r' rest new events rest' eq ih =>
    rw [eq] at ih
    by_cases here : r'.event.id = id
    · rw [List.find?_cons_of_pos (by simpa using here)] at found
      cases found
      exact absurd new old
    · rw [List.find?_cons_of_neg (by simpa using here)] at found
      have claimed : ¬ (r'.claim now).event.id = id := here
      rw [List.find?_cons_of_neg (by simpa using claimed)]
      exact ih found
  | case4 limit r' rest older events rest' eq ih =>
    rw [eq] at ih
    by_cases here : r'.event.id = id
    · rw [List.find?_cons_of_pos (by simpa using here)] at found ⊢
      exact found
    · rw [List.find?_cons_of_neg (by simpa using here)] at found ⊢
      exact ih found

end Claim

variable {s : MemoryStore} {id : Int} {status : Status}

theorem statusOf_eq_some :
    s.statusOf id = some status ↔
      ∃ r, s.rows.find? (·.event.id = id) = some r ∧ r.event.status = status := by
  simp [statusOf, get?]

theorem Numbered.nodup (h : s.Numbered) : (s.rows.map (·.event.id)).Nodup := by
  rw [h]
  refine List.nodup_range.map fun a b same => ?_
  have same : (a : Int) + 1 = b + 1 := same
  omega

theorem Numbered.statusOf_of_mem (h : s.Numbered) {r : Row} (mem : r ∈ s.rows) :
    s.statusOf r.event.id = some r.event.status := by
  have found : (s.rows.find? (·.event.id = r.event.id)).isSome :=
    List.find?_isSome.2 ⟨r, mem, by simp⟩
  obtain ⟨r', found⟩ := Option.isSome_iff_exists.1 found
  have same : r'.event.id = r.event.id := by simpa using List.find?_some found
  have equal := List.inj_on_of_nodup_map h.nodup (List.mem_of_find?_eq_some found) mem same
  exact statusOf_eq_some.2 ⟨r', found, by rw [equal]⟩

theorem settle_ids (s : MemoryStore) (now : Timestamp) (id : Int) (status : Status) :
    (s.settle now id status).2.rows.map (·.event.id) = s.rows.map (·.event.id) := by
  simp only [settle, List.map_map]
  apply List.map_congr_left
  intro r _
  simp only [Function.comp_apply]
  split <;> rfl

theorem Numbered.act (h : s.Numbered) (a : Act) : (s.act a).Numbered := by
  cases a with
  | persist now event =>
    simp only [Numbered, MemoryStore.act, MemoryStore.persist, List.map_append, List.map_cons,
      List.map_nil, List.range_succ]
    rw [h]
    rfl
  | claim now limit =>
    simp only [Numbered, MemoryStore.act, claimNew]
    rw [claimRows_ids]
    exact h
  | settle now id settlement =>
    simp only [Numbered, MemoryStore.act]
    rw [settle_ids]
    exact h

theorem Numbered.acts (h : s.Numbered) (run : List Act) : (s.acts run).Numbered := by
  induction run generalizing s with
  | nil => exact h
  | cons a rest ih => exact ih (h.act a)

theorem numbered_empty : empty.Numbered := rfl

theorem statusOf_persist (known : s.statusOf id = some status) (now : Timestamp)
    (event : NewEvent) : (s.persist now event).2.statusOf id = some status := by
  obtain ⟨r, found, same⟩ := statusOf_eq_some.1 known
  refine statusOf_eq_some.2 ⟨r, ?_, same⟩
  simp only [MemoryStore.persist]
  rw [List.find?_append, found]
  rfl

theorem statusOf_claimNew (known : s.statusOf id = some status) (old : status ≠ .new)
    (now : Timestamp) (limit : UInt64) :
    (s.claimNew now limit).2.statusOf id = some status := by
  obtain ⟨r, found, rfl⟩ := statusOf_eq_some.1 known
  exact statusOf_eq_some.2 ⟨r, find_claimRows found old, rfl⟩

theorem find_settle (s : MemoryStore) (now : Timestamp) (id other : Int) (status : Status) :
    (s.settle now id status).2.rows.find? (·.event.id = other) =
      (s.rows.find? (·.event.id = other)).map fun r =>
        if r.isClaimed id then r.settle now status else r := by
  simp only [settle, List.find?_map]
  congr 1
  apply congrArg (fun p => s.rows.find? p)
  funext r
  simp only [Function.comp_apply]
  split <;> rfl

theorem statusOf_settle_other {other : Int} (apart : id ≠ other) (now : Timestamp)
    (status : Status) : (s.settle now id status).2.statusOf other = s.statusOf other := by
  simp only [statusOf, get?, find_settle]
  cases found : s.rows.find? (·.event.id = other) with
  | none => rfl
  | some r =>
    have same : r.event.id = other := by simpa using List.find?_some found
    have notClaimed : r.isClaimed id = false := by
      simp [Row.isClaimed, same, Ne.symm apart]
    simp [notClaimed]

theorem statusOf_settle (open_ : s.statusOf id = some .inProgress) (now : Timestamp)
    (status : Status) : (s.settle now id status).2.statusOf id = some status := by
  obtain ⟨r, found, inProgress⟩ := statusOf_eq_some.1 open_
  have same : r.event.id = id := by simpa using List.find?_some found
  have claimed : r.isClaimed id = true := by simp [Row.isClaimed, same, inProgress]
  refine statusOf_eq_some.2 ⟨r.settle now status, ?_, rfl⟩
  rw [find_settle, found, Option.map_some, if_pos claimed]

theorem statusOf_act (known : s.statusOf id = some status) (old : status ≠ .new) {a : Act}
    (foreign : ¬ a.settles id) : (s.act a).statusOf id = some status := by
  cases a with
  | persist now event => exact statusOf_persist known now event
  | claim now limit => exact statusOf_claimNew known old now limit
  | settle now other settlement =>
    have apart : other ≠ id := foreign
    exact (statusOf_settle_other apart now settlement.status).trans known

theorem statusOf_acts (known : s.statusOf id = some status) (old : status ≠ .new)
    {run : List Act} (foreign : ∀ a ∈ run, ¬ a.settles id) :
    (s.acts run).statusOf id = some status := by
  induction run generalizing s with
  | nil => exact known
  | cons a rest ih =>
    have first := statusOf_act known old (foreign a List.mem_cons_self)
    exact ih first fun b hb => foreign b (List.mem_cons_of_mem _ hb)

theorem Numbered.statusOf_of_claimNew (h : s.Numbered) {now : Timestamp} {limit : UInt64}
    {e : Event} (claimed : e ∈ (s.claimNew now limit).1) :
    (s.claimNew now limit).2.statusOf e.id = some .inProgress := by
  obtain ⟨r, mem, rfl, inProgress⟩ := mem_of_mem_claimRows claimed
  rw [← inProgress]
  exact (h.act (.claim now limit)).statusOf_of_mem mem

theorem Numbered.claimNew_nodup (h : s.Numbered) (now : Timestamp) (limit : UInt64) :
    ((s.claimNew now limit).1.map (·.id)).Nodup :=
  (claimRows_sublist now limit.toNat s.rows).nodup h.nodup

end MemoryStore

/-- The table as one client sees it. -/
structure SharedStore where
  table : MemoryStore
  turn : Nat
  others : Nat → List MemoryStore.Act

namespace SharedStore

variable {α : Type}

def found (s : SharedStore) : MemoryStore := s.table.acts (s.others s.turn)

def call (s : SharedStore) (request : MemoryStore → StoreReply MemoryStore α) :
    StoreReply SharedStore α :=
  let reply := request s.found
  ⟨reply.result, { s with table := reply.store, turn := s.turn + 1 }, reply.journal⟩

instance : Outbox SharedStore where
  persist s now e := s.call (Outbox.persist · now e)
  claimNew s now limit := s.call (Outbox.claimNew · now limit)
  settlePublished s now id := s.call (Outbox.settlePublished · now id)
  settleFailed s now id reason := s.call (Outbox.settleFailed · now id reason)
  stats s now := s.call (Outbox.stats · now)
  staleClaims s now olderThan := s.call (Outbox.staleClaims · now olderThan)

end SharedStore

end OutboxRelay
