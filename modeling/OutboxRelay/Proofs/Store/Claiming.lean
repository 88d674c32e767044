import OutboxRelay.Proofs.Store.SharedTable

/-! What claims take from the table in memory, whoever makes them. A claim takes the new rows with
the lowest ids, as many as it may, and leaves all others alone. Over a whole run of calls, by any
number of clients in any order, the ids that claims have returned and those of the rows that are
still new are the ids that were handed out, each of them once. -/

namespace OutboxRelay.MemoryStore

def newRows (s : MemoryStore) : List Row := s.rows.filter (·.event.status = .new)

def newIds (s : MemoryStore) : List Int := s.newRows.map (·.event.id)

section Claim

variable {now : Timestamp} {limit : Nat} {rows : List Row}

theorem claimRows_events (now : Timestamp) (limit : Nat) (rows : List Row) :
    (claimRows now limit rows).1 =
      ((rows.filter (·.event.status = .new)).take limit).map fun r => (r.claim now).event := by
  fun_induction claimRows now limit rows with
  | case1 rows => rfl
  | case2 limit => rfl
  | case3 limit r rest new events rest' eq ih =>
    rw [eq] at ih
    rw [List.filter_cons_of_pos (by simpa using new), List.take_succ_cons, List.map_cons, ← ih]
  | case4 limit r rest old events rest' eq ih =>
    rw [eq] at ih
    rw [List.filter_cons_of_neg (by simpa using old), ← ih]

theorem claimRows_left (now : Timestamp) (limit : Nat) (rows : List Row) :
    (claimRows now limit rows).2.filter (·.event.status = .new) =
      (rows.filter (·.event.status = .new)).drop limit := by
  fun_induction claimRows now limit rows with
  | case1 rows => rfl
  | case2 limit => rfl
  | case3 limit r rest new events rest' eq ih =>
    rw [eq] at ih
    have claimed : ¬ (r.claim now).event.status = .new := by simp [Row.claim]
    rw [List.filter_cons_of_neg (by simpa using claimed), ih,
      List.filter_cons_of_pos (by simpa using new), List.drop_succ_cons]
  | case4 limit r rest old events rest' eq ih =>
    rw [eq] at ih
    rw [List.filter_cons_of_neg (by simpa using old), ih,
      List.filter_cons_of_neg (by simpa using old)]

theorem claimRows_rows (now : Timestamp) (limit : Nat)
    (distinct : (rows.map (·.event.id)).Nodup) :
    (claimRows now limit rows).2 = rows.map fun r =>
      if r.event.id ∈ (claimRows now limit rows).1.map (·.id) then r.claim now else r := by
  fun_induction claimRows now limit rows with
  | case1 rows => simp
  | case2 limit => rfl
  | case3 limit r rest new events rest' eq ih =>
    rw [List.map_cons, List.nodup_cons] at distinct
    have tail := ih distinct.2
    rw [eq] at tail
    have same : (r.claim now).event.id = r.event.id := rfl
    rw [List.map_cons, List.map_cons, same, if_pos List.mem_cons_self]
    refine congrArg (r.claim now :: ·) (tail.trans (List.map_congr_left fun r' mem => ?_))
    have other : r'.event.id ≠ r.event.id := fun same =>
      distinct.1 (same ▸ List.mem_map_of_mem mem)
    simp only [List.mem_cons, other, false_or]
  | case4 limit r rest old events rest' eq ih =>
    rw [List.map_cons, List.nodup_cons] at distinct
    have tail := ih distinct.2
    have part := (claimRows_sublist now (limit + 1) rest).subset
    rw [eq] at tail part
    have absent : r.event.id ∉ events.map (·.id) := fun mem => distinct.1 (part mem)
    rw [List.map_cons, if_neg absent]
    exact congrArg _ tail

end Claim

variable {s : MemoryStore}

theorem Numbered.ascending (h : s.Numbered) : (s.rows.map (·.event.id)).Pairwise (· < ·) := by
  rw [h, List.pairwise_map]
  exact List.pairwise_lt_range.imp fun lt => by omega

theorem Numbered.newIds_ascending (h : s.Numbered) : s.newIds.Pairwise (· < ·) :=
  h.ascending.sublist (List.filter_sublist.map _)

/-- The events that a claim takes and the table after it. -/
structure TakesLowest (s : MemoryStore) (now : Timestamp) (limit : Nat) (claimed : List Event)
    (after : MemoryStore) : Prop where
  events : claimed = (s.newRows.take limit).map fun r => (r.claim now).event
  count : claimed.length = min limit s.newRows.length
  ascending : (claimed.map (·.id)).Pairwise (· < ·)
  lowest : ∀ r ∈ s.newRows, r.event.id ∉ claimed.map (·.id) → ∀ e ∈ claimed, e.id < r.event.id
  moved : after = { s with rows := s.rows.map fun r =>
    if r.event.id ∈ claimed.map (·.id) then r.claim now else r }

theorem claimNew_ids (s : MemoryStore) (now : Timestamp) (limit : UInt64) :
    (s.claimNew now limit).1.map (·.id) = s.newIds.take limit.toNat := by
  simp only [claimNew, claimRows_events, List.map_map, newIds, newRows, ← List.map_take]
  rfl

theorem newIds_claimNew (s : MemoryStore) (now : Timestamp) (limit : UInt64) :
    (s.claimNew now limit).2.newIds = s.newIds.drop limit.toNat := by
  simp only [claimNew, newIds, newRows, claimRows_left, List.map_drop]

theorem Numbered.takesLowest (h : s.Numbered) (now : Timestamp) (limit : UInt64) :
    TakesLowest s now limit.toNat (s.claimNew now limit).1 (s.claimNew now limit).2 := by
  have ids := claimNew_ids s now limit
  have whole : (s.newIds.take limit.toNat ++ s.newIds.drop limit.toNat).Pairwise (· < ·) := by
    rw [List.take_append_drop]
    exact h.newIds_ascending
  obtain ⟨taken, _, below⟩ := List.pairwise_append.1 whole
  refine ⟨claimRows_events .., ?_, ids ▸ taken, fun r mem left e claimed => ?_, ?_⟩
  · rw [← List.length_map (·.id), ids, List.length_take, newIds, List.length_map]
  · rw [ids] at left
    have new : r.event.id ∈ s.newIds.take limit.toNat ++ s.newIds.drop limit.toNat := by
      rw [List.take_append_drop]
      exact List.mem_map_of_mem mem
    have later := (List.mem_append.1 new).resolve_left left
    have first : e.id ∈ s.newIds.take limit.toNat := ids ▸ List.mem_map_of_mem claimed
    exact below e.id first r.event.id later
  · exact congrArg (MemoryStore.mk s.lastId) (claimRows_rows now limit.toNat h.nodup)

/-! ### Runs -/

def Act.persisted (s : MemoryStore) : Act → List Int
  | .persist now event => [(s.persist now event).1]
  | _ => []

def Act.claimed (s : MemoryStore) : Act → List Int
  | .claim now limit => (s.claimNew now limit).1.map (·.id)
  | _ => []

def persistedIds (s : MemoryStore) : List Act → List Int
  | [] => []
  | a :: rest => a.persisted s ++ (s.act a).persistedIds rest

def claimedIds (s : MemoryStore) : List Act → List Int
  | [] => []
  | a :: rest => a.claimed s ++ (s.act a).claimedIds rest

theorem newIds_settle (s : MemoryStore) (now : Timestamp) (id : Int) (settlement : Settlement) :
    (s.settle now id settlement.status).2.newIds = s.newIds := by
  simp only [newIds, newRows, settle]
  induction s.rows with
  | nil => rfl
  | cons r rest ih =>
    rw [List.map_cons]
    by_cases claimed : r.isClaimed id
    · have old : ¬ r.event.status = .new := by
        simp only [Row.isClaimed, Bool.and_eq_true, decide_eq_true_eq] at claimed
        rw [claimed.2]
        decide
      have settled : ¬ (r.settle now settlement.status).event.status = .new := by
        cases settlement <;> simp [Row.settle, Settlement.status]
      rw [if_pos claimed, List.filter_cons_of_neg (by simpa using settled),
        List.filter_cons_of_neg (by simpa using old)]
      exact ih
    · rw [if_neg claimed]
      by_cases new : r.event.status = .new
      · rw [List.filter_cons_of_pos (by simpa using new), List.map_cons, ih,
          List.filter_cons_of_pos (by simpa using new), List.map_cons]
      · rw [List.filter_cons_of_neg (by simpa using new), ih,
          List.filter_cons_of_neg (by simpa using new)]

theorem claimed_append_newIds_act (s : MemoryStore) (a : Act) :
    a.claimed s ++ (s.act a).newIds = s.newIds ++ a.persisted s := by
  cases a with
  | persist now event =>
    have fresh : (Row.ofNew ((s.lastId : Int) + 1) now event).event.status = .new := rfl
    simp only [Act.claimed, Act.persisted, act, MemoryStore.persist, newIds, newRows,
      List.filter_append, List.map_append, List.nil_append]
    rw [List.filter_cons_of_pos (by simpa using fresh)]
    rfl
  | claim now limit =>
    simp only [Act.claimed, Act.persisted, act, claimNew_ids, newIds_claimNew, List.append_nil]
    exact List.take_append_drop ..
  | settle now id settlement =>
    simp only [Act.claimed, Act.persisted, act, newIds_settle, List.nil_append, List.append_nil]

theorem claimedIds_append_newIds (s : MemoryStore) (run : List Act) :
    (s.claimedIds run ++ (s.acts run).newIds).Perm (s.newIds ++ s.persistedIds run) := by
  induction run generalizing s with
  | nil => exact (List.append_nil _).symm ▸ .refl _
  | cons a rest ih =>
    have later := (ih (s.act a)).append_left (a.claimed s)
    rw [← List.append_assoc, ← List.append_assoc (a.claimed s), claimed_append_newIds_act,
      List.append_assoc s.newIds] at later
    exact later

theorem ids_act (s : MemoryStore) (a : Act) :
    (s.act a).rows.map (·.event.id) = s.rows.map (·.event.id) ++ a.persisted s := by
  cases a with
  | persist now event =>
    simp only [act, MemoryStore.persist, Act.persisted, List.map_append]
    rfl
  | claim now limit =>
    simp only [act, claimNew, Act.persisted, List.append_nil]
    exact claimRows_ids ..
  | settle now id settlement =>
    simp only [act, Act.persisted, List.append_nil]
    exact settle_ids ..

theorem ids_acts (s : MemoryStore) (run : List Act) :
    (s.acts run).rows.map (·.event.id) = s.rows.map (·.event.id) ++ s.persistedIds run := by
  induction run generalizing s with
  | nil => exact (List.append_nil _).symm
  | cons a rest ih =>
    have later := ih (s.act a)
    rw [ids_act, List.append_assoc] at later
    exact later

/-- After any calls of any clients: a claim takes the lowest new rows and nothing else, no id was
ever returned twice, and the returned ids and those of the rows that are still new are the ids that
were handed out. -/
theorem claims_share_out (run : List Act) :
    (∀ now limit, ∃ claimed after,
      Outbox.claimNew (empty.acts run) now limit = ⟨.ok claimed, after, []⟩ ∧
      TakesLowest (empty.acts run) now limit.toNat claimed after) ∧
    (empty.claimedIds run ++ (empty.acts run).newIds).Nodup ∧
    (empty.claimedIds run ++ (empty.acts run).newIds).Perm (empty.persistedIds run) := by
  have numbered := numbered_empty.acts run
  have shared : (empty.claimedIds run ++ (empty.acts run).newIds).Perm (empty.persistedIds run) :=
    claimedIds_append_newIds empty run
  have handedOut : (empty.acts run).rows.map (·.event.id) = empty.persistedIds run :=
    ids_acts empty run
  refine ⟨fun now limit => ⟨_, _, rfl, numbered.takesLowest now limit⟩, ?_, shared⟩
  rw [shared.nodup_iff, ← handedOut]
  exact numbered.nodup

end OutboxRelay.MemoryStore
