import OutboxRelay.Proofs.Outgoing.Identifiers
import OutboxRelay.Outgoing

/-! The headers under which an event goes out. They are those it is stored with and six more, each
left alone where it has a value already: two that are made of drawn identifiers and four that repeat
the event's own fields. Headers that hold all six are complete, and completing them once more changes
nothing and draws nothing. -/

namespace OutboxRelay

def IdSource.skip (ids : IdSource) (count : Nat) : IdSource :=
  { ids with used := ids.used + count }

theorem IdSource.skip_skip (ids : IdSource) (m n : Nat) :
    (ids.skip m).skip n = ids.skip (m + n) := by
  simp [skip, Nat.add_assoc]

namespace Headers

theorem get?_insertNew_eq_or (h : Headers) (key value k : String) :
    (h.insertNew key value).get? k = (h.get? k).or ([(key, value)].lookup k) := by
  rw [get?_insertNew, lookup_cons_eq]
  split
  · rename_i same
    subst same
    cases h.get? k <;> rfl
  · exact Option.or_none.symm

theorem get?_foldl_insertNew (h : Headers) (entries : List (String × String)) (k : String) :
    (entries.foldl (fun h (key, value) => h.insertNew key value) h).get? k =
      (h.get? k).or (entries.lookup k) := by
  induction entries generalizing h with
  | nil => exact Option.or_none.symm
  | cons entry rest ih =>
    rw [List.foldl_cons, ih, get?_insertNew_eq_or, Option.or_assoc, ← List.lookup_append]
    rfl

theorem foldl_insertNew_of_isSome {h : Headers} {entries : List (String × String)}
    (present : ∀ entry ∈ entries, (h.get? entry.1).isSome) :
    entries.foldl (fun h (key, value) => h.insertNew key value) h = h := by
  induction entries with
  | nil => rfl
  | cons entry rest ih =>
    obtain ⟨first, others⟩ := List.forall_mem_cons.1 present
    calc rest.foldl (fun h (key, value) => h.insertNew key value) (h.insertNew entry.1 entry.2)
        = rest.foldl (fun h (key, value) => h.insertNew key value) h := by
          rw [insertNew_of_isSome _ first]
      _ = h := ih others

theorem isSome_lookup_iff (entries : List (String × String)) (key : String) :
    (entries.lookup key).isSome ↔ key ∈ entries.map (·.1) := by
  induction entries with
  | nil => simp
  | cons entry rest ih =>
    rw [lookup_cons_eq, List.map_cons, List.mem_cons, ← ih]
    by_cases here : key = entry.1
    · simp [here]
    · simp [here]

theorem lookup_of_mem {entries : List (String × String)} (distinct : (entries.map (·.1)).Nodup)
    {key value : String} (member : (key, value) ∈ entries) : entries.lookup key = some value := by
  induction entries with
  | nil => cases member
  | cons entry rest ih =>
    obtain ⟨own, others⟩ := List.nodup_cons.1 distinct
    rw [lookup_cons_eq]
    rcases List.mem_cons.1 member with first | later
    · rw [← first, if_pos rfl]
    · have known : key ∈ rest.map (·.1) := List.mem_map_of_mem (f := (·.1)) later
      have other : key ≠ entry.1 := ne_of_mem_of_not_mem known own
      rw [if_neg other, ih others later]

theorem isSome_get?_iff (h : Headers) (key : String) : (h.get? key).isSome ↔ key ∈ h.keys :=
  isSome_lookup_iff ..

end Headers

namespace Outgoing

variable (h : Headers) (e : Event) (ids : IdSource)

def correlationDraws : Nat := if (h.get? correlationIdKey).isSome then 0 else 1

def contextDraws : Nat := if (h.get? traceparentKey).isSome then 0 else 2

theorem withCorrelationId_eq : withCorrelationId h ids =
    (h.insertNew correlationIdKey (ids.draws ids.used).hyphenated,
      ids.skip (correlationDraws h)) := by
  unfold withCorrelationId correlationDraws Headers.insertNew
  split <;> rfl

theorem withTraceContext_eq : withTraceContext h ids =
    (h.insertNew traceparentKey
        (Traceparent.ofUuids (ids.draws ids.used) (ids.draws (ids.used + 1))),
      ids.skip (contextDraws h)) := by
  unfold withTraceContext contextDraws Headers.insertNew
  split <;> rfl

/-- The headers that an event gets beside those it is stored with. -/
def added : List (String × String) :=
  let later := ids.skip (correlationDraws e.headers)
  [(correlationIdKey, (ids.draws ids.used).hyphenated),
    (traceparentKey, Traceparent.ofUuids (later.draws later.used) (later.draws (later.used + 1)))]
    ++ metadata e

theorem headers_eq : headers e ids =
    ((added e ids).foldl (fun h (key, value) => h.insertNew key value) e.headers,
      ids.skip (correlationDraws e.headers + contextDraws e.headers)) := by
  have same : contextDraws (e.headers.insertNew correlationIdKey
      (ids.draws ids.used).hyphenated) = contextDraws e.headers := by
    unfold contextDraws
    rw [Headers.get?_insertNew, if_neg (show traceparentKey ≠ correlationIdKey by decide)]
  unfold headers complete
  rw [withCorrelationId_eq]
  dsimp only
  rw [withTraceContext_eq, IdSource.skip_skip, same, added, List.foldl_append]
  rfl

theorem get?_headers (key : String) :
    (headers e ids).1.get? key = (e.headers.get? key).or ((added e ids).lookup key) := by
  rw [headers_eq, Headers.get?_foldl_insertNew]

def addedKeys : List String :=
  [correlationIdKey, traceparentKey, eventIdKey, eventTypeKey, aggregateTypeKey, aggregateIdKey]

theorem map_fst_added : (added e ids).map (·.1) = addedKeys := rfl

theorem lookup_added_of_mem {e : Event} {ids : IdSource} {key value : String}
    (member : (key, value) ∈ added e ids) : (added e ids).lookup key = some value := by
  refine Headers.lookup_of_mem ?_ member
  rw [map_fst_added]
  decide

theorem mem_keys_headers (key : String) :
    key ∈ (headers e ids).1.keys ↔ key ∈ e.headers.keys ∨ key ∈ addedKeys := by
  rw [← Headers.isSome_get?_iff, get?_headers, Option.isSome_or, Bool.or_eq_true,
    Headers.isSome_get?_iff, Headers.isSome_lookup_iff, map_fst_added]

theorem headers_of_complete {h : Headers} (complete : ∀ key ∈ addedKeys, key ∈ h.keys) :
    headers { e with headers := h } ids = (h, ids) := by
  have present (key : String) (member : key ∈ addedKeys) : (h.get? key).isSome :=
    (Headers.isSome_get?_iff ..).2 (complete key member)
  have noDraws : correlationDraws h + contextDraws h = 0 := by
    unfold correlationDraws contextDraws
    rw [if_pos (present _ (by decide)), if_pos (present _ (by decide))]
  rw [headers_eq, noDraws, Headers.foldl_insertNew_of_isSome fun entry member =>
    present entry.1 (List.mem_map_of_mem (f := (·.1)) member)]
  rfl

end Outgoing

/-- Headers that complete those of an event. -/
structure Event.Completed (e : Event) (h : Headers) : Prop where
  keys : ∀ key, key ∈ h.keys ↔ key ∈ e.headers.keys ∨
    key ∈ ["correlationId", "traceparent", "eventId", "eventType", "aggregateType", "aggregateId"]
  stored : ∀ key value, e.headers.get? key = some value → h.get? key = some value
  correlationId : "correlationId" ∉ e.headers.keys →
    ∃ id, h.get? "correlationId" = some id ∧ Uuid.isHyphenated id
  traceparent : "traceparent" ∉ e.headers.keys →
    ∃ head, h.get? "traceparent" = some (head ++ "-01") ∧ Traceparent.isValid (head ++ "-01")
  eventId : "eventId" ∉ e.headers.keys → h.get? "eventId" = some (toString e.id)
  eventType : "eventType" ∉ e.headers.keys → h.get? "eventType" = some e.eventType
  aggregateType : "aggregateType" ∉ e.headers.keys → h.get? "aggregateType" = some e.aggregateType
  aggregateId : "aggregateId" ∉ e.headers.keys → h.get? "aggregateId" = some e.aggregateId

namespace Outgoing

theorem get?_headers_of_added {e : Event} (ids : IdSource) {key value : String}
    (missing : key ∉ e.headers.keys) (member : (key, value) ∈ added e ids) :
    (headers e ids).1.get? key = some value := by
  have none : e.headers.get? key = none :=
    Option.not_isSome_iff_eq_none.1 (mt (Headers.isSome_get?_iff ..).1 missing)
  rw [get?_headers, none, Option.none_or, lookup_added_of_mem member]

theorem completed_headers (e : Event) (ids : IdSource) : e.Completed (headers e ids).1 where
  keys := mem_keys_headers e ids
  stored key value known := by rw [get?_headers, known, Option.some_or]
  correlationId missing :=
    ⟨_, get?_headers_of_added ids missing (.head _), Uuid.isHyphenated_hyphenated _⟩
  traceparent missing := by
    have known := get?_headers_of_added ids missing (.tail _ (.head _))
    obtain ⟨head, same⟩ := Traceparent.exists_ofUuids_eq _ _
    exact ⟨head, known.trans (congrArg some same), same ▸ Traceparent.isValid_ofUuids ..⟩
  eventId missing := get?_headers_of_added ids missing (.tail _ (.tail _ (.head _)))
  eventType missing := get?_headers_of_added ids missing (.tail _ (.tail _ (.tail _ (.head _))))
  aggregateType missing :=
    get?_headers_of_added ids missing (.tail _ (.tail _ (.tail _ (.tail _ (.head _)))))
  aggregateId missing :=
    get?_headers_of_added ids missing (.tail _ (.tail _ (.tail _ (.tail _ (.tail _ (.head _))))))

/-- An event goes out under the headers it is stored with, completed by a correlation id, a trace
context and its own fields. Under headers that were completed before, whatever was drawn for them,
it goes out as it is. -/
theorem headers_completed_once (e : Event) (ids more : IdSource) :
    let h := (headers e ids).1
    e.Completed h ∧ headers { e with headers := h } more = (h, more) := by
  have complete : ∀ key ∈ addedKeys, key ∈ (headers e ids).1.keys := fun key member =>
    (mem_keys_headers e ids key).2 (.inr member)
  exact ⟨completed_headers e ids, headers_of_complete e more complete⟩

end Outgoing

end OutboxRelay
