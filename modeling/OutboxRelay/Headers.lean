/-! Maps from text to text, carried next to every payload.
The entries are kept in ascending order of their keys, so two maps with the same entries are equal
and their text does not depend on how they were built. -/

namespace OutboxRelay

def putEntry (key value : String) : List (String × String) → List (String × String)
  | [] => [(key, value)]
  | (k, v) :: rest =>
    if key < k then (key, value) :: (k, v) :: rest
    else if key = k then (key, value) :: rest
    else (k, v) :: putEntry key value rest

theorem mem_putEntry {key value : String} {entries : List (String × String)}
    {e : String × String} (h : e ∈ putEntry key value entries) :
    e = (key, value) ∨ e ∈ entries := by
  induction entries with
  | nil => simpa [putEntry] using h
  | cons head rest ih =>
    simp only [putEntry] at h
    split at h
    · simpa using h
    · split at h
      · rcases List.mem_cons.1 h with h | h
        · exact .inl h
        · exact .inr (List.mem_cons_of_mem _ h)
      · rcases List.mem_cons.1 h with h | h
        · exact .inr (h ▸ List.mem_cons_self)
        · rcases ih h with h | h
          · exact .inl h
          · exact .inr (List.mem_cons_of_mem _ h)

theorem sorted_putEntry (key value : String) {entries : List (String × String)}
    (h : entries.Pairwise (·.1 < ·.1)) :
    (putEntry key value entries).Pairwise (·.1 < ·.1) := by
  induction entries with
  | nil => simp [putEntry]
  | cons head rest ih =>
    obtain ⟨first, rest_sorted⟩ := List.pairwise_cons.1 h
    simp only [putEntry]
    split
    case isTrue lt =>
      refine List.pairwise_cons.2 ⟨fun e he => ?_, h⟩
      rcases List.mem_cons.1 he with he | he
      · exact he ▸ lt
      · exact String.lt_trans lt (first e he)
    case isFalse not_lt =>
      split
      case isTrue eq => exact List.pairwise_cons.2 ⟨fun e he => eq ▸ first e he, rest_sorted⟩
      case isFalse ne =>
        refine List.pairwise_cons.2 ⟨fun e he => ?_, ih rest_sorted⟩
        rcases mem_putEntry he with he | he
        · subst he
          exact String.not_le.1 fun le => ne (String.le_antisymm le (String.not_lt.1 not_lt))
        · exact first e he

structure Headers where
  entries : List (String × String)
  sorted : entries.Pairwise (·.1 < ·.1)
deriving DecidableEq

namespace Headers

def empty : Headers := ⟨[], .nil⟩

def get? (h : Headers) (key : String) : Option String := h.entries.lookup key

def insert (h : Headers) (key value : String) : Headers :=
  ⟨putEntry key value h.entries, sorted_putEntry key value h.sorted⟩

def erase (h : Headers) (key : String) : Headers :=
  ⟨h.entries.filter (·.1 ≠ key), h.sorted.filter _⟩

def ofList (entries : List (String × String)) : Headers :=
  entries.foldl (fun h (k, v) => h.insert k v) empty

def insertNew (h : Headers) (key value : String) : Headers :=
  if (h.get? key).isSome then h else h.insert key value

def keys (h : Headers) : List String := h.entries.map (·.1)

def size (h : Headers) : Nat := h.entries.length

@[simp] theorem get?_empty (key : String) : empty.get? key = none := rfl

theorem lookup_cons_eq (k k' v : String) (rest : List (String × String)) :
    ((k', v) :: rest).lookup k = if k = k' then some v else rest.lookup k := by
  by_cases h : k = k'
  · simp [h]
  · rw [List.lookup_cons, beq_eq_false_iff_ne.2 h, if_neg h]

theorem get?_insert (h : Headers) (key value k : String) :
    (h.insert key value).get? k = if k = key then some value else h.get? k := by
  obtain ⟨entries, sorted⟩ := h
  simp only [get?, insert]
  clear sorted
  induction entries with
  | nil => simp [putEntry]
  | cons head rest ih =>
    obtain ⟨k', v'⟩ := head
    simp only [putEntry]
    split
    · rw [lookup_cons_eq]
    · split
      · next eq => subst eq; by_cases hk : k = key <;> simp [lookup_cons_eq, hk]
      · next ne =>
        simp only [lookup_cons_eq, ih]
        by_cases hk : k = k' <;> by_cases hk' : k = key <;> simp_all

theorem get?_erase (h : Headers) (key k : String) :
    (h.erase key).get? k = if k = key then none else h.get? k := by
  obtain ⟨entries, sorted⟩ := h
  simp only [get?, erase]
  clear sorted
  induction entries with
  | nil => simp
  | cons head rest ih =>
    obtain ⟨k', v'⟩ := head
    by_cases hk' : k' = key
    · subst hk'
      simp only [List.filter_cons, ne_eq, not_true, decide_false, Bool.false_eq_true, if_false,
        ih, lookup_cons_eq]
      by_cases hk : k = k' <;> simp [hk]
    · simp only [List.filter_cons, ne_eq, hk', not_false_eq_true, decide_true, if_true,
        lookup_cons_eq, ih]
      by_cases hk : k = k' <;> by_cases hke : k = key <;> simp_all

theorem get?_insertNew (h : Headers) (key value k : String) :
    (h.insertNew key value).get? k =
      if k = key then some ((h.get? key).getD value) else h.get? k := by
  unfold insertNew
  cases hg : h.get? key with
  | none => simp [get?_insert]
  | some v => by_cases hk : k = key <;> simp [hk, hg]

theorem insertNew_of_isSome {h : Headers} {key : String} (value : String)
    (hs : (h.get? key).isSome) : h.insertNew key value = h := by
  simp [insertNew, hs]

end Headers

end OutboxRelay
