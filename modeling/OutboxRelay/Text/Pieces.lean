/-! The pieces of a text between separators. There is one more piece than there are separators,
no piece holds a separator, and joining the pieces gives the text back. -/

namespace OutboxRelay.Text

def pieces (isSeparator : Char → Bool) : List Char → List (List Char)
  | [] => [[]]
  | c :: rest =>
    if isSeparator c then [] :: pieces isSeparator rest
    else match pieces isSeparator rest with
      | [] => [[c]]
      | piece :: more => (c :: piece) :: more

def splitAt (separator : Char) (cs : List Char) : List (List Char) := pieces (· = separator) cs

variable {isSeparator : Char → Bool}

theorem pieces_ne_nil (cs : List Char) : pieces isSeparator cs ≠ [] := by
  cases cs with
  | nil => simp [pieces]
  | cons c rest => simp only [pieces]; split <;> (try split) <;> simp

theorem not_separator_of_mem_pieces {cs piece : List Char} (h : piece ∈ pieces isSeparator cs) :
    ∀ c ∈ piece, isSeparator c = false := by
  induction cs generalizing piece with
  | nil => simp [pieces] at h; simp [h]
  | cons c rest ih =>
    simp only [pieces] at h
    split at h
    · rcases List.mem_cons.1 h with rfl | h
      · simp
      · exact ih h
    · next hc =>
      split at h
      · next hn => exact absurd hn (pieces_ne_nil rest)
      · next first more hp =>
        rcases List.mem_cons.1 h with rfl | h
        · intro d hd
          rcases List.mem_cons.1 hd with rfl | hd
          · simpa using hc
          · exact ih (hp ▸ List.mem_cons_self) d hd
        · exact ih (hp ▸ List.mem_cons_of_mem _ h)

theorem pieces_of_not_separator {cs : List Char} (none : ∀ c ∈ cs, isSeparator c = false) :
    pieces isSeparator cs = [cs] := by
  induction cs with
  | nil => rfl
  | cons c rest ih =>
    obtain ⟨first, rest_none⟩ := List.forall_mem_cons.1 none
    simp [pieces, first, ih rest_none]

theorem pieces_append_separator {s : Char} (separates : isSeparator s = true)
    (before after : List Char) :
    pieces isSeparator (before ++ s :: after) =
      pieces isSeparator before ++ pieces isSeparator after := by
  induction before with
  | nil => simp [pieces, separates]
  | cons c rest ih =>
    simp only [List.cons_append, pieces, ih]
    split
    · rfl
    · cases h : pieces isSeparator rest with
      | nil => exact absurd h (pieces_ne_nil rest)
      | cons piece more => rfl

theorem splitAt_eq_splitOn (separator : Char) (cs : List Char) :
    splitAt separator cs = cs.splitOn separator := by
  unfold splitAt List.splitOn
  induction cs with
  | nil => rfl
  | cons c rest ih =>
    rw [pieces, List.splitOnP_cons_eq_if_modifyHead, ← ih]
    by_cases here : c = separator
    · simp [here]
    · cases more : pieces (· = separator) rest with
      | nil => exact absurd more (pieces_ne_nil rest)
      | cons piece others => simp [here]

/-- A text is cut into parts that hold no separator if and only if it is those parts, joined. -/
theorem splitAt_eq_iff {separator : Char} {cs : List Char} {parts : List (List Char)}
    (nonempty : parts ≠ []) (apart : ∀ part ∈ parts, separator ∉ part) :
    splitAt separator cs = parts ↔ cs = [separator].intercalate parts := by
  rw [splitAt_eq_splitOn]
  constructor
  · rintro rfl
    exact (List.intercalate_splitOn separator).symm
  · rintro rfl
    exact List.splitOn_intercalate separator apart nonempty

end OutboxRelay.Text
