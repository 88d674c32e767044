/-! Blank characters and the trimming of them at both ends of a text.
The class is the Unicode property White_Space: 25 characters, fixed since Unicode 6.3. -/

namespace OutboxRelay.Text

/-- Inclusive ranges of code points with the property White_Space, in ascending order. -/
def blankRanges : List (Nat × Nat) :=
  [(0x09, 0x0D), (0x20, 0x20), (0x85, 0x85), (0xA0, 0xA0), (0x1680, 0x1680), (0x2000, 0x200A),
   (0x2028, 0x2029), (0x202F, 0x202F), (0x205F, 0x205F), (0x3000, 0x3000)]

def isBlank (c : Char) : Bool :=
  blankRanges.any fun (lo, hi) => lo ≤ c.toNat && c.toNat ≤ hi

example : blankRanges.foldl (fun count (lo, hi) => count + (hi + 1 - lo)) 0 = 25 := by decide

def trimBlanks (cs : List Char) : List Char :=
  ((cs.dropWhile isBlank).reverse.dropWhile isBlank).reverse

theorem exists_blanks_around_trimBlanks (cs : List Char) :
    ∃ before after, cs = before ++ trimBlanks cs ++ after ∧
      (∀ c ∈ before, isBlank c) ∧ ∀ c ∈ after, isBlank c := by
  have blank {cs : List Char} : ∀ c ∈ cs.takeWhile isBlank, isBlank c := fun c member =>
    List.all_eq_true.1 (List.all_takeWhile ..) c member
  let rest := (cs.dropWhile isBlank).reverse
  refine ⟨cs.takeWhile isBlank, (rest.takeWhile isBlank).reverse, ?_, blank,
    fun c member => blank c (List.mem_reverse.1 member)⟩
  rw [List.append_assoc, trimBlanks, ← List.reverse_append, List.takeWhile_append_dropWhile,
    List.reverse_reverse, List.takeWhile_append_dropWhile]

theorem trimBlanks_append {before after : List Char} (word : List Char)
    (blankBefore : ∀ c ∈ before, isBlank c) (blankAfter : ∀ c ∈ after, isBlank c) :
    trimBlanks (before ++ word ++ after) = trimBlanks word := by
  have nothing : (after ++ []).dropWhile isBlank = [] := List.dropWhile_append_of_pos blankAfter
  rw [List.append_nil] at nothing
  unfold trimBlanks
  rw [List.append_assoc, List.dropWhile_append_of_pos blankBefore, List.dropWhile_append]
  split
  · rename_i empty
    rw [List.isEmpty_iff.1 empty, nothing]
  · rw [List.reverse_append,
      List.dropWhile_append_of_pos fun c member => blankAfter c (List.mem_reverse.1 member)]

theorem trimBlanks_eq_self {word : List Char} (none_blank : ∀ c ∈ word, ¬ isBlank c) :
    trimBlanks word = word := by
  obtain ⟨before, after, whole, blankBefore, blankAfter⟩ := exists_blanks_around_trimBlanks word
  have nothing_before : before = [] := List.eq_nil_iff_forall_not_mem.2 fun c member =>
    none_blank c (by rw [whole]; simp [member]) (blankBefore c member)
  have nothing_after : after = [] := List.eq_nil_iff_forall_not_mem.2 fun c member =>
    none_blank c (by rw [whole]; simp [member]) (blankAfter c member)
  rw [nothing_before, nothing_after, List.append_nil, List.nil_append] at whole
  exact whole.symm

theorem toLower_of_isBlank {c : Char} (blank : isBlank c) : c.toLower = c := by
  simp only [isBlank, blankRanges, List.any_cons, List.any_nil, Bool.or_eq_true,
    Bool.and_eq_true, decide_eq_true_eq, Bool.or_false] at blank
  unfold Char.toLower
  rw [dif_neg]
  rintro ⟨above, below⟩
  have above : 65 ≤ c.toNat := above
  have below : c.toNat ≤ 90 := below
  omega

def trim (s : String) : String := String.ofList (trimBlanks s.toList)

def isBlankText (s : String) : Bool := s.toList.all isBlank

def lowerAscii (s : String) : String := String.ofList (s.toList.map Char.toLower)

end OutboxRelay.Text
