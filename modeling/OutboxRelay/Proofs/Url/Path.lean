import Mathlib.Data.List.Induction
import OutboxRelay.Proofs.Url.Percent
import OutboxRelay.Proofs.Url.Reading

/-! Where the end of a path goes. Segments of dots are followed one by one, so what stands before
the last piece of a text settles nothing about it: the last segment is that piece, escaped, or it is
empty. It gives a text back exactly if the text goes through the reading as a whole and as it is. -/

namespace OutboxRelay.Url

open Text

/-! ### Segments of dots -/

theorem toLower_cases (c : Char) :
    c.toLower = c ∨ 0x41 ≤ c.toNat ∧ c.toLower.toNat = c.toNat + 0x20 := by
  unfold Char.toLower
  split
  · rename_i upper
    have low : 'A'.val.toNat ≤ c.val.toNat := upper.1
    have high : c.val.toNat ≤ 'Z'.val.toNat := upper.2
    refine .inr ⟨low, ?_⟩
    calc (c.val + ('a'.val - 'A'.val)).toNat
        = (c.val.toNat + 0x20) % 2 ^ 32 := UInt32.toNat_add ..
      _ = c.toNat + 0x20 := Nat.mod_eq_of_lt (by change _ ≤ 0x5A at high; omega)
  · exact .inl rfl

theorem eq_of_toLower {c d : Char} (same : c.toLower = d) (low : d.toNat < 0x61) : c = d := by
  rcases toLower_cases c with unchanged | ⟨upper, value⟩
  · exact unchanged.symm.trans same
  · rw [same] at value
    omega

theorem hexValue_of_toLower {c : Char} (same : c.toLower = 'e') : hexValue c = some 14 := by
  rcases toLower_cases c with unchanged | ⟨upper, value⟩
  · rw [← unchanged, same]
    rfl
  · have : c = 'E' := by
      refine Char.toNat_inj.1 ?_
      rw [same] at value
      exact Nat.add_right_cancel value.symm
    rw [this]
    rfl

theorem unescape_of_dot {segment more : List Char}
    (dot : segment.map Char.toLower = '.' :: more ∨
      segment.map Char.toLower = '%' :: '2' :: 'e' :: more) :
    ∃ rest, rest.map Char.toLower = more ∧ unescape segment = 0x2E :: unescape rest := by
  simp only [List.map_eq_cons_iff] at dot
  rcases dot with ⟨c, rest, rfl, first, lower⟩ |
    ⟨c, tail, rfl, first, d, tail, rfl, second, e, rest, rfl, third, lower⟩
  · rw [eq_of_toLower first (by decide)]
    exact ⟨rest, lower, unescape_cons (by decide) rest⟩
  · rw [eq_of_toLower first (by decide), eq_of_toLower second (by decide)]
    exact ⟨rest, lower, unescape_escaped (x := 2) (y := 14) rfl (hexValue_of_toLower third) rest⟩

theorem unescape_of_isSingleDot {segment : List Char} (dots : isSingleDot segment = true) :
    unescape segment = utf8Chars ['.'] := by
  simp only [isSingleDot, List.contains_eq_mem, decide_eq_true_eq, List.mem_cons,
    List.not_mem_nil, or_false, ← String.toList_inj, String.toList_ofList] at dots
  obtain ⟨rest, lower, read⟩ := unescape_of_dot dots
  rw [read, List.map_eq_nil_iff.1 lower]
  rfl

theorem unescape_of_isDoubleDot {segment : List Char} (dots : isDoubleDot segment = true) :
    unescape segment = utf8Chars ['.', '.'] := by
  simp only [isDoubleDot, List.contains_eq_mem, decide_eq_true_eq, List.mem_cons,
    List.not_mem_nil, or_false, ← String.toList_inj, String.toList_ofList] at dots
  have two : ∃ more, (more = ['.'] ∨ more = ['%', '2', 'e']) ∧
      (segment.map Char.toLower = '.' :: more ∨
        segment.map Char.toLower = '%' :: '2' :: 'e' :: more) := by
    rcases dots with h | h | h | h
    · exact ⟨['.'], .inl rfl, .inl h⟩
    · exact ⟨['%', '2', 'e'], .inr rfl, .inl h⟩
    · exact ⟨['.'], .inl rfl, .inr h⟩
    · exact ⟨['%', '2', 'e'], .inr rfl, .inr h⟩
  obtain ⟨more, second, first⟩ := two
  obtain ⟨rest, lower, read⟩ := unescape_of_dot first
  obtain ⟨tail, lower, read_rest⟩ := unescape_of_dot (second.imp lower.trans lower.trans)
  rw [read, read_rest, List.map_eq_nil_iff.1 lower]
  rfl

/-! ### Following segments -/

def enter (above : List (List Char)) (segment : List Char) : List (List Char) :=
  if isDoubleDot segment then above.tail
  else if isSingleDot segment then above
  else segment :: above

def emptyEnd (segment : List Char) : List (List Char) :=
  if isDoubleDot segment || isSingleDot segment then [[]] else []

theorem followDots_cons (above : List (List Char)) (segment : List Char)
    (rest : List (List Char)) : followDots above (segment :: rest) =
      followDots ((if rest.isEmpty then emptyEnd segment else []) ++ enter above segment) rest := by
  rw [followDots, emptyEnd, enter]
  cases isDoubleDot segment <;> cases isSingleDot segment <;> cases rest <;> rfl

theorem followDots_append (above first : List (List Char)) {rest : List (List Char)}
    (more : rest ≠ []) :
    followDots above (first ++ rest) = followDots (first.foldl enter above) rest := by
  induction first generalizing above with
  | nil => rfl
  | cons segment first ih =>
    have none : (first ++ rest).isEmpty = false := by simp [more]
    rw [List.cons_append, followDots_cons, none, if_neg Bool.false_ne_true, List.nil_append, ih]
    rfl

theorem followDots_singleton (above : List (List Char)) (segment : List Char) :
    followDots above [segment] = (enter above segment).reverse ++ emptyEnd segment := by
  rw [followDots_cons, followDots, List.isEmpty_nil, if_pos rfl, List.reverse_append]
  unfold emptyEnd
  split <;> rfl

theorem followDots_concat (above first : List (List Char)) (segment : List Char) :
    ∃ others, followDots above (first ++ [segment]) =
      others ++ [if isDoubleDot segment || isSingleDot segment then [] else segment] := by
  rw [followDots_append above first (List.cons_ne_nil _ _), followDots_singleton, enter, emptyEnd]
  cases isDoubleDot segment <;> cases isSingleDot segment
  · exact ⟨(first.foldl enter above).reverse, by simp⟩
  all_goals exact ⟨_, rfl⟩

theorem followDots_eq_or (above segments : List (List Char)) :
    followDots above segments = (segments.foldl enter above).reverse ∨
      followDots above segments = (segments.foldl enter above).reverse ++ [[]] := by
  cases segments using List.reverseRecOn with
  | nil => exact .inl rfl
  | append_singleton first segment =>
    rw [followDots_append above first (List.cons_ne_nil _ _), followDots_singleton,
      List.foldl_append]
    unfold emptyEnd
    split
    · exact .inr rfl
    · exact .inl (List.append_nil _)

/-! ### The path of a special URL -/

theorem readPath_append_slash (port : Nat) {path : List Char}
    (first : ∀ s ∈ path.head?, s = '/' ∨ s = '\\') (after : List Char) : ∃ above : List (List Char),
      ((readPath (.special port) path).text = (Path.segments above.reverse).text ∨
        (readPath (.special port) path).text = (Path.segments above.reverse).text ++ ['/']) ∧
      readPath (.special port) (path ++ '/' :: after) =
        .segments (followDots above ((pieces isSlash after).map (escape Escaped.path))) := by
  cases path with
  | nil => exact ⟨[], .inr rfl, rfl⟩
  | cons s rest =>
    have slash : ∀ cs, readPath (.special port) (s :: cs) =
        .segments (followDots [] ((pieces isSlash cs).map (escape Escaped.path))) := by
      rcases first s rfl with rfl | rfl <;> exact fun _ => rfl
    have some_piece : (pieces isSlash after).map (escape Escaped.path) ≠ [] := by
      simpa using pieces_ne_nil after
    refine ⟨((pieces isSlash rest).map (escape Escaped.path)).foldl enter [], ?_, ?_⟩
    · rw [slash]
      rcases followDots_eq_or [] ((pieces isSlash rest).map (escape Escaped.path)) with same | same
      · exact .inl (by rw [same])
      · refine .inr ?_
        rw [same]
        exact List.flatMap_append
    · rw [List.cons_append, slash, pieces_append_separator rfl, List.map_append,
        followDots_append _ _ some_piece]

/-! ### The last segment -/

theorem text_append_segment (segments : List (List Char)) (segment : List Char) :
    (Path.segments (segments ++ [segment])).text =
      (Path.segments segments).text ++ '/' :: segment := by
  simp [Path.text]

theorem eq_of_append_slash {before before' last last' : List Char} (none : '/' ∉ last)
    (none' : '/' ∉ last') (same : before ++ '/' :: last = before' ++ '/' :: last') :
    before = before' ∧ last = last' := by
  have cut {before last : List Char} (none : '/' ∉ last) :
      (before ++ '/' :: last).reverse.takeWhile (· ≠ '/') = last.reverse := by
    have reversed : (before ++ '/' :: last).reverse = last.reverse ++ '/' :: before.reverse := by
      simp
    rw [reversed, takeWhile_append_stop (by simp), List.takeWhile_eq_self_iff]
    intro c member
    exact decide_eq_true fun slash => none (slash ▸ List.mem_reverse.1 member)
  have last_eq : last = last' := by
    rw [← List.reverse_inj, ← cut none, same, cut none']
  subst last_eq
  exact ⟨List.append_cancel_right same, rfl⟩

theorem slash_not_mem_escape {escaped cs : List Char} (none : '/' ∉ cs) :
    '/' ∉ escape escaped cs := by
  intro member
  rcases mem_escape member with inside | percent | ⟨n, small, digit⟩
  · exact none inside
  · exact absurd percent (by decide)
  · revert n
    decide

theorem sublist_of_mem_pieces {isSeparator : Char → Bool} {cs piece : List Char}
    (member : piece ∈ pieces isSeparator cs) : piece.Sublist cs := by
  induction cs generalizing piece with
  | nil => exact List.mem_singleton.1 member ▸ List.Sublist.refl _
  | cons c rest ih =>
    rw [pieces] at member
    split at member
    · rcases List.mem_cons.1 member with rfl | member
      · exact List.nil_sublist _
      · exact (ih member).cons c
    · split at member
      · rename_i none
        exact absurd none (pieces_ne_nil rest)
      · rename_i first more some_piece
        rw [some_piece] at ih
        rcases List.mem_cons.1 member with rfl | member
        · exact (ih List.mem_cons_self).cons_cons c
        · exact (ih (List.mem_cons_of_mem _ member)).cons c

/-- A last segment that is read from a text: a piece of it other than dots, or empty. -/
def IsLastSegment (cs last : List Char) : Prop :=
  last = [] ∨ ∃ piece ∈ pieces isSlash cs, last = escape Escaped.path piece ∧
    isDoubleDot last = false ∧ isSingleDot last = false

theorem IsLastSegment.slash_not_mem {cs last : List Char} (ends : IsLastSegment cs last) :
    '/' ∉ last := by
  rcases ends with rfl | ⟨piece, inside, rfl, -⟩
  · exact List.not_mem_nil
  · refine slash_not_mem_escape fun member => ?_
    exact absurd (not_separator_of_mem_pieces inside '/' member) (by decide)

theorem exists_last_segment (above : List (List Char)) (cs : List Char) :
    ∃ others last, followDots above ((pieces isSlash cs).map (escape Escaped.path)) =
      others ++ [last] ∧ IsLastSegment cs last := by
  obtain ⟨first, piece, split⟩ : ∃ first piece, pieces isSlash cs = first ++ [piece] := by
    simpa [pieces_ne_nil] using List.eq_nil_or_concat (pieces isSlash cs)
  obtain ⟨others, concat⟩ := followDots_concat above (first.map (escape Escaped.path))
    (escape Escaped.path piece)
  refine ⟨others, _, by rw [split, List.map_append]; exact concat, ?_⟩
  split
  · exact .inl rfl
  · rename_i noDots
    refine .inr ⟨piece, split ▸ List.mem_append_right _ List.mem_cons_self, rfl, ?_⟩
    simpa using noDots

theorem cleanEnd_sublist (cs : List Char) : (cleanEnd cs).Sublist cs := by
  have trimmed := (List.dropWhile_suffix (l := cs.reverse) isTrimmed).sublist.reverse
  rw [List.reverse_reverse] at trimmed
  exact List.filter_sublist.trans trimmed

theorem unescape_escape_path (cs : List Char) :
    unescape (escape Escaped.path cs) = unescape cs := by
  refine unescape_escape (fun c member => ?_) cs
  have plain : Escaped.path.all (fun c => hexValue c = none ∧ c ≠ '%') = true := by decide
  exact of_decide_eq_true (List.all_eq_true.1 plain c member)

/-- A text that is one segment of a path: it goes through the reading as a whole, and it holds
nothing that is undone with the escapes. -/
structure PlainSegment (cs : List Char) : Prop where
  signs : ∀ c ∈ cs, c ∉ ['/', '\\', '?', '#', '\t', '\n', '\r']
  ending : ∀ c ∈ cs.getLast?, 0x20 < c.toNat
  escapes : ¬ HasEscape cs
  dots : cs ≠ ['.'] ∧ cs ≠ ['.', '.']

namespace PlainSegment

theorem not_mem_signs_iff (c : Char) : c ∉ ['/', '\\', '?', '#', '\t', '\n', '\r'] ↔
    isSlash c = false ∧ startsTail c = false ∧ isLineBreak c = false := by
  simp [isSlash, startsTail, isLineBreak, and_assoc]

variable {cs : List Char}

theorem nil : PlainSegment [] where
  signs := by simp
  ending := by simp
  escapes := by simp [HasEscape]
  dots := by simp

theorem of_isAlphanum (letters : ∀ c ∈ cs, c.isAlphanum = true) : PlainSegment cs := by
  have absent {c : Char} (sign : c.isAlphanum = false) : c ∉ cs := fun member => by
    rw [letters c member] at sign
    cases sign
  refine ⟨fun c member sign => ?_, fun e last => ?_, not_hasEscape_of_not_mem (absent rfl), ?_, ?_⟩
  · simp only [List.mem_cons, List.not_mem_nil, or_false] at sign
    rcases sign with rfl | rfl | rfl | rfl | rfl | rfl | rfl <;> exact absent rfl member
  · have blank : ∀ n < 0x21, (Char.ofNat n).isAlphanum = false := by decide
    refine Nat.not_le.1 fun low => absent ?_ (List.mem_of_mem_getLast? last)
    have sign := blank e.toNat (Nat.lt_succ_of_le low)
    rwa [Char.ofNat_toNat] at sign
  all_goals
    rintro rfl
    exact absent rfl List.mem_cons_self

section Reading

variable (plain : PlainSegment cs)
include plain

theorem cleanEnd_eq : cleanEnd cs = cs := by
  have trimmed : cs.reverse.dropWhile isTrimmed = cs.reverse :=
    dropWhile_reverse_eq fun e last => by simpa [isTrimmed] using plain.ending e last
  rw [cleanEnd, trimmed, List.reverse_reverse, List.filter_eq_self]
  intro c member
  rw [((not_mem_signs_iff c).1 (plain.signs c member)).2.2]
  rfl

theorem startsNoTail : ∀ c ∈ cs, (!startsTail c) = true := by
  intro c member
  rw [((not_mem_signs_iff c).1 (plain.signs c member)).2.1]
  rfl

theorem pieces_eq : pieces isSlash cs = [cs] :=
  pieces_of_not_separator fun c member => ((not_mem_signs_iff c).1 (plain.signs c member)).1

theorem slash_not_mem : '/' ∉ cs := fun member => plain.signs '/' member (by simp)

theorem unescape_eq : unescape (escape Escaped.path cs) = utf8Chars cs :=
  (unescape_escape_path cs).trans (unescape_of_not_hasEscape plain.escapes)

theorem followDots_eq (above : List (List Char)) :
    followDots above [escape Escaped.path cs] = above.reverse ++ [escape Escaped.path cs] := by
  have text {other : List Char} (same : unescape (escape Escaped.path cs) = utf8Chars other) :
      cs = other := by
    rw [plain.unescape_eq] at same
    rw [← decodeUtf8_utf8Chars cs, same, decodeUtf8_utf8Chars]
  have single : isSingleDot (escape Escaped.path cs) = false :=
    Bool.eq_false_iff.2 fun dots => plain.dots.1 (text (unescape_of_isSingleDot dots))
  have double : isDoubleDot (escape Escaped.path cs) = false :=
    Bool.eq_false_iff.2 fun dots => plain.dots.2 (text (unescape_of_isDoubleDot dots))
  rw [followDots_singleton, enter, emptyEnd, single, double]
  simp

end Reading

theorem of_piece (piece : cs ∈ pieces isSlash ((cleanEnd cs).takeWhile (!startsTail ·)))
    (escapes : ¬ HasEscape cs) (dots : cs ≠ ['.'] ∧ cs ≠ ['.', '.']) : PlainSegment cs := by
  have inside := sublist_of_mem_pieces piece
  have trimmed : (cs.reverse.dropWhile isTrimmed).reverse = cs := by
    have kept := inside.trans (List.takeWhile_prefix _).sublist
    have shorter := (List.dropWhile_suffix (l := cs.reverse) isTrimmed).sublist.reverse
    rw [List.reverse_reverse] at shorter
    exact shorter.eq_of_length_le (kept.trans List.filter_sublist).length_le
  refine ⟨fun c member => ?_, fun e last => ?_, escapes, dots⟩
  · have slash := not_separator_of_mem_pieces piece c member
    have tail := List.mem_takeWhile_imp (inside.subset member)
    have lineBreak := (List.mem_filter.1
      ((List.takeWhile_prefix _).subset (inside.subset member))).2
    exact (not_mem_signs_iff c).2
      ⟨slash, by simpa using tail, by simpa using lineBreak⟩
  · have := List.head?_dropWhile_not isTrimmed cs.reverse
    rw [← List.reverse_inj, List.reverse_reverse] at trimmed
    rw [trimmed, List.head?_reverse, Option.mem_def.1 last] at this
    simpa [isTrimmed] using this

theorem of_last {last : List Char}
    (ends : IsLastSegment ((cleanEnd cs).takeWhile (!startsTail ·)) last)
    (same : unescape last = utf8Chars cs) : PlainSegment cs := by
  rcases ends with rfl | ⟨piece, member, rfl, double, single⟩
  · -- an empty segment stands for the empty text only
    have empty : cs = [] := by
      rw [← decodeUtf8_utf8Chars cs, ← same]
      rfl
    exact empty ▸ nil
  · rw [unescape_escape_path] at same
    -- undoing escapes makes nothing longer, so the piece is the whole text
    have whole : piece = cs := by
      have sublist : piece.Sublist cs := (sublist_of_mem_pieces member).trans
        ((List.takeWhile_prefix _).sublist.trans (cleanEnd_sublist cs))
      exact eq_of_sublist sublist (same ▸ length_unescape_le piece)
    subst whole
    refine of_piece member ((unescape_eq_utf8Chars_iff piece).1 same) ⟨?_, ?_⟩
    · rintro rfl
      cases single
    · rintro rfl
      cases double

end PlainSegment

end OutboxRelay.Url
