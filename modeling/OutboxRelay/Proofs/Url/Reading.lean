import Mathlib.Data.List.TakeWhile
import OutboxRelay.Url

/-! What text behind a URL does to its reading. A slash and whatever follows it leave the scheme,
the user, the host and the port of a special URL as they are, and go to its path, its query and its
fragment, if the text they are put behind ends in no blank and has no query and no fragment. -/

namespace OutboxRelay.Url

open Text

/-! ### Texts cut at a character -/

section Cut

variable {p : Char → Bool} {s : Char}

theorem takeWhile_append_stop (stop : p s = false) (before after : List Char) :
    (before ++ s :: after).takeWhile p = before.takeWhile p := by
  rw [List.takeWhile_append]
  split
  · rename_i whole
    rw [List.takeWhile_cons_of_neg (by simp [stop]), List.append_nil,
      (List.takeWhile_prefix p).eq_of_length whole]
  · rfl

theorem dropWhile_append_stop (stop : p s = false) (before after : List Char) :
    (before ++ s :: after).dropWhile p = before.dropWhile p ++ s :: after := by
  rw [List.dropWhile_append]
  split
  · rename_i empty
    rw [List.dropWhile_cons_of_neg (by simp [stop]), List.isEmpty_iff.1 empty, List.nil_append]
  · rfl

theorem dropWhile_append_of_ne_nil {before : List Char} (stops : before.dropWhile p ≠ [])
    (after : List Char) : (before ++ after).dropWhile p = before.dropWhile p ++ after := by
  rw [List.dropWhile_append, if_neg (by simpa using stops)]

theorem takeWhile_append_of_ne_nil {before : List Char} (stops : before.dropWhile p ≠ [])
    (after : List Char) : (before ++ after).takeWhile p = before.takeWhile p := by
  have whole := List.takeWhile_append_dropWhile (p := p) (l := before)
  rw [List.takeWhile_append, if_neg]
  intro same
  refine stops (List.length_eq_zero_iff.1 ?_)
  have := congrArg List.length whole
  rw [List.length_append] at this
  omega

theorem dropWhile_reverse_eq {cs : List Char} (last : ∀ e ∈ cs.getLast?, p e = false) :
    cs.reverse.dropWhile p = cs.reverse := by
  cases h : cs.reverse with
  | nil => rfl
  | cons e rest =>
    have kept : p e = false := last e (by rw [← List.head?_reverse, h]; rfl)
    exact List.dropWhile_cons_of_neg (by simp [kept])

end Cut

/-! ### Query and fragment -/

theorem readTail_nil (kind : SchemeKind) : readTail kind [] = (none, none) := rfl

theorem readTail_query_of_not_mem (kind : SchemeKind) {cs : List Char} (none : '?' ∉ cs) :
    (readTail kind (cs.dropWhile (!startsTail ·))).1 = Option.none := by
  cases h : cs.dropWhile (!startsTail ·) with
  | nil => rfl
  | cons c rest =>
    have starts : startsTail c = true := by
      have := List.head_dropWhile_not (p := (!startsTail ·)) (l := cs) (by rw [h]; simp)
      simpa [h] using this
    have member : c ∈ cs := (List.dropWhile_suffix _).subset (h ▸ List.mem_cons_self)
    have hash : c = '#' := by
      rcases Bool.or_eq_true_iff.1 starts with question | hash
      · exact absurd (of_decide_eq_true question ▸ member) none
      · exact of_decide_eq_true hash
    rw [hash]
    rfl

theorem startsTail_of_readTail {kind : SchemeKind} {cs : List Char}
    (tail : readTail kind (cs.dropWhile (!startsTail ·)) = (none, none)) :
    ∀ c ∈ cs, startsTail c = false := by
  have empty : cs.dropWhile (!startsTail ·) = [] := by
    cases h : cs.dropWhile (!startsTail ·) with
    | nil => rfl
    | cons c rest =>
      rw [h] at tail
      obtain ⟨query, fragment⟩ := Prod.mk.inj tail
      by_cases hash : c = '#'
      · simp [hash] at fragment
      · simp [hash] at query
  simpa using List.dropWhile_eq_nil_iff.1 empty

/-! ### Authority -/

theorem readAuthority_eq (scheme : String) (kind : SchemeKind) (cs : List Char) :
    readAuthority scheme kind cs =
      (readAuthority scheme kind (cs.takeWhile (!endsAuthority kind ·))).map fun u =>
        let rest := cs.dropWhile (!endsAuthority kind ·)
        let tail := readTail kind (rest.dropWhile (!startsTail ·))
        { u with path := readPath kind (rest.takeWhile (!startsTail ·)),
                 query := tail.1, fragment := tail.2 } := by
  unfold readAuthority
  rw [List.takeWhile_idem]
  simp only [bind, Except.bind, pure, Except.pure]
  split
  · rfl
  · cases readHost kind _ <;> rfl

/-! ### Scheme and query -/

/-- A URL of a scheme, with the query of an end of the text. -/
def ReadFrom (scheme : String) (kind : SchemeKind) (cs : List Char) (u : Url) : Prop :=
  u.scheme = scheme ∧
    ∃ tail, tail <:+ cs ∧ u.query = (readTail kind (tail.dropWhile (!startsTail ·))).1

theorem ReadFrom.mono {scheme : String} {kind : SchemeKind} {cs longer : List Char} {u : Url}
    (read : ReadFrom scheme kind cs u) (suffix : cs <:+ longer) :
    ReadFrom scheme kind longer u := by
  obtain ⟨same, tail, inside, query⟩ := read
  exact ⟨same, tail, inside.trans suffix, query⟩

theorem readFrom_of_readAuthority {scheme : String} {kind : SchemeKind} {cs : List Char} {u : Url}
    (ok : readAuthority scheme kind cs = .ok u) : ReadFrom scheme kind cs u := by
  have same : u.scheme = scheme := by
    unfold readAuthority at ok
    simp only [bind, Except.bind, pure, Except.pure] at ok
    split at ok
    · cases ok
    · split at ok
      · cases ok
      · cases ok
        rfl
  rw [readAuthority_eq] at ok
  cases h : readAuthority scheme kind (cs.takeWhile (!endsAuthority kind ·)) with
  | error e => rw [h] at ok; cases ok
  | ok v =>
    rw [h] at ok
    cases ok
    exact ⟨same, _, List.dropWhile_suffix _, rfl⟩

theorem readFrom_of_readFile {scheme : String} {cs : List Char} {u : Url}
    (ok : readFile scheme cs = .ok u) : ReadFrom scheme .file cs u := by
  unfold readFile at ok
  simp only [bind, Except.bind, pure, Except.pure] at ok
  split at ok
  · rename_i a b rest
    have behindHost : rest.dropWhile (!endsAuthority .file ·) <:+ a :: b :: rest :=
      (List.dropWhile_suffix _).trans (List.suffix_append [a, b] rest)
    split at ok
    · split at ok
      · cases ok
        exact ⟨rfl, _, behindHost, rfl⟩
      · split at ok
        · cases ok
        · cases ok
          exact ⟨rfl, _, behindHost, rfl⟩
    · cases ok
      exact ⟨rfl, _, List.suffix_rfl, rfl⟩
  · cases ok
    exact ⟨rfl, _, List.suffix_rfl, rfl⟩

theorem readFrom_of_readRest {scheme : String} {cs : List Char} {u : Url}
    (ok : readRest scheme cs = .ok u) : ReadFrom scheme (.ofScheme scheme) cs u := by
  unfold readRest at ok
  simp only at ok
  split at ok
  · exact (readFrom_of_readAuthority ok).mono (List.dropWhile_suffix _)
  · rename_i file
    rw [file]
    exact readFrom_of_readFile ok
  · split at ok
    · exact (readFrom_of_readAuthority ok).mono (List.suffix_append ['/', '/'] _)
    · cases ok
      exact ⟨rfl, _, List.suffix_rfl, rfl⟩
    · cases ok
      exact ⟨rfl, _, List.suffix_rfl, rfl⟩

theorem mem_of_mem_clean {c : Char} {cs : List Char} (member : c ∈ clean cs) : c ∈ cs := by
  have member := List.mem_reverse.1 (List.mem_filter.1 member).1
  have member := List.mem_reverse.1 ((List.dropWhile_suffix _).subset member)
  exact (List.dropWhile_suffix _).subset member

theorem readScheme?_suffix {scheme : String} {cs rest : List Char}
    (read : readScheme? cs = some (scheme, rest)) : rest <:+ cs := by
  unfold readScheme? at read
  split at read
  · rename_i h
    split at read
    · cases read
      exact (List.suffix_cons _ _).trans (h ▸ List.dropWhile_suffix _)
    · cases read
  · cases read

theorem query_of_parse {s : String} {u : Url} (ok : parse s = .ok u) (none : '?' ∉ s.toList) :
    u.query = Option.none := by
  unfold parse at ok
  split at ok
  · rename_i read
    obtain ⟨-, tail, inside, query⟩ := readFrom_of_readRest ok
    rw [query]
    refine readTail_query_of_not_mem _ fun member => none ?_
    exact mem_of_mem_clean ((inside.trans (readScheme?_suffix read)).subset member)
  · cases ok

/-! ### Text behind a URL -/

/-- What counts of a text at the end of a URL: blanks at its end and line breaks do not. -/
def cleanEnd (cs : List Char) : List Char :=
  (cs.reverse.dropWhile isTrimmed).reverse.filter (!isLineBreak ·)

theorem cleanEnd_append_slash (before after : List Char) :
    cleanEnd (before ++ '/' :: after) =
      before.filter (!isLineBreak ·) ++ '/' :: cleanEnd after := by
  have stop : isTrimmed '/' = false := by decide
  have kept : (!isLineBreak '/') = true := by decide
  have reversed : (before ++ '/' :: after).reverse = after.reverse ++ '/' :: before.reverse := by
    simp
  rw [cleanEnd, reversed, dropWhile_append_stop stop]
  simp [cleanEnd, kept]

theorem clean_append_slash {before : List Char} {e : Char} (last : before.getLast? = some e)
    (shown : isTrimmed e = false) (after : List Char) :
    clean (before ++ '/' :: after) = clean before ++ '/' :: cleanEnd after := by
  obtain ⟨front, rfl⟩ : ∃ front, before = front ++ [e] := List.getLast?_eq_some_iff.1 last
  have begins (rest : List Char) : (front ++ e :: rest).dropWhile isTrimmed =
      front.dropWhile isTrimmed ++ e :: rest := dropWhile_append_stop shown front rest
  have clean_eq (cs : List Char) : clean cs = cleanEnd (cs.dropWhile isTrimmed) := rfl
  have ends : cleanEnd (front.dropWhile isTrimmed ++ [e]) =
      (front.dropWhile isTrimmed ++ [e]).filter (!isLineBreak ·) := by
    rw [cleanEnd, List.reverse_append, List.reverse_singleton, List.singleton_append,
      List.dropWhile_cons_of_neg (by simp [shown]), List.reverse_cons, List.reverse_reverse]
  rw [clean_eq, clean_eq, begins, ends, List.append_assoc, List.singleton_append, begins,
    ← List.singleton_append, ← List.append_assoc, cleanEnd_append_slash]

theorem readScheme?_append {scheme : String} {cs rest : List Char}
    (read : readScheme? cs = some (scheme, rest)) (after : List Char) :
    readScheme? (cs ++ after) = some (scheme, rest ++ after) := by
  unfold readScheme? at read
  split at read
  · rename_i colon
    have stops : cs.dropWhile isSchemeChar ≠ [] := by rw [colon]; exact List.cons_ne_nil _ _
    have first : (cs ++ after).head? = cs.head? := by
      cases cs with
      | nil => exact absurd rfl stops
      | cons c cs => rfl
    unfold readScheme?
    rw [dropWhile_append_of_ne_nil stops, takeWhile_append_of_ne_nil stops, first, colon]
    split at read
    · rename_i letter
      cases read
      exact if_pos letter
    · cases read
  · cases read

theorem ne_nil_of_readAuthority {scheme : String} {port : Nat} {cs : List Char} {u : Url}
    (ok : readAuthority scheme (.special port) cs = .ok u) : cs ≠ [] := by
  rintro rfl
  cases ok

theorem readAuthority_append_slash {scheme : String} {kind : SchemeKind} {cs : List Char} {b : Url}
    (ok : readAuthority scheme kind cs = .ok b) (query : b.query = none)
    (fragment : b.fragment = none) (after : List Char) :
    ∃ path, (∀ s ∈ path.head?, endsAuthority kind s = true ∧ startsTail s = false) ∧
      b.path = readPath kind path ∧
      readAuthority scheme kind (cs ++ '/' :: after) =
        let tail := readTail kind (after.dropWhile (!startsTail ·))
        .ok { b with path := readPath kind (path ++ '/' :: after.takeWhile (!startsTail ·)),
                     query := tail.1, fragment := tail.2 } := by
  have ends : (!endsAuthority kind '/') = false := rfl
  rw [readAuthority_eq] at ok ⊢
  rw [takeWhile_append_stop (p := (!endsAuthority kind ·)) ends,
    dropWhile_append_stop (p := (!endsAuthority kind ·)) ends]
  cases h : readAuthority scheme kind (cs.takeWhile (!endsAuthority kind ·)) with
  | error e => rw [h] at ok; cases ok
  | ok v =>
    rw [h] at ok
    cases ok
    set path := cs.dropWhile (!endsAuthority kind ·) with path_eq
    have plain : ∀ c ∈ path, (!startsTail c) = true := fun c member => by
      rw [startsTail_of_readTail (Prod.ext query fragment) c member]
      rfl
    refine ⟨path, fun s first => ⟨?_, ?_⟩, ?_, ?_⟩
    · have := List.head?_dropWhile_not (!endsAuthority kind ·) cs
      rw [← path_eq] at this
      rw [Option.mem_def] at first
      simpa [first] using this
    · simpa using plain s (List.mem_of_mem_head? first)
    · exact congrArg (readPath kind) (List.takeWhile_eq_self_iff.2 plain)
    · simp only [Except.map]
      rw [List.takeWhile_append_of_pos plain, List.dropWhile_append_of_pos plain]
      rfl

theorem parse_append_slash {s : String} {b : Url} {e : Char} {port : Nat} (ok : parse s = .ok b)
    (special : SchemeKind.ofScheme b.scheme = .special port) (query : b.query = none)
    (fragment : b.fragment = none) (last : s.toList.getLast? = some e)
    (shown : isTrimmed e = false) (after : String) :
    ∃ path, (∀ s ∈ path.head?, s = '/' ∨ s = '\\') ∧ b.path = readPath (.special port) path ∧
      parse (s ++ "/" ++ after) =
        let after := cleanEnd after.toList
        let tail := readTail (.special port) (after.dropWhile (!startsTail ·))
        .ok { b with
          path := readPath (.special port) (path ++ '/' :: after.takeWhile (!startsTail ·)),
          query := tail.1, fragment := tail.2 } := by
  unfold parse at ok
  split at ok
  · rename_i scheme rest read
    have same : b.scheme = scheme := (readFrom_of_readRest ok).1
    rw [same] at special
    have authority (cs : List Char) : readRest scheme cs =
        readAuthority scheme (.special port) (cs.dropWhile isSlash) := by
      unfold readRest
      rw [special]
    rw [authority] at ok
    obtain ⟨path, first, path_eq, longer⟩ :=
      readAuthority_append_slash ok query fragment (cleanEnd after.toList)
    refine ⟨path, fun s begins => ?_, path_eq, ?_⟩
    · obtain ⟨ends, inside⟩ := first s begins
      simp only [startsTail, Bool.or_eq_false_iff, decide_eq_false_iff_not] at inside
      simpa [endsAuthority, SchemeKind.isSpecial, inside] using ends
    · have text : (s ++ "/" ++ after).toList = s.toList ++ '/' :: after.toList := by simp
      unfold parse
      rw [text, clean_append_slash last shown, readScheme?_append read]
      simp only
      rw [authority, dropWhile_append_of_ne_nil (ne_nil_of_readAuthority ok), longer]
  · cases ok

end OutboxRelay.Url
