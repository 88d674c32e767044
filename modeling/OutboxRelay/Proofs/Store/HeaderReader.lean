import OutboxRelay.Proofs.Store.HeaderSyntax

/-! How a column is read: the reader takes exactly the objects that the grammar allows, with their
entries in the order in which they are written, and a column that it does not take is unreadable.
Between any two characters the reader stands where the grammar has it. -/

namespace OutboxRelay.HeaderBlob

open Text

/-! ### What the grammar allows is read -/

/-- The reader inside a quoted text, of which it has read so much, and behind it. -/
structure ReadsText (inside : Piece → List Char → Reader) (behind : String → Reader) : Prop where
  step : ∀ piece read c, (inside piece read).step c = match textStep piece c with
    | .go piece more => some (inside piece (read ++ more))
    | .close => some (behind (String.ofList read))
    | .invalid => none

theorem readsText_key (entries : List (String × String)) :
    ReadsText (fun piece read => ⟨.key piece read, entries⟩) fun key => ⟨.keyed key, entries⟩ :=
  ⟨fun _ _ _ => rfl⟩

theorem readsText_value (key : String) (entries : List (String × String)) :
    ReadsText (fun piece read => ⟨.value key piece read, entries⟩)
      fun value => ⟨.valued, entries ++ [(key, value)]⟩ :=
  ⟨fun _ _ _ => rfl⟩

def Position.inText : Position → Bool
  | .key .. | .value .. => true
  | _ => false

namespace Reader

theorem step_of_outside {r : Reader} (outside : r.position.inText = false) (c : Char) :
    r.step c = if isSpace c then some r else r.sign c := by
  obtain ⟨position, entries⟩ := r
  cases position with
  | key | value => cases outside
  | start | opened | keyed | valueDue | valued | keyDue | closed => rfl

theorem run_cons (r : Reader) (c : Char) (cs : List Char) :
    r.run (c :: cs) = (r.step c).bind fun r => r.run cs := rfl

theorem run_cons_of_step {r r' : Reader} {c : Char} (step : r.step c = some r') (cs : List Char) :
    r.run (c :: cs) = r'.run cs := by
  rw [run_cons, step, Option.bind_some]

variable {inside : Piece → List Char → Reader} {behind : String → Reader}

theorem run_of_textSteps (h : ReadsText inside behind) {piece piece' : Piece}
    {cs read more : List Char} (steps : textSteps piece cs = some (piece', more))
    (rest : List Char) :
    (inside piece read).run (cs ++ rest) = (inside piece' (read ++ more)).run rest := by
  induction cs generalizing piece read more with
  | nil =>
    cases steps
    rw [List.nil_append, List.append_nil]
  | cons c cs ih =>
    unfold textSteps at steps
    split at steps
    · rename_i next first one
      obtain ⟨⟨last, later⟩, tail, same⟩ := Option.map_eq_some_iff.1 steps
      cases same
      have step : (inside piece read).step c = some (inside next (read ++ first)) := by
        rw [h.step, one]
      rw [List.cons_append, run_cons_of_step step, ih tail, List.append_assoc]
    · cases steps

theorem run_quoted (h : ReadsText inside behind) {r : Reader}
    (opens : r.step '"' = some (inside .plain [])) {cs : List Char} {s : String}
    (quoted : Quoted cs s) (rest : List Char) : r.run (cs ++ rest) = (behind s).run rest := by
  obtain ⟨spelled⟩ := quoted
  rename_i chars text
  have closes : (inside .plain text).step '"' = some (behind (String.ofList text)) := h.step ..
  rw [List.cons_append, run_cons_of_step opens, List.append_assoc,
    run_of_textSteps h (textSteps_spelled spelled), List.nil_append, List.singleton_append,
    run_cons_of_step closes]

theorem run_spaces (position : Position) (entries : List (String × String))
    (outside : position.inText = false) {a : List Char} (spaces : IsSpaces a) (rest : List Char) :
    (Reader.mk position entries).run (a ++ rest) = (Reader.mk position entries).run rest := by
  induction a with
  | nil => rfl
  | cons c a ih =>
    obtain ⟨first, others⟩ := List.forall_mem_cons.1 spaces
    have skips : (Reader.mk position entries).step c = some ⟨position, entries⟩ := by
      rw [step_of_outside outside, if_pos first]
    rw [List.cons_append, run_cons_of_step skips, ih others]

variable {entries : List (String × String)}

theorem run_member {r : Reader} {entry : String × String}
    (due : r.step '"' = some ⟨.key .plain [], entries⟩) {cs : List Char}
    (member : Member cs entry) (rest : List Char) :
    r.run (cs ++ rest) = (Reader.mk .valued (entries ++ [entry])).run rest := by
  obtain ⟨name, before, after, text⟩ := member
  rename_i ks vs a b key value
  have colon : (Reader.mk (.keyed key) entries).step ':' = some ⟨.valueDue key, entries⟩ := rfl
  have quote : (Reader.mk (.valueDue key) entries).step '"' =
      some ⟨.value key .plain [], entries⟩ := rfl
  simp only [List.append_assoc, List.cons_append]
  rw [run_quoted (readsText_key entries) due name, run_spaces (.keyed key) entries rfl before,
    run_cons_of_step colon, run_spaces (.valueDue key) entries rfl after,
    run_quoted (readsText_value key entries) quote text]

theorem run_members {r : Reader} (due : r.step '"' = some ⟨.key .plain [], []⟩) {cs : List Char}
    (members : Members cs entries) (rest : List Char) :
    r.run (cs ++ rest) = (Reader.mk .valued entries).run rest := by
  induction members generalizing rest with
  | one first => exact run_member due first rest
  | @concat cs more a b entries entry others before after last ih =>
    have comma : (Reader.mk .valued entries).step ',' = some ⟨.keyDue, entries⟩ := rfl
    simp only [List.append_assoc, List.cons_append]
    rw [ih, run_spaces .valued entries rfl before, run_cons_of_step comma,
      run_spaces .keyDue entries rfl after, run_member rfl last]

theorem run_object {cs : List Char} (object : Object cs entries) :
    initial.run cs = some ⟨.closed, entries⟩ := by
  have opens : (Reader.mk .start []).step (Char.ofNat 0x7B) = some ⟨.opened, []⟩ := by decide
  have ends (after : List Char) (spaces : IsSpaces after) :
      (Reader.mk .closed entries).run after = some ⟨.closed, entries⟩ := by
    rw [← List.append_nil after, run_spaces .closed entries rfl spaces]
    rfl
  cases object with
  | empty before inside after =>
    have closes : (Reader.mk .opened []).step (Char.ofNat 0x7D) = some ⟨.closed, []⟩ := by decide
    rw [initial, run_spaces .start [] rfl before, run_cons_of_step opens,
      run_spaces .opened [] rfl inside, run_cons_of_step closes, ends _ after]
  | members before first inside last after =>
    have closes : (Reader.mk .valued entries).step (Char.ofNat 0x7D) =
        some ⟨.closed, entries⟩ := rfl
    rw [initial, run_spaces .start [] rfl before, run_cons_of_step opens,
      run_spaces .opened [] rfl first, run_members rfl inside,
      run_spaces .valued entries rfl last, run_cons_of_step closes, ends _ after]

end Reader

/-! ### What is read the grammar allows -/

inductive Listed : List Char → List (String × String) → Prop
  | mk {a b cs : List Char} {entries : List (String × String)} (before : IsSpaces a)
    (first : IsSpaces b) (members : Members cs entries) :
    Listed (a ++ Char.ofNat 0x7B :: (b ++ cs)) entries

inductive KeyDue : List Char → List (String × String) → Prop
  | first {a b : List Char} (before : IsSpaces a) (inside : IsSpaces b) :
    KeyDue (a ++ Char.ofNat 0x7B :: b) []
  | next {cs a b : List Char} {entries : List (String × String)} (listed : Listed cs entries)
    (before : IsSpaces a) (after : IsSpaces b) : KeyDue (cs ++ (a ++ ',' :: b)) entries

theorem KeyDue.listed {cs more : List Char} {entries : List (String × String)}
    {entry : String × String} (due : KeyDue cs entries) (member : Member more entry) :
    Listed (cs ++ more) (entries ++ [entry]) := by
  cases due with
  | first before inside =>
    rw [List.append_assoc, List.cons_append]
    exact .mk before inside (.one member)
  | next listed before after =>
    obtain ⟨outside, first, members⟩ := listed
    simp only [List.append_assoc, List.cons_append]
    exact .mk outside first (members.concat before after member)

/-- The characters that were read, by where the reader stands. -/
inductive Reached : List Char → Reader → Prop
  | start {a : List Char} (before : IsSpaces a) : Reached a ⟨.start, []⟩
  | opened {a b : List Char} (before : IsSpaces a) (inside : IsSpaces b) :
    Reached (a ++ Char.ofNat 0x7B :: b) ⟨.opened, []⟩
  | keyDue {cs a b : List Char} {entries : List (String × String)} (listed : Listed cs entries)
    (before : IsSpaces a) (after : IsSpaces b) :
    Reached (cs ++ (a ++ ',' :: b)) ⟨.keyDue, entries⟩
  | key {cs q read : List Char} {piece : Piece} {entries : List (String × String)}
    (due : KeyDue cs entries) (begun : Begun piece read q) :
    Reached (cs ++ '"' :: q) ⟨.key piece read, entries⟩
  | keyed {cs ks a : List Char} {key : String} {entries : List (String × String)}
    (due : KeyDue cs entries) (name : Quoted ks key) (before : IsSpaces a) :
    Reached (cs ++ (ks ++ a)) ⟨.keyed key, entries⟩
  | valueDue {cs ks a b : List Char} {key : String} {entries : List (String × String)}
    (due : KeyDue cs entries) (name : Quoted ks key) (before : IsSpaces a) (after : IsSpaces b) :
    Reached (cs ++ (ks ++ (a ++ ':' :: b))) ⟨.valueDue key, entries⟩
  | value {cs ks a b q read : List Char} {key : String} {piece : Piece}
    {entries : List (String × String)} (due : KeyDue cs entries) (name : Quoted ks key)
    (before : IsSpaces a) (after : IsSpaces b) (begun : Begun piece read q) :
    Reached (cs ++ (ks ++ (a ++ ':' :: (b ++ '"' :: q)))) ⟨.value key piece read, entries⟩
  | valued {cs a : List Char} {entries : List (String × String)} (listed : Listed cs entries)
    (after : IsSpaces a) : Reached (cs ++ a) ⟨.valued, entries⟩
  | closed {cs : List Char} {entries : List (String × String)} (object : Object cs entries) :
    Reached cs ⟨.closed, entries⟩

theorem isSpaces_nil : IsSpaces [] := nofun

theorem IsSpaces.concat {a : List Char} {c : Char} (spaces : IsSpaces a)
    (space : isSpace c = true) : IsSpaces (a ++ [c]) :=
  List.forall_mem_append.2 ⟨spaces, List.forall_mem_singleton.2 space⟩

namespace Reached

variable {cs : List Char} {r r' : Reader} {c : Char}

theorem space (reached : Reached cs r) (outside : r.position.inText = false)
    (space : isSpace c = true) : Reached (cs ++ [c]) r := by
  cases reached with
  | key | value => cases outside
  | start before => exact .start (before.concat space)
  | opened before inside =>
    rw [List.append_assoc]
    exact .opened before (inside.concat space)
  | keyDue listed before after =>
    simp only [List.append_assoc, List.cons_append]
    exact .keyDue listed before (after.concat space)
  | keyed due name before =>
    simp only [List.append_assoc]
    exact .keyed due name (before.concat space)
  | valueDue due name before after =>
    simp only [List.append_assoc, List.cons_append]
    exact .valueDue due name before (after.concat space)
  | valued listed after =>
    rw [List.append_assoc]
    exact .valued listed (after.concat space)
  | closed object =>
    cases object with
    | empty before inside after =>
      simp only [List.append_assoc, List.cons_append]
      exact .closed (.empty before inside (after.concat space))
    | members before first inside last after =>
      simp only [List.append_assoc, List.cons_append]
      exact .closed (.members before first inside last (after.concat space))

theorem opens (due : KeyDue cs entries) : Reached (cs ++ ['"']) ⟨.key .plain [], entries⟩ :=
  .key due (.plain .nil)

theorem sign (reached : Reached cs r) (outside : r.position.inText = false)
    (sign : r.sign c = some r') : Reached (cs ++ [c]) r' := by
  have brace {n : Nat} (code : c.toNat = n) : c = Char.ofNat n := code ▸ (Char.ofNat_toNat c).symm
  cases reached with
  | key | value => cases outside
  | start before =>
    simp only [Reader.sign] at sign
    split at sign
    · rename_i code
      cases sign
      rw [brace code]
      exact .opened before isSpaces_nil
    · cases sign
  | opened before inside =>
    simp only [Reader.sign] at sign
    split at sign
    · rename_i quote
      cases sign
      rw [quote]
      exact opens (.first before inside)
    · split at sign
      · rename_i code
        cases sign
        rw [brace code, List.append_assoc]
        exact .closed (.empty before inside isSpaces_nil)
      · cases sign
  | keyDue listed before after =>
    simp only [Reader.sign] at sign
    split at sign
    · rename_i quote
      cases sign
      rw [quote]
      exact opens (.next listed before after)
    · cases sign
  | keyed due name before =>
    simp only [Reader.sign] at sign
    split at sign
    · rename_i colon
      cases sign
      rw [colon]
      simp only [List.append_assoc]
      exact .valueDue due name before isSpaces_nil
    · cases sign
  | valueDue due name before after =>
    simp only [Reader.sign] at sign
    split at sign
    · rename_i quote
      cases sign
      rw [quote]
      simp only [List.append_assoc, List.cons_append]
      exact .value due name before after (.plain .nil)
    · cases sign
  | valued listed after =>
    simp only [Reader.sign] at sign
    split at sign
    · rename_i comma
      cases sign
      rw [comma, List.append_assoc]
      exact .keyDue listed after isSpaces_nil
    · split at sign
      · rename_i code
        cases sign
        obtain ⟨before, first, members⟩ := listed
        rw [brace code]
        simp only [List.append_assoc, List.cons_append]
        exact .closed (.members before first members after isSpaces_nil)
      · cases sign
  | closed object => cases sign

theorem step (reached : Reached cs r) (step : r.step c = some r') : Reached (cs ++ [c]) r' := by
  cases outside : r.position.inText with
  | false =>
    rw [Reader.step_of_outside outside] at step
    split at step
    · rename_i isSpace
      cases step
      exact reached.space outside isSpace
    · exact reached.sign outside step
  | true =>
    cases reached with
    | start | opened | keyDue | keyed | valueDue | valued | closed => cases outside
    | @key cs q read piece entries due begun =>
      simp only [Reader.step] at step
      split at step
      · rename_i next more one
        cases step
        rw [List.append_assoc]
        exact .key due (begun.step one)
      · rename_i close
        cases step
        obtain ⟨rfl, rfl⟩ := eq_plain_of_close close
        cases begun with
        | plain spelled =>
          have quoted := Reached.keyed due (.mk spelled) isSpaces_nil
          rwa [List.append_nil, ← List.cons_append, ← List.append_assoc] at quoted
      · cases step
    | @value cs ks a b q read key piece entries due name before after begun =>
      simp only [Reader.step] at step
      split at step
      · rename_i next more one
        cases step
        simp only [List.append_assoc, List.cons_append]
        exact .value due name before after (begun.step one)
      · rename_i close
        cases step
        obtain ⟨rfl, rfl⟩ := eq_plain_of_close close
        cases begun with
        | plain spelled =>
          have member : Member _ (key, String.ofList read) := .mk name before after (.mk spelled)
          have listed := Reached.valued (due.listed member) isSpaces_nil
          simpa using listed
      · cases step

end Reached

theorem reached_of_run {cs : List Char} {r : Reader} (run : Reader.initial.run cs = some r) :
    Reached cs r := by
  induction cs using List.reverseRecOn generalizing r with
  | nil =>
    cases run
    exact .start isSpaces_nil
  | append_singleton cs c ih =>
    have split : Reader.initial.run (cs ++ [c]) = (Reader.initial.run cs).bind (·.run [c]) :=
      List.foldlM_append ..
    obtain ⟨before, first, last⟩ := Option.bind_eq_some_iff.1 (split.symm.trans run)
    obtain ⟨after, step, same⟩ := Option.bind_eq_some_iff.1 last
    cases same
    exact (ih first).step step

theorem read?_eq_some_iff {raw : String} {h : Headers} : read? raw = some h ↔
    ∃ entries, Object raw.toList entries ∧ h = .ofList entries := by
  unfold read?
  constructor
  · intro read
    split at read
    · rename_i entries run
      cases read
      have reached := reached_of_run run
      generalize raw.toList = cs at reached
      cases reached with
      | closed object => exact ⟨entries, object, rfl⟩
    · cases read
  · rintro ⟨entries, object, rfl⟩
    rw [Reader.run_object object]

theorem not_isBlank_of_object {cs : List Char} {entries : List (String × String)}
    (object : Object cs entries) : cs.all isBlank = false := by
  have brace : isBlank (Char.ofNat 0x7B) = false := by decide
  cases object <;> simp [brace]

/-- The reader takes what the grammar allows, as the grammar has it. -/
theorem decode?_eq_some_iff {raw : String} {h : Headers} : decode? raw = some h ↔ Holds raw h := by
  unfold decode?
  constructor
  · intro decoded
    split at decoded
    · rename_i blank
      cases decoded
      exact .blank fun c member => List.all_eq_true.1 blank c member
    · obtain ⟨entries, object, rfl⟩ := read?_eq_some_iff.1 decoded
      exact .object object
  · intro holds
    cases holds with
    | blank blank => exact if_pos (List.all_eq_true.2 blank)
    | object object =>
      rw [isBlankText, not_isBlank_of_object object]
      exact read?_eq_some_iff.2 ⟨_, object, rfl⟩

end OutboxRelay.HeaderBlob
