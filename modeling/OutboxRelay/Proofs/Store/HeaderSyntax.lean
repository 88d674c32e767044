import Mathlib.Data.List.Basic
import Mathlib.Data.List.Induction
import OutboxRelay.Store.HeaderBlob

/-! What the column of an event's headers may hold: an object of texts in the syntax of JSON, or
nothing but blanks. The grammar says nothing of how columns are read. It is followed here for the
texts between quotes: what the reader takes, character by character, is what the grammar allows. -/

namespace OutboxRelay.HeaderBlob

open Text

/-! ### The grammar -/

inductive Hex : List Char → Nat → Prop
  | nil : Hex [] 0
  | concat {digits : List Char} {n : Nat} {c : Char} {digit : Nat} (more : Hex digits n)
    (last : hexValue c = some digit) : Hex (digits ++ [c]) (n * 16 + digit)

inductive Code : List Char → Nat → Prop
  | mk {digits : List Char} {n : Nat} (hex : Hex digits n) (four : digits.length = 4) :
    Code ('\\' :: 'u' :: digits) n

def IsHigh (n : Nat) : Prop := 0xD800 ≤ n ∧ n < 0xDC00

def IsLow (n : Nat) : Prop := 0xDC00 ≤ n ∧ n < 0xE000

def letters : List (Char × Char) :=
  [('"', '"'), ('\\', '\\'), ('/', '/'), ('b', '\x08'), ('f', '\x0c'), ('n', '\n'), ('r', '\r'),
    ('t', '\t')]

/-- One way to write a character inside a quoted text. -/
inductive Spells : List Char → Char → Prop
  | plain {c : Char} (visible : 0x20 ≤ c.toNat) (no_quote : c ≠ '"') (no_backslash : c ≠ '\\') :
    Spells [c] c
  | letter {l c : Char} (known : (l, c) ∈ letters) : Spells ['\\', l] c
  | code {cs : List Char} {n : Nat} (one : Code cs n) (not_high : ¬ IsHigh n)
    (not_low : ¬ IsLow n) : Spells cs (Char.ofNat n)
  | pair {cs cs' : List Char} {high low : Nat} (first : Code cs high) (second : Code cs' low)
    (is_high : IsHigh high) (is_low : IsLow low) :
    Spells (cs ++ cs') (Char.ofNat (0x10000 + (high - 0xD800) * 0x400 + (low - 0xDC00)))

inductive Spelled : List Char → List Char → Prop
  | nil : Spelled [] []
  | concat {cs text more : List Char} {c : Char} (before : Spelled cs text)
    (last : Spells more c) : Spelled (cs ++ more) (text ++ [c])

inductive Quoted : List Char → String → Prop
  | mk {cs text : List Char} (spelled : Spelled cs text) :
    Quoted ('"' :: (cs ++ ['"'])) (String.ofList text)

def IsSpaces (cs : List Char) : Prop := ∀ c ∈ cs, isSpace c = true

inductive Member : List Char → String × String → Prop
  | mk {ks vs a b : List Char} {key value : String} (name : Quoted ks key) (before : IsSpaces a)
    (after : IsSpaces b) (text : Quoted vs value) :
    Member (ks ++ (a ++ ':' :: (b ++ vs))) (key, value)

inductive Members : List Char → List (String × String) → Prop
  | one {cs : List Char} {entry : String × String} (first : Member cs entry) : Members cs [entry]
  | concat {cs more a b : List Char} {entries : List (String × String)} {entry : String × String}
    (others : Members cs entries) (before : IsSpaces a) (after : IsSpaces b)
    (last : Member more entry) : Members (cs ++ (a ++ ',' :: (b ++ more))) (entries ++ [entry])

/-- An object whose values are texts, spaces around it included. -/
inductive Object : List Char → List (String × String) → Prop
  | empty {a b c : List Char} (before : IsSpaces a) (inside : IsSpaces b) (after : IsSpaces c) :
    Object (a ++ Char.ofNat 0x7B :: (b ++ Char.ofNat 0x7D :: c)) []
  | members {a b c d cs : List Char} {entries : List (String × String)} (before : IsSpaces a)
    (first : IsSpaces b) (inside : Members cs entries) (last : IsSpaces c) (after : IsSpaces d) :
    Object (a ++ Char.ofNat 0x7B :: (b ++ (cs ++ (c ++ Char.ofNat 0x7D :: d)))) entries

/-- What a column holds: headers, of which the last one of each key counts. -/
inductive Holds (raw : String) : Headers → Prop
  | blank (blank : ∀ c ∈ raw.toList, isBlank c) : Holds raw .empty
  | object {entries : List (String × String)} (object : Object raw.toList entries) :
    Holds raw (.ofList entries)

/-! ### Quoted texts -/

theorem escapeLetter_eq_some_iff {l c : Char} : escapeLetter l = some c ↔ (l, c) ∈ letters := by
  constructor
  · intro known
    unfold escapeLetter at known
    split at known <;> cases known <;> decide
  · intro known
    simp only [letters, List.mem_cons, Prod.mk.injEq, List.not_mem_nil, or_false] at known
    rcases known with ⟨rfl, rfl⟩ | ⟨rfl, rfl⟩ | ⟨rfl, rfl⟩ | ⟨rfl, rfl⟩ | ⟨rfl, rfl⟩ | ⟨rfl, rfl⟩ |
      ⟨rfl, rfl⟩ | ⟨rfl, rfl⟩ <;> rfl

def textSteps : Piece → List Char → Option (Piece × List Char)
  | piece, [] => some (piece, [])
  | piece, c :: cs =>
    match textStep piece c with
    | .go piece more => (textSteps piece cs).map fun x => (x.1, more ++ x.2)
    | _ => none

theorem textSteps_append (piece : Piece) (cs more : List Char) :
    textSteps piece (cs ++ more) = (textSteps piece cs).bind fun x =>
      (textSteps x.1 more).map fun y => (y.1, x.2 ++ y.2) := by
  induction cs generalizing piece with
  | nil => simp [textSteps]
  | cons c cs ih =>
    simp only [List.cons_append, textSteps]
    split
    · rename_i next first one
      rw [ih]
      cases textSteps next cs <;> simp [Function.comp_def]
    · rfl

/-- What was read of a quoted text and the characters it was read from, the last of which may have
begun an escape. -/
inductive Begun : Piece → List Char → List Char → Prop
  | plain {cs read : List Char} (spelled : Spelled cs read) : Begun .plain read cs
  | escaped {cs read : List Char} (spelled : Spelled cs read) : Begun .escaped read (cs ++ ['\\'])
  | code {cs read digits : List Char} {n : Nat} (spelled : Spelled cs read) (hex : Hex digits n)
    (few : digits.length < 4) :
    Begun (.code digits.length n none) read (cs ++ '\\' :: 'u' :: digits)
  | pairDue {cs read first : List Char} {high : Nat} (spelled : Spelled cs read)
    (code : Code first high) (is_high : IsHigh high) : Begun (.pairDue high) read (cs ++ first)
  | pairEscaped {cs read first : List Char} {high : Nat} (spelled : Spelled cs read)
    (code : Code first high) (is_high : IsHigh high) :
    Begun (.pairEscaped high) read (cs ++ (first ++ ['\\']))
  | pairCode {cs read first digits : List Char} {high n : Nat} (spelled : Spelled cs read)
    (code : Code first high) (is_high : IsHigh high) (hex : Hex digits n)
    (few : digits.length < 4) :
    Begun (.code digits.length n (some high)) read (cs ++ (first ++ '\\' :: 'u' :: digits))

theorem spelled_of_codeEnd {cs read digits : List Char} {n : Nat} (spelled : Spelled cs read)
    (hex : Hex digits n) (four : digits.length = 4) {next : Piece} {more : List Char}
    (ends : codeEnd n none = .go next more) :
    Begun next (read ++ more) (cs ++ '\\' :: 'u' :: digits) := by
  simp only [codeEnd] at ends
  split at ends
  · rename_i is_high
    cases ends
    rw [List.append_nil]
    exact .pairDue spelled ⟨hex, four⟩ is_high
  · rename_i not_high
    split at ends
    · cases ends
    · rename_i not_low
      cases ends
      exact .plain (spelled.concat (.code ⟨hex, four⟩ not_high not_low))

theorem spelled_of_pairEnd {cs read first digits : List Char} {high n : Nat}
    (spelled : Spelled cs read) (code : Code first high) (is_high : IsHigh high)
    (hex : Hex digits n) (four : digits.length = 4) {next : Piece} {more : List Char}
    (ends : codeEnd n (some high) = .go next more) :
    Begun next (read ++ more) (cs ++ (first ++ '\\' :: 'u' :: digits)) := by
  simp only [codeEnd] at ends
  split at ends
  · rename_i is_low
    cases ends
    exact .plain (spelled.concat (.pair code ⟨hex, four⟩ is_high is_low))
  · cases ends

theorem Begun.step {piece next : Piece} {read more cs : List Char} {c : Char}
    (begun : Begun piece read cs) (step : textStep piece c = .go next more) :
    Begun next (read ++ more) (cs ++ [c]) := by
  cases begun with
  | plain spelled =>
    simp only [textStep] at step
    split at step
    · cases step
    · rename_i no_quote
      split at step
      · rename_i backslash
        cases step
        rw [backslash, List.append_nil]
        exact .escaped spelled
      · rename_i no_backslash
        split at step
        · cases step
        · rename_i visible
          cases step
          exact .plain (spelled.concat (.plain (Nat.le_of_not_lt visible) no_quote no_backslash))
  | escaped spelled =>
    simp only [textStep] at step
    split at step
    · rename_i isCode
      cases step
      rw [isCode, List.append_nil, List.append_assoc]
      exact .code spelled .nil (by decide)
    · split at step
      · rename_i e known
        cases step
        rw [List.append_assoc]
        exact .plain (spelled.concat (.letter (escapeLetter_eq_some_iff.1 known)))
      · cases step
  | @code cs read digits n spelled hex few =>
    simp only [textStep] at step
    split at step
    · cases step
    · rename_i digit known
      have chars : cs ++ '\\' :: 'u' :: digits ++ [c] = cs ++ '\\' :: 'u' :: (digits ++ [c]) := by
        simp
      have length : (digits ++ [c]).length = digits.length + 1 := List.length_append
      rw [chars]
      split at step
      · rename_i more
        cases step
        rw [List.append_nil, ← length]
        exact .code spelled (hex.concat known) (by omega)
      · exact spelled_of_codeEnd spelled (hex.concat known) (by omega) step
  | pairDue spelled code is_high =>
    simp only [textStep] at step
    split at step
    · rename_i backslash
      cases step
      rw [backslash, List.append_nil, List.append_assoc]
      exact .pairEscaped spelled code is_high
    · cases step
  | pairEscaped spelled code is_high =>
    simp only [textStep] at step
    split at step
    · rename_i isCode
      cases step
      rw [isCode, List.append_nil, List.append_assoc, List.append_assoc]
      exact .pairCode spelled code is_high .nil (by decide)
    · cases step
  | @pairCode cs read first digits high n spelled code is_high hex few =>
    simp only [textStep] at step
    split at step
    · cases step
    · rename_i digit known
      have chars : cs ++ (first ++ '\\' :: 'u' :: digits) ++ [c] =
          cs ++ (first ++ '\\' :: 'u' :: (digits ++ [c])) := by
        simp
      have length : (digits ++ [c]).length = digits.length + 1 := List.length_append
      rw [chars]
      split at step
      · rename_i more
        cases step
        rw [List.append_nil, ← length]
        exact .pairCode spelled code is_high (hex.concat known) (by omega)
      · exact spelled_of_pairEnd spelled code is_high (hex.concat known) (by omega) step

theorem codeEnd_ne_close (n : Nat) (high : Option Nat) : codeEnd n high ≠ .close := by
  unfold codeEnd
  split <;> repeat' split
  all_goals nofun

theorem eq_plain_of_close {piece : Piece} {c : Char} (close : textStep piece c = .close) :
    piece = .plain ∧ c = '"' := by
  cases piece with
  | plain =>
    simp only [textStep] at close
    split at close
    · rename_i quote
      exact ⟨rfl, quote⟩
    · repeat' split at close
      all_goals cases close
  | code count n high =>
    simp only [textStep] at close
    split at close
    · cases close
    · split at close
      · cases close
      · exact absurd close (codeEnd_ne_close _ _)
  | escaped | pairDue | pairEscaped =>
    simp only [textStep] at close
    repeat' split at close
    all_goals cases close

theorem begun_of_textSteps {piece : Piece} {read cs : List Char}
    (steps : textSteps .plain cs = some (piece, read)) : Begun piece read cs := by
  induction cs using List.reverseRecOn generalizing piece read with
  | nil =>
    cases steps
    exact .plain .nil
  | append_singleton cs c ih =>
    rw [textSteps_append] at steps
    obtain ⟨⟨before, done⟩, first, last⟩ := Option.bind_eq_some_iff.1 steps
    obtain ⟨⟨next, more⟩, one, same⟩ := Option.map_eq_some_iff.1 last
    cases same
    unfold textSteps at one
    split at one
    · rename_i next' more' step
      simp only [textSteps, Option.map_some, List.append_nil, Option.some.injEq, Prod.mk.injEq] at one
      obtain ⟨rfl, rfl⟩ := one
      exact (ih first).step step
    · cases one

theorem spelled_of_textSteps {read cs : List Char}
    (steps : textSteps .plain cs = some (.plain, read)) : Spelled cs read := by
  cases begun_of_textSteps steps with
  | plain spelled => exact spelled

theorem textSteps_hex {digits : List Char} {n : Nat} (hex : Hex digits n)
    (few : digits.length < 4) (high : Option Nat) :
    textSteps (.code 0 0 high) digits = some (.code digits.length n high, []) := by
  induction hex with
  | nil => rfl
  | @concat digits n c digit _ last ih =>
    rw [List.length_append, List.length_singleton] at few ⊢
    have next : textStep (.code digits.length n high) c =
        .go (.code (digits.length + 1) (n * 16 + digit) high) [] := by
      simp only [textStep, last]
      rw [if_pos (by omega)]
    rw [textSteps_append, ih (by omega)]
    simp [textSteps, next]

theorem textSteps_digits {digits : List Char} {n : Nat} (hex : Hex digits n)
    (four : digits.length = 4) {high : Option Nat} {next : Piece} {more : List Char}
    (ends : codeEnd n high = .go next more) :
    textSteps (.code 0 0 high) digits = some (next, more) := by
  cases hex with
  | nil => cases four
  | @concat digits n c digit hex last =>
    have three : digits.length = 3 := by simpa using four
    have step : textStep (.code digits.length n high) c = .go next more := by
      simp only [textStep, last]
      rw [if_neg (by omega), ends]
    rw [textSteps_append, textSteps_hex hex (by omega)]
    simp [textSteps, step]

theorem textSteps_code {cs : List Char} {n : Nat} (code : Code cs n) {next : Piece}
    {more : List Char} (ends : codeEnd n none = .go next more) :
    textSteps .plain cs = some (next, more) := by
  obtain ⟨hex, four⟩ := code
  simp [textSteps, textStep, textSteps_digits hex four ends]

theorem textSteps_second {cs : List Char} {high n : Nat} (code : Code cs n) {next : Piece}
    {more : List Char} (ends : codeEnd n (some high) = .go next more) :
    textSteps (.pairDue high) cs = some (next, more) := by
  obtain ⟨hex, four⟩ := code
  simp [textSteps, textStep, textSteps_digits hex four ends]

theorem textSteps_spells {cs : List Char} {c : Char} (spells : Spells cs c) :
    textSteps .plain cs = some (.plain, [c]) := by
  cases spells with
  | plain visible no_quote no_backslash =>
    simp [textSteps, textStep, no_quote, no_backslash, Nat.not_lt.2 visible]
  | @letter l c known =>
    have no_code : l ≠ 'u' := by
      rintro rfl
      simp [letters] at known
    simp [textSteps, textStep, no_code, escapeLetter_eq_some_iff.2 known]
  | code one not_high not_low =>
    exact textSteps_code one ((if_neg not_high).trans (if_neg not_low))
  | @pair cs cs' high low first second is_high is_low =>
    have begins : codeEnd high none = .go (.pairDue high) [] := if_pos is_high
    have ends : codeEnd low (some high) =
        .go .plain [Char.ofNat (0x10000 + (high - 0xD800) * 0x400 + (low - 0xDC00))] :=
      if_pos is_low
    rw [textSteps_append, textSteps_code first begins, Option.bind_some,
      textSteps_second second ends]
    rfl

theorem textSteps_spelled {cs text : List Char} (spelled : Spelled cs text) :
    textSteps .plain cs = some (.plain, text) := by
  induction spelled with
  | nil => rfl
  | concat before last ih =>
    rw [textSteps_append, ih, Option.bind_some, textSteps_spells last]
    rfl

end OutboxRelay.HeaderBlob
