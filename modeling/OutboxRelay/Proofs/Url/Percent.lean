import OutboxRelay.Proofs.Text.Utf8
import OutboxRelay.Url.Percent

/-! Escaping and its undoing. Undoing the escapes of an escaped text gives what undoing them in the
text itself gives, since no `%` of the text is escaped; so a text that holds an escape of its own is
read as something shorter, and any other text comes back. -/

namespace OutboxRelay.Url

open Text

def byteOfDigits? : List Char → Option (Nat × List Char)
  | a :: b :: rest => do
    let x ← hexValue a
    let y ← hexValue b
    some (x * 16 + y, rest)
  | _ => none

def HasEscape (cs : List Char) : Prop :=
  ∃ a b, ['%', a, b] <:+: cs ∧ (hexValue a).isSome ∧ (hexValue b).isSome

theorem not_hasEscape_of_not_mem {cs : List Char} (none : '%' ∉ cs) : ¬ HasEscape cs :=
  fun ⟨_, _, inside, _⟩ => none (inside.subset List.mem_cons_self)

/-! ### Reading -/

theorem unescape_cons {c : Char} (other : c ≠ '%') (cs : List Char) :
    unescape (c :: cs) = utf8Char c ++ unescape cs := by
  rw [unescape]
  exact fun _ _ _ percent => absurd percent other

theorem unescape_percent (cs : List Char) :
    unescape ('%' :: cs) = match byteOfDigits? cs with
      | some (n, rest) => UInt8.ofNat n :: unescape rest
      | none => utf8Char '%' ++ unescape cs := by
  match cs with
  | [] => rfl
  | [a] => rfl
  | a :: b :: rest =>
    rw [unescape, byteOfDigits?]
    cases hexValue a <;> cases hexValue b <;> rfl

theorem eq_of_byteOfDigits? {cs rest : List Char} {n : Nat}
    (h : byteOfDigits? cs = some (n, rest)) : ∃ a b x y, cs = a :: b :: rest ∧
      hexValue a = some x ∧ hexValue b = some y ∧ n = x * 16 + y := by
  match cs with
  | [] | [_] => cases h
  | a :: b :: rest' =>
    simp only [byteOfDigits?, Option.bind_eq_bind, Option.bind_eq_some_iff] at h
    obtain ⟨x, first, y, second, h⟩ := h
    cases h
    exact ⟨a, b, x, y, rfl, first, second, rfl⟩

theorem unescape_escaped {a b : Char} {x y : Nat} (first : hexValue a = some x)
    (second : hexValue b = some y) (cs : List Char) :
    unescape ('%' :: a :: b :: cs) = UInt8.ofNat (x * 16 + y) :: unescape cs := by
  rw [unescape, first, second]

theorem unescape_percent_of_none {cs : List Char} (none : byteOfDigits? cs = none) :
    unescape ('%' :: cs) = utf8Char '%' ++ unescape cs := by
  rw [unescape_percent, none]

/-- Induction along the reading of a text: an escape is taken as a whole, any other character
alone. -/
@[elab_as_elim]
theorem reading_induction {P : List Char → Prop} (nil : P [])
    (char : ∀ c cs, c ≠ '%' → P cs → P (c :: cs))
    (percent : ∀ cs, byteOfDigits? cs = none → P cs → P ('%' :: cs))
    (escaped : ∀ a b x y cs, hexValue a = some x → hexValue b = some y → P cs →
      P ('%' :: a :: b :: cs)) (cs : List Char) : P cs := by
  induction cs using WellFounded.induction (measure List.length).wf with
  | h cs ih =>
    match cs with
    | [] => exact nil
    | c :: cs =>
      by_cases mark : c = '%'
      · subst mark
        cases digits : byteOfDigits? cs with
        | none => exact percent cs digits (ih cs (Nat.lt_succ_self _))
        | some found =>
          obtain ⟨a, b, x, y, rfl, first, second, -⟩ := eq_of_byteOfDigits? digits
          refine escaped a b x y found.2 first second (ih found.2 ?_)
          change found.2.length < found.2.length + 3
          omega
      · exact char c cs mark (ih cs (Nat.lt_succ_self _))

theorem byteOfDigits?_of_foreign {c : Char} (foreign : hexValue c = none) (cs : List Char) :
    byteOfDigits? (c :: cs) = none := by
  cases cs with
  | nil => rfl
  | cons d rest => simp [byteOfDigits?, foreign]

theorem byteOfDigits?_of_foreign_second (c : Char) {d : Char} (foreign : hexValue d = none)
    (cs : List Char) : byteOfDigits? (c :: d :: cs) = none := by
  cases first : hexValue c <;> simp [byteOfDigits?, first, foreign]

/-! ### Bytes -/

theorem isPrintable_iff (b : UInt8) : isPrintable b = true ↔ 0x20 ≤ b.toNat ∧ b.toNat < 0x7F := by
  simp [isPrintable, UInt8.le_iff_toNat_le, UInt8.lt_iff_toNat_lt]

theorem hexValue_upperHexDigit : ∀ n < 16, hexValue (upperHexDigit n) = some n := by decide

theorem forall_mem_escapeByte {P : Char → Prop} {b : UInt8} (mark : P '%')
    (digit : ∀ n < 16, P (upperHexDigit n)) : ∀ c ∈ escapeByte b, P c := by
  have high : b.toNat / 16 < 16 := by have := b.toNat_lt; omega
  have low : b.toNat % 16 < 16 := Nat.mod_lt _ (by decide)
  simp [escapeByte, mark, digit _ high, digit _ low]

theorem unescape_escapeByte (b : UInt8) (cs : List Char) :
    unescape (escapeByte b ++ cs) = b :: unescape cs := by
  have high : b.toNat / 16 < 16 := by have := b.toNat_lt; omega
  have low : b.toNat % 16 < 16 := Nat.mod_lt _ (by decide)
  have digits : byteOfDigits? (upperHexDigit (b.toNat / 16) :: upperHexDigit (b.toNat % 16) :: cs) =
      some (b.toNat, cs) := by
    have value : b.toNat / 16 * 16 + b.toNat % 16 = b.toNat := by omega
    simp [byteOfDigits?, hexValue_upperHexDigit _ high, hexValue_upperHexDigit _ low, value]
  calc unescape (escapeByte b ++ cs)
      = unescape ('%' :: upperHexDigit (b.toNat / 16) :: upperHexDigit (b.toNat % 16) :: cs) := rfl
    _ = b :: unescape cs := by rw [unescape_percent, digits]; simp

theorem unescape_escapeBytes (escaped : List Char) {bytes : Bytes}
    (noPercent : ∀ b ∈ bytes, b ≠ 0x25) (cs : List Char) :
    unescape (escapeBytes escaped bytes ++ cs) = bytes ++ unescape cs := by
  induction bytes with
  | nil => rfl
  | cons b rest ih =>
    have ih := ih fun b member => noPercent b (List.mem_cons_of_mem _ member)
    rw [escapeBytes, List.flatMap_cons, List.append_assoc, ← escapeBytes]
    dsimp only
    split
    · rename_i printed
      have ascii : b.toNat < 0x80 :=
        Nat.lt_succ_of_lt ((isPrintable_iff b).1 (Bool.and_eq_true_iff.1 printed).1).2
      have other : Char.ofNat b.toNat ≠ '%' := by
        intro percent
        have same := toNat_ofNat_of_lt ascii
        rw [percent] at same
        exact noPercent b List.mem_cons_self (UInt8.toNat_inj.1 same.symm)
      rw [List.singleton_append, unescape_cons other, utf8Char_ofNat_of_lt ascii, ih]
      rfl
    · rw [unescape_escapeByte, ih]
      rfl

/-! ### Texts -/

theorem escape_cons (escaped : List Char) (c : Char) (cs : List Char) :
    escape escaped (c :: cs) = escapeBytes escaped (utf8Char c) ++ escape escaped cs :=
  List.flatMap_append

theorem unescape_escape_cons (escaped : List Char) {c : Char} (other : c ≠ '%') (cs : List Char) :
    unescape (escapeBytes escaped (utf8Char c) ++ cs) = utf8Char c ++ unescape cs := by
  refine unescape_escapeBytes escaped (fun b member percent => ?_) cs
  rcases utf8Char_ascii_or c with ⟨ascii, bytes⟩ | ⟨-, -, beyond⟩
  · have same : c.toNat = ('%' : Char).toNat := by
      have value : (UInt8.ofNat c.toNat).toNat = c.toNat := Nat.mod_eq_of_lt (by omega)
      rw [bytes, List.mem_singleton, percent] at member
      rw [← value, ← member]
      rfl
    exact other (Char.toNat_inj.1 same)
  · have := beyond b member
    rw [percent] at this
    exact absurd this (by decide)

theorem escape_cons_of_printed {escaped : List Char} {c : Char} (low : 0x20 ≤ c.toNat)
    (high : c.toNat < 0x7F) (plain : c ∉ escaped) (cs : List Char) :
    escape escaped (c :: cs) = c :: escape escaped cs := by
  have value : (UInt8.ofNat c.toNat).toNat = c.toNat := Nat.mod_eq_of_lt (by omega)
  have printable : isPrintable (UInt8.ofNat c.toNat) = true :=
    (isPrintable_iff _).2 (by rw [value]; exact ⟨low, high⟩)
  rcases utf8Char_ascii_or c with ⟨-, bytes⟩ | ⟨beyond, -⟩
  · rw [escape_cons, bytes]
    simp [escapeBytes, value, printable, plain, Char.ofNat_toNat]
  · omega

theorem mem_escape {escaped cs : List Char} {d : Char} (member : d ∈ escape escaped cs) :
    d ∈ cs ∨ d = '%' ∨ ∃ n < 16, d = upperHexDigit n := by
  obtain ⟨b, inside, member⟩ := List.mem_flatMap.1 member
  obtain ⟨c, c_mem, inside⟩ := List.mem_flatMap.1 inside
  dsimp only at member
  split at member
  · rename_i printed
    have low := ((isPrintable_iff b).1 (Bool.and_eq_true_iff.1 printed).1).2
    rcases utf8Char_ascii_or c with ⟨ascii, bytes⟩ | ⟨-, -, beyond⟩
    · have value : (UInt8.ofNat c.toNat).toNat = c.toNat := Nat.mod_eq_of_lt (by omega)
      rw [bytes, List.mem_singleton] at inside
      rw [List.mem_singleton, inside, value, Char.ofNat_toNat] at member
      exact .inl (member ▸ c_mem)
    · have := beyond b inside
      omega
  · exact .inr (forall_mem_escapeByte (P := fun d => d = '%' ∨ ∃ n < 16, d = upperHexDigit n)
      (.inl rfl) (fun n small => .inr ⟨n, small, rfl⟩) d member)

theorem escape_cons_cases (escaped : List Char) (c : Char) (cs : List Char) :
    escape escaped (c :: cs) = c :: escape escaped cs ∨
      ∃ more, escape escaped (c :: cs) = '%' :: more := by
  have hidden (b : UInt8) (rest : Bytes)
      (h : ¬ (isPrintable b && !escaped.contains (Char.ofNat b.toNat)) = true) :
      ∃ more, escapeBytes escaped (b :: rest) = '%' :: more := by
    rw [escapeBytes, List.flatMap_cons, if_neg h]
    exact ⟨_, rfl⟩
  rw [escape_cons]
  rcases utf8Char_ascii_or c with ⟨ascii, bytes⟩ | ⟨-, some_byte, beyond⟩
  · have value : (UInt8.ofNat c.toNat).toNat = c.toNat := Nat.mod_eq_of_lt (by omega)
    rw [bytes]
    by_cases h : (isPrintable (UInt8.ofNat c.toNat) &&
        !escaped.contains (Char.ofNat (UInt8.ofNat c.toNat).toNat)) = true
    · left
      rw [escapeBytes, List.flatMap_singleton, if_pos h, value, Char.ofNat_toNat]
      rfl
    · obtain ⟨more, starts⟩ := hidden _ [] h
      exact .inr ⟨more ++ escape escaped cs, by rw [starts]; rfl⟩
  · obtain ⟨b, rest, bytes⟩ := List.exists_cons_of_ne_nil some_byte
    have high : 0x80 ≤ b.toNat := beyond b (bytes ▸ List.mem_cons_self)
    obtain ⟨more, starts⟩ := hidden b rest fun h => by
      have low := ((isPrintable_iff b).1 (Bool.and_eq_true_iff.1 h).1).2
      omega
    exact .inr ⟨more ++ escape escaped cs, by rw [bytes, starts]; rfl⟩

theorem printed_of_hexValue {c : Char} (digit : (hexValue c).isSome) :
    0x20 ≤ c.toNat ∧ c.toNat < 0x7F := by
  have le_iff (a b : Char) : a ≤ b ↔ a.toNat ≤ b.toNat := Iff.rfl
  have ranges : ('0' ≤ c ∧ c ≤ '9') ∨ ('a' ≤ c ∧ c ≤ 'f') ∨ ('A' ≤ c ∧ c ≤ 'F') := by
    refine Decidable.byContradiction fun none => ?_
    obtain ⟨decimal, other⟩ := not_or.1 none
    obtain ⟨lower, upper⟩ := not_or.1 other
    rw [hexValue, if_neg decimal, if_neg lower, if_neg upper] at digit
    cases digit
  simp only [le_iff, Char.reduceToNat] at ranges
  omega

theorem byteOfDigits?_escape {escaped : List Char} (plain : ∀ c ∈ escaped, hexValue c = none)
    (cs : List Char) : byteOfDigits? (escape escaped cs) =
      (byteOfDigits? cs).map fun (n, rest) => (n, escape escaped rest) := by
  have kept (c : Char) (digit : (hexValue c).isSome) (rest : List Char) :
      escape escaped (c :: rest) = c :: escape escaped rest := by
    obtain ⟨low, high⟩ := printed_of_hexValue digit
    refine escape_cons_of_printed low high (fun member => ?_) rest
    rw [plain c member] at digit
    cases digit
  -- what does not begin with a digit does not come to begin with one
  have foreign (c : Char) (other : hexValue c = none) (rest : List Char) :
      ∃ d more, escape escaped (c :: rest) = d :: more ∧ hexValue d = none := by
    rcases escape_cons_cases escaped c rest with same | ⟨more, starts⟩
    · exact ⟨c, _, same, other⟩
    · exact ⟨'%', more, starts, rfl⟩
  match cs with
  | [] => rfl
  | a :: rest =>
    cases first : hexValue a with
    | none =>
      obtain ⟨d, more, starts, none⟩ := foreign a first rest
      rw [starts, byteOfDigits?_of_foreign none, byteOfDigits?_of_foreign first]
      rfl
    | some x =>
      rw [kept a (by rw [first]; rfl)]
      match rest with
      | [] => rfl
      | b :: rest =>
        cases second : hexValue b with
        | none =>
          obtain ⟨d, more, starts, none⟩ := foreign b second rest
          rw [starts, byteOfDigits?_of_foreign_second a none,
            byteOfDigits?_of_foreign_second a second]
          rfl
        | some y =>
          rw [kept b (by rw [second]; rfl)]
          simp [byteOfDigits?, first, second]

theorem unescape_escape {escaped : List Char}
    (plain : ∀ c ∈ escaped, hexValue c = none ∧ c ≠ '%') (cs : List Char) :
    unescape (escape escaped cs) = unescape cs := by
  have digits (cs : List Char) := byteOfDigits?_escape (fun c member => (plain c member).1) cs
  have mark (cs : List Char) : escape escaped ('%' :: cs) = '%' :: escape escaped cs :=
    escape_cons_of_printed (by decide) (by decide) (fun member => (plain _ member).2 rfl) cs
  induction cs using reading_induction with
  | nil => rfl
  | char c cs other ih =>
    rw [escape_cons, unescape_escape_cons escaped other, unescape_cons other, ih]
  | percent cs none ih =>
    have still : byteOfDigits? (escape escaped cs) = Option.none := by
      rw [digits, none]
      rfl
    rw [mark, unescape_percent_of_none none, unescape_percent_of_none still, ih]
  | escaped a b x y cs first second ih =>
    have found : byteOfDigits? (a :: b :: cs) = some (x * 16 + y, cs) := by
      simp [byteOfDigits?, first, second]
    rw [mark, unescape_percent, digits, found, unescape_escaped first second, ← ih]
    rfl

/-! ### Escapes in the text itself -/

theorem length_utf8Chars_of_sublist {part whole : List Char} (sublist : part.Sublist whole) :
    (utf8Chars part).length + whole.length ≤ (utf8Chars whole).length + part.length := by
  induction sublist with
  | slnil => exact Nat.le_refl _
  | cons c sublist ih =>
    have := length_utf8Char_pos c
    rw [length_utf8Chars_cons, List.length_cons]
    omega
  | cons_cons c sublist ih =>
    rw [length_utf8Chars_cons, length_utf8Chars_cons, List.length_cons, List.length_cons]
    omega

theorem eq_of_sublist {part whole : List Char} (sublist : part.Sublist whole)
    (long : (utf8Chars whole).length ≤ (utf8Chars part).length) : part = whole := by
  have := length_utf8Chars_of_sublist sublist
  exact sublist.eq_of_length_le (by omega)

theorem length_unescape_le (cs : List Char) : (unescape cs).length ≤ (utf8Chars cs).length := by
  induction cs using reading_induction with
  | nil => exact Nat.le_refl _
  | char c cs other ih =>
    rw [unescape_cons other, List.length_append, length_utf8Chars_cons]
    omega
  | percent cs none ih =>
    rw [unescape_percent_of_none none, List.length_append, length_utf8Chars_cons]
    omega
  | escaped a b x y cs first second ih =>
    have := length_utf8Char_pos '%'
    rw [unescape_escaped first second, List.length_cons, length_utf8Chars_cons,
      length_utf8Chars_cons, length_utf8Chars_cons]
    omega

theorem unescape_append_percent (before after : List Char) :
    unescape (before ++ '%' :: after) = unescape before ++ unescape ('%' :: after) := by
  induction before using reading_induction with
  | nil => rfl
  | char c cs other ih =>
    rw [List.cons_append, unescape_cons other, unescape_cons other, ih, List.append_assoc]
  | percent cs none ih =>
    have still : byteOfDigits? (cs ++ '%' :: after) = Option.none := by
      match cs with
      | [] => exact byteOfDigits?_of_foreign rfl _
      | [a] => exact byteOfDigits?_of_foreign_second a rfl _
      | a :: b :: rest =>
        rw [List.cons_append, List.cons_append]
        simp only [byteOfDigits?, Option.bind_eq_bind, Option.bind_eq_none_iff] at none ⊢
        intro x first y second
        cases none x first y second
    rw [List.cons_append, unescape_percent_of_none still, unescape_percent_of_none none, ih,
      List.append_assoc]
  | escaped a b x y cs first second ih =>
    rw [List.cons_append, List.cons_append, List.cons_append, unescape_escaped first second,
      unescape_escaped first second, ih, List.cons_append]

theorem unescape_of_not_hasEscape {cs : List Char} (none : ¬ HasEscape cs) :
    unescape cs = utf8Chars cs := by
  have later {c : Char} {cs : List Char} (none : ¬ HasEscape (c :: cs)) : ¬ HasEscape cs :=
    fun ⟨a, b, inside, digits⟩ => none ⟨a, b, List.infix_cons inside, digits⟩
  induction cs using reading_induction with
  | nil => rfl
  | char c cs other ih =>
    rw [unescape_cons other, ih (later none)]
    rfl
  | percent cs plain ih =>
    rw [unescape_percent_of_none plain, ih (later none)]
    rfl
  | escaped a b x y cs first second ih =>
    exact absurd ⟨a, b, ⟨[], cs, rfl⟩, by rw [first]; rfl, by rw [second]; rfl⟩ none

theorem length_unescape_lt {cs : List Char} (escape : HasEscape cs) :
    (unescape cs).length < (utf8Chars cs).length := by
  obtain ⟨a, b, ⟨before, after, rfl⟩, first, second⟩ := escape
  obtain ⟨x, first⟩ := Option.isSome_iff_exists.1 first
  obtain ⟨y, second⟩ := Option.isSome_iff_exists.1 second
  have front := length_unescape_le before
  have back := length_unescape_le after
  have mark := length_utf8Char_pos '%'
  have one := length_utf8Char_pos a
  have two := length_utf8Char_pos b
  have read : unescape (before ++ ['%', a, b] ++ after) =
      unescape before ++ UInt8.ofNat (x * 16 + y) :: unescape after := by
    rw [List.append_assoc]
    exact (unescape_append_percent ..).trans
      (congrArg (unescape before ++ ·) (unescape_escaped first second after))
  rw [read]
  simp only [utf8Chars_append, List.length_append, List.length_cons, length_utf8Chars_cons]
  omega

theorem unescape_eq_utf8Chars_iff (cs : List Char) :
    unescape cs = utf8Chars cs ↔ ¬ HasEscape cs := by
  refine ⟨fun same escape => ?_, unescape_of_not_hasEscape⟩
  exact Nat.ne_of_lt (length_unescape_lt escape) (congrArg List.length same)

end OutboxRelay.Url
