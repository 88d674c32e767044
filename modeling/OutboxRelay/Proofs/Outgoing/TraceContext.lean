import OutboxRelay.Proofs.Outgoing.Identifiers
import OutboxRelay.Proofs.Text.Utf8

/-! The form of a trace context, said by position: `00`, 32 digits, 16 and 2, with a hyphen between
two of them, and zeros alone in neither of the two identifiers. The reader cuts a text at its hyphens
and looks at the pieces. No digit is a hyphen, so it finds this form and no other. Whether it measures
a piece in characters or in bytes makes no difference: a digit is one byte, and no other character has
bytes of digits only. -/

namespace OutboxRelay

namespace Text

def lowerHexDigits : String := "0123456789abcdef"

theorem isLowerHex_iff (c : Char) : isLowerHex c = true ↔ c ∈ lowerHexDigits.toList := by
  -- Both ranges end within ASCII, which is small enough to be looked through.
  have listed : ∀ n < 0x80, isLowerHex (Char.ofNat n) = true →
      Char.ofNat n ∈ lowerHexDigits.toList := by decide
  have digits : lowerHexDigits.toList.all isLowerHex = true := by decide
  refine ⟨fun hex => ?_, List.all_eq_true.1 digits c⟩
  have ascii : c.toNat < 0x80 := by
    simp only [isLowerHex, Bool.or_eq_true, Bool.and_eq_true, decide_eq_true_eq, Char.le_def,
      UInt32.le_iff_toNat_le] at hex
    have last : '9'.val.toNat < 0x80 ∧ 'f'.val.toNat < 0x80 := by decide
    rcases hex with ⟨-, high⟩ | ⟨-, high⟩
    · exact Nat.lt_of_le_of_lt high last.1
    · exact Nat.lt_of_le_of_lt high last.2
  have same : Char.ofNat c.toNat = c := Char.ofNat_toNat c
  rw [← same] at hex ⊢
  exact listed c.toNat ascii hex

/-! ### Digits and their bytes -/

theorem utf8Char_of_isLowerHex {c : Char} (hex : isLowerHex c = true) :
    utf8Char c = [UInt8.ofNat c.toNat] := by
  have single : lowerHexDigits.toList.all (fun c => utf8Char c = [UInt8.ofNat c.toNat]) = true := by
    decide
  exact of_decide_eq_true (List.all_eq_true.1 single c ((isLowerHex_iff c).1 hex))

theorem isLowerHex_iff_bytes (c : Char) :
    isLowerHex c = true ↔ ∀ b ∈ utf8Char c, b ∈ utf8 lowerHexDigits := by
  constructor
  · intro hex b member
    exact List.mem_flatMap.2 ⟨c, (isLowerHex_iff c).1 hex, member⟩
  · intro bytes
    have ascii : (utf8 lowerHexDigits).all (fun b => b.toNat < 0x80) = true := by decide
    have digits : (utf8 lowerHexDigits).all (fun b => isLowerHex (Char.ofNat b.toNat)) = true := by
      decide
    rcases utf8Char_ascii_or c with ⟨small, single⟩ | ⟨-, nonempty, beyond⟩
    · have value : (UInt8.ofNat c.toNat).toNat = c.toNat := Nat.mod_eq_of_lt (by omega)
      have hex := List.all_eq_true.1 digits _ (bytes _ (single ▸ List.mem_cons_self))
      rwa [value, Char.ofNat_toNat] at hex
    · obtain ⟨b, member⟩ := List.exists_mem_of_ne_nil _ nonempty
      have low := of_decide_eq_true (List.all_eq_true.1 ascii b (bytes b member))
      exact absurd low (Nat.not_lt.2 (beyond b member))

theorem length_utf8Chars_of_isLowerHex {cs : List Char} (hex : ∀ c ∈ cs, isLowerHex c = true) :
    (utf8Chars cs).length = cs.length := by
  induction cs with
  | nil => rfl
  | cons c rest ih =>
    obtain ⟨first, others⟩ := List.forall_mem_cons.1 hex
    rw [length_utf8Chars_cons, utf8Char_of_isLowerHex first, ih others, List.length_singleton,
      List.length_cons, Nat.add_comm]

end Text

open Text

namespace Traceparent

structure IsHex (width : Nat) (text : String) : Prop where
  length : text.length = width
  digits : ∀ c ∈ text.toList, c ∈ "0123456789abcdef".toList

structure IsIdentifier (width : Nat) (text : String) : Prop extends IsHex width text where
  notZero : ¬ ∀ c ∈ text.toList, c = '0'

/-! ### Fields -/

theorem isHexField_iff {width : Nat} {text : String} :
    isHexField width text.toList = true ↔ IsHex width text := by
  rw [isHexField, Bool.and_eq_true, decide_eq_true_eq, List.all_eq_true, String.length_toList]
  constructor
  · rintro ⟨length, digits⟩
    exact ⟨length, fun c member => (isLowerHex_iff c).1 (digits c member)⟩
  · rintro ⟨length, digits⟩
    exact ⟨length, fun c member => (isLowerHex_iff c).2 (digits c member)⟩

theorem isHexField_iff_bytes {width : Nat} {cs : List Char} :
    isHexField width cs = true ↔
      (utf8Chars cs).length = width ∧ ∀ b ∈ utf8Chars cs, b ∈ utf8 lowerHexDigits := by
  have digits : (∀ b ∈ utf8Chars cs, b ∈ utf8 lowerHexDigits) ↔ ∀ c ∈ cs, isLowerHex c = true := by
    simp only [isLowerHex_iff_bytes]
    exact List.forall_mem_flatMap
  rw [isHexField, Bool.and_eq_true, decide_eq_true_eq, List.all_eq_true, digits]
  refine and_congr_left fun hex => ?_
  rw [length_utf8Chars_of_isLowerHex hex]

theorem isIdentifier_iff {width : Nat} {text : String} :
    isIdentifier width text.toList = true ↔ IsIdentifier width text := by
  have zeros : text.toList.any (· ≠ '0') = true ↔ ¬ ∀ c ∈ text.toList, c = '0' := by
    simp
  rw [isIdentifier, Bool.and_eq_true, isHexField_iff, zeros]
  constructor
  · rintro ⟨hex, notZero⟩
    exact ⟨hex, notZero⟩
  · intro id
    exact ⟨id.toIsHex, id.notZero⟩

theorem IsHex.length_utf8 {width : Nat} {text : String} (hex : IsHex width text) :
    (utf8 text).length = width :=
  (isHexField_iff_bytes.1 (isHexField_iff.2 hex)).1

theorem IsHex.hyphen_not_mem {width : Nat} {text : String} (hex : IsHex width text) :
    '-' ∉ text.toList := by
  intro member
  exact absurd (hex.digits '-' member) (by decide)

/-! ### The whole text -/

theorem toList_joined (trace parent flags : String) :
    ("00-" ++ trace ++ "-" ++ parent ++ "-" ++ flags).toList =
      ['-'].intercalate [['0', '0'], trace.toList, parent.toList, flags.toList] := by
  have front : "00-".toList = ['0', '0', '-'] := rfl
  have hyphen : "-".toList = ['-'] := rfl
  simp only [String.toList_append, front, hyphen, List.intercalate_cons_cons,
    List.intercalate_singleton, List.append_assoc, List.cons_append, List.nil_append]

theorem splitAt_eq_fields_iff {value trace parent flags : String} (inTrace : '-' ∉ trace.toList)
    (inParent : '-' ∉ parent.toList) (inFlags : '-' ∉ flags.toList) :
    splitAt '-' value.toList = [['0', '0'], trace.toList, parent.toList, flags.toList] ↔
      value = "00-" ++ trace ++ "-" ++ parent ++ "-" ++ flags := by
  have apart : ∀ field ∈ [['0', '0'], trace.toList, parent.toList, flags.toList], '-' ∉ field := by
    simpa using ⟨inTrace, inParent, inFlags⟩
  rw [splitAt_eq_iff (List.cons_ne_nil _ _) apart, ← toList_joined, String.toList_inj]

theorem isValid_iff_split (value : String) : isValid value = true ↔
    ∃ trace parent flags : String,
      splitAt '-' value.toList = [['0', '0'], trace.toList, parent.toList, flags.toList] ∧
      IsIdentifier 32 trace ∧ IsIdentifier 16 parent ∧ IsHex 2 flags := by
  unfold isValid
  constructor
  · intro valid
    split at valid
    · rename_i version trace parent flags cut
      simp only [Bool.and_eq_true, decide_eq_true_eq] at valid
      obtain ⟨⟨⟨rfl, traceId⟩, parentId⟩, flagsHex⟩ := valid
      refine ⟨.ofList trace, .ofList parent, .ofList flags, ?_, ?_, ?_, ?_⟩
      · simp only [String.toList_ofList, cut]
      · exact isIdentifier_iff.1 (by rwa [String.toList_ofList])
      · exact isIdentifier_iff.1 (by rwa [String.toList_ofList])
      · exact isHexField_iff.1 (by rwa [String.toList_ofList])
    · cases valid
  · rintro ⟨trace, parent, flags, cut, traceId, parentId, flagsHex⟩
    rw [cut]
    dsimp only
    rw [isIdentifier_iff.2 traceId, isIdentifier_iff.2 parentId, isHexField_iff.2 flagsHex]
    rfl

/-- A text is a trace context if and only if it is `00-`, an identifier of 32 digits, `-`, one of 16,
`-` and two digits of flags, and nothing else. That makes 55 bytes. -/
theorem isValid_iff_form (value : String) :
    (isValid value = true ↔ ∃ trace parent flags : String,
      value = "00-" ++ trace ++ "-" ++ parent ++ "-" ++ flags ∧
      IsIdentifier 32 trace ∧ IsIdentifier 16 parent ∧ IsHex 2 flags) ∧
    (isValid value = true → (utf8 value).length = 55) := by
  have form : isValid value = true ↔ ∃ trace parent flags : String,
      value = "00-" ++ trace ++ "-" ++ parent ++ "-" ++ flags ∧
      IsIdentifier 32 trace ∧ IsIdentifier 16 parent ∧ IsHex 2 flags := by
    rw [isValid_iff_split]
    refine exists_congr fun trace => exists_congr fun parent => exists_congr fun flags =>
      and_congr_left fun ⟨traceId, parentId, flagsHex⟩ => ?_
    exact splitAt_eq_fields_iff traceId.hyphen_not_mem parentId.hyphen_not_mem
      flagsHex.hyphen_not_mem
  refine ⟨form, fun valid => ?_⟩
  obtain ⟨trace, parent, flags, rfl, traceId, parentId, flagsHex⟩ := form.1 valid
  have front : (utf8 "00-").length = 3 := rfl
  have hyphen : (utf8 "-").length = 1 := rfl
  calc (utf8 ("00-" ++ trace ++ "-" ++ parent ++ "-" ++ flags)).length
      = 3 + (utf8 trace).length + 1 + (utf8 parent).length + 1 + (utf8 flags).length := by
        simp only [utf8_append, List.length_append, front, hyphen]
    _ = 3 + 32 + 1 + 16 + 1 + 2 := by
        rw [traceId.length_utf8, parentId.length_utf8, flagsHex.length_utf8]
    _ = 55 := rfl

theorem isValid_iff_form_of_sampled :
    let value := "00-4bf92f3577b34da6a3ce929d0e0e4736-00f067aa0ba902b7-01"
    isValid value = true ∧ (utf8 value).length = 55 := by
  intro value
  have valid : isValid value = true := by decide
  exact ⟨valid, (isValid_iff_form value).2 valid⟩

end Traceparent

end OutboxRelay
