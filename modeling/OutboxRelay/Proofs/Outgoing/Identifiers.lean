import OutboxRelay.Outgoing

/-! The texts that are made of drawn identifiers are of the form in which their readers look for
them, whatever the random bits are. Two digits of an identifier are not random: the version digit is
never zero, so no identifier and no first half of one consists of zeros alone. -/

namespace OutboxRelay

namespace Text

theorem isLowerHex_hexDigit : ∀ n < 16, isLowerHex (hexDigit n) = true := by decide

theorem isLowerHex_of_mem_hexDigits {width n : Nat} {c : Char} (member : c ∈ hexDigits width n) :
    isLowerHex c = true := by
  induction width generalizing n with
  | zero => cases member
  | succ width ih =>
    rcases List.mem_append.1 member with first | last
    · exact ih first
    · rw [List.mem_singleton.1 last]
      exact isLowerHex_hexDigit _ (Nat.mod_lt _ (by decide))

theorem ne_hyphen_of_isLowerHex {c : Char} (hex : isLowerHex c = true) : c ≠ '-' := by
  rintro rfl
  exact absurd hex (by decide)

end Text

open Text

namespace Uuid

variable (u : Uuid)

theorem isLowerHex_of_mem_digits {c : Char} (member : c ∈ u.digits) : isLowerHex c = true := by
  simp only [digits, List.mem_append, List.mem_cons] at member
  rcases member with head | version | middle | variant | tail
  · exact isLowerHex_of_mem_hexDigits head
  · rw [version]
    rfl
  · exact isLowerHex_of_mem_hexDigits middle
  · rw [variant]
    exact isLowerHex_hexDigit _ (by omega)
  · exact isLowerHex_of_mem_hexDigits tail

theorem version_digit : u.digits[12]? = some '4' := by
  rw [digits, List.getElem?_append_right (Nat.le_of_eq (hexDigits_length ..)), hexDigits_length]
  rfl

theorem variant_digit : u.digits[16]? = some (hexDigit (8 + u.variant.toNat)) := by
  rw [digits, List.getElem?_append_right (by rw [hexDigits_length]; decide), hexDigits_length,
    List.getElem?_cons_succ, List.getElem?_append_right (Nat.le_of_eq (hexDigits_length ..)),
    hexDigits_length]
  rfl

theorem variant_digit_mem :
    [some '8', some '9', some 'a', some 'b'].contains u.digits[16]? = true := by
  have four : ∀ n < 4, [some '8', some '9', some 'a', some 'b'].contains
      (some (hexDigit (8 + n))) = true := by
    decide
  rw [variant_digit]
  exact four _ u.variant.isLt

theorem filter_hyphenate {digits : List Char} (hex : ∀ c ∈ digits, isLowerHex c = true) :
    (hyphenate digits).filter (· ≠ '-') = digits := by
  have kept {group : List Char} (part : group ⊆ digits) : group.filter (· ≠ '-') = group :=
    List.filter_eq_self.2 fun c member =>
      decide_eq_true (ne_hyphen_of_isLowerHex (hex c (part member)))
  have group (n m : Nat) : ((digits.drop n).take m).filter (· ≠ '-') = (digits.drop n).take m :=
    kept fun _ member => List.mem_of_mem_drop (List.mem_of_mem_take member)
  have hyphen : decide ('-' ≠ '-') = false := rfl
  have rest (n : Nat) : (digits.drop n).take 4 ++ digits.drop (n + 4) = digits.drop n := by
    rw [← List.drop_drop, List.take_append_drop]
  unfold hyphenate
  simp only [List.filter_append, List.filter_cons, hyphen, Bool.false_eq_true, if_false]
  rw [kept (List.take_subset 8 digits), group 8 4, group 12 4, group 16 4,
    kept (List.drop_subset 20 digits), rest 16, rest 12, rest 8, List.take_append_drop]

theorem isHyphenated_hyphenated : isHyphenated u.hyphenated = true := by
  have digits : u.hyphenated.toList.filter (· ≠ '-') = u.digits := by
    rw [hyphenated, String.toList_ofList, filter_hyphenate fun c => u.isLowerHex_of_mem_digits]
  have hex : u.digits.all isLowerHex = true :=
    List.all_eq_true.2 fun c => u.isLowerHex_of_mem_digits
  unfold isHyphenated
  rw [digits]
  dsimp only
  rw [u.digits_length, hex, u.version_digit, u.variant_digit_mem, hyphenated,
    String.toList_ofList]
  simp

end Uuid

namespace Traceparent

theorem isIdentifier_of_digits {u : Uuid} {width : Nat} (long : 12 < width) (short : width ≤ 32) :
    isIdentifier width (u.digits.take width) = true := by
  have length : (u.digits.take width).length = width := by
    rw [List.length_take, u.digits_length, Nat.min_eq_left short]
  have hex : (u.digits.take width).all isLowerHex = true :=
    List.all_eq_true.2 fun c member => u.isLowerHex_of_mem_digits (List.mem_of_mem_take member)
  have version : '4' ∈ u.digits.take width := List.mem_iff_getElem?.2
    ⟨12, by rw [List.getElem?_take_of_lt long, u.version_digit]⟩
  have other : (u.digits.take width).any (· ≠ '0') = true :=
    List.any_eq_true.2 ⟨'4', version, rfl⟩
  rw [isIdentifier, isHexField, length, hex, other, decide_eq_true rfl]
  rfl

theorem toList_ofUuids (trace parent : Uuid) : (ofUuids trace parent).toList =
    ['0', '0'] ++ '-' :: (trace.digits ++ '-' :: (parent.digits.take 16 ++ '-' :: ['0', '1'])) := by
  have front : "00-".toList = ['0', '0', '-'] := rfl
  have back : "-01".toList = ['-', '0', '1'] := rfl
  unfold ofUuids
  rw [String.toList_ofList, front, back]
  simp only [List.cons_append, List.nil_append]

theorem splitAt_ofUuids (trace parent : Uuid) : splitAt '-' (ofUuids trace parent).toList =
    [['0', '0'], trace.digits, parent.digits.take 16, ['0', '1']] := by
  have inside {cs : List Char} (hex : ∀ c ∈ cs, isLowerHex c = true) : splitAt '-' cs = [cs] :=
    pieces_of_not_separator fun c member =>
      decide_eq_false (ne_hyphen_of_isLowerHex (hex c member))
  have cut (before after : List Char) : splitAt '-' (before ++ '-' :: after) =
      splitAt '-' before ++ splitAt '-' after :=
    pieces_append_separator (decide_eq_true rfl) before after
  rw [toList_ofUuids, cut ['0', '0'], cut trace.digits, cut (parent.digits.take 16),
    inside fun c => trace.isLowerHex_of_mem_digits,
    inside fun c member => parent.isLowerHex_of_mem_digits (List.mem_of_mem_take member)]
  rfl

theorem isValid_ofUuids (trace parent : Uuid) : isValid (ofUuids trace parent) = true := by
  have whole : isIdentifier 32 trace.digits = true := by
    have all : trace.digits.take 32 = trace.digits :=
      List.take_of_length_le (Nat.le_of_eq trace.digits_length)
    rw [← all]
    exact isIdentifier_of_digits (by decide) (Nat.le_refl 32)
  have half : isIdentifier 16 (parent.digits.take 16) = true :=
    isIdentifier_of_digits (by decide) (by decide)
  rw [isValid, splitAt_ofUuids]
  dsimp only
  rw [whole, half]
  rfl

theorem exists_ofUuids_eq (trace parent : Uuid) : ∃ head, ofUuids trace parent = head ++ "-01" := by
  let head := "00-".toList ++ trace.digits ++ '-' :: parent.digits.take 16
  refine ⟨.ofList head, ?_⟩
  calc ofUuids trace parent
      = .ofList (head ++ "-01".toList) := by
        unfold ofUuids head
        rw [List.append_assoc ("00-".toList ++ trace.digits), List.cons_append]
    _ = .ofList head ++ "-01" := by
        rw [String.ofList_append, String.ofList_toList]

end Traceparent

end OutboxRelay
