import OutboxRelay.Proofs.Outgoing.TraceContext

/-! Trace contexts that are made of drawn identifiers. An identifier is a number of 128 bits, six of
which are not random: the version, which is 4, and the variant. Its text without hyphens is that
number in 32 digits. The version is the thirteenth of them, so neither the text nor its first half
consists of zeros alone, whatever is drawn. -/

namespace OutboxRelay

namespace Text

theorem hexDigits_one {n : Nat} (small : n < 16) : hexDigits 1 n = [hexDigit n] := by
  rw [hexDigits, hexDigits, List.nil_append, Nat.mod_eq_of_lt small]

theorem hexDigits_add (width high : Nat) {more low : Nat} (small : low < 16 ^ more) :
    hexDigits (width + more) (high * 16 ^ more + low) =
      hexDigits width high ++ hexDigits more low := by
  induction more generalizing low with
  | zero =>
    have none : low = 0 := Nat.lt_one_iff.1 small
    rw [none, Nat.pow_zero, Nat.mul_one, hexDigits, List.append_nil]
    rfl
  | succ more ih =>
    have shift : high * 16 ^ (more + 1) = high * 16 ^ more * 16 := by
      rw [Nat.pow_succ, Nat.mul_assoc]
    have quotient : (high * 16 ^ (more + 1) + low) / 16 = high * 16 ^ more + low / 16 := by omega
    have remainder : (high * 16 ^ (more + 1) + low) % 16 = low % 16 := by omega
    have less : low / 16 < 16 ^ more := by
      rw [Nat.pow_succ] at small
      omega
    rw [← Nat.add_assoc, hexDigits, quotient, remainder, ih less, List.append_assoc, hexDigits]

end Text

open Text

namespace Uuid

variable (u : Uuid)

/-- All bits of an identifier: the version after the first group of random ones, the variant after
the second. -/
def bits : BitVec 128 := u.head ++ 4#4 ++ u.middle ++ 2#2 ++ u.variant ++ u.tail

def simple : String := String.ofList (hexDigits 32 u.bits.toNat)

theorem toNat_bits : u.bits.toNat =
    (((u.head.toNat * 16 ^ 1 + 4) * 16 ^ 3 + u.middle.toNat) * 16 ^ 1 + (8 + u.variant.toNat))
      * 16 ^ 15 + u.tail.toNat := by
  have value {m n : Nat} (x : BitVec m) (y : BitVec n) :
      (x ++ y).toNat = x.toNat * 2 ^ n + y.toNat := by
    rw [BitVec.toNat_append, ← Nat.shiftLeft_add_eq_or_of_lt y.isLt, Nat.shiftLeft_eq]
  have version : (4#4).toNat = 4 := rfl
  have variant : (2#2).toNat = 2 := rfl
  unfold bits
  rw [value, value, value, value, value, version, variant]
  omega

theorem exists_bits_eq_iff (b : BitVec 128) :
    (∃ u : Uuid, u.bits = b) ↔ b.extractLsb' 76 4 = 4#4 ∧ b.extractLsb' 62 2 = 2#2 := by
  have version : (4#4).toNat = 4 := rfl
  have variant : (2#2).toNat = 2 := rfl
  rw [← BitVec.toNat_inj, ← BitVec.toNat_inj, BitVec.extractLsb'_toNat, BitVec.extractLsb'_toNat,
    Nat.shiftRight_eq_div_pow, Nat.shiftRight_eq_div_pow, version, variant]
  constructor
  · rintro ⟨u, rfl⟩
    have middle := u.middle.isLt
    have variant := u.variant.isLt
    have tail := u.tail.isLt
    rw [toNat_bits]
    omega
  · rintro ⟨version, variant⟩
    have bound := b.isLt
    refine ⟨⟨b.extractLsb' 80 48, b.extractLsb' 64 12, b.extractLsb' 60 2, b.extractLsb' 0 60⟩, ?_⟩
    apply BitVec.eq_of_toNat_eq
    rw [toNat_bits]
    simp only [BitVec.extractLsb'_toNat, Nat.shiftRight_eq_div_pow]
    omega

theorem hexDigits_bits : hexDigits 32 u.bits.toNat = u.digits := by
  have version : 4 < 16 ^ 1 := by decide
  have middle : u.middle.toNat < 16 ^ 3 := u.middle.isLt
  have variant : 8 + u.variant.toNat < 16 ^ 1 := by omega
  have tail : u.tail.toNat < 16 ^ 15 := u.tail.isLt
  rw [toNat_bits, hexDigits_add 17 _ tail, hexDigits_add 16 _ variant, hexDigits_add 13 _ middle,
    hexDigits_add 12 _ version, hexDigits_one variant, hexDigits_one version, digits]
  simp only [List.append_assoc, List.singleton_append]
  rfl

theorem toList_simple : u.simple.toList = u.digits := by
  rw [simple, String.toList_ofList, hexDigits_bits]

theorem hyphen_not_mem_simple : '-' ∉ u.simple.toList := by
  rw [toList_simple]
  intro member
  exact ne_hyphen_of_isLowerHex (u.isLowerHex_of_mem_digits member) rfl

theorem firstBytes?_simple :
    firstBytes? 16 u.simple = some (String.ofList (u.digits.take 16)) := by
  have hex : ∀ c ∈ u.digits.take 16, isLowerHex c = true := fun c member =>
    u.isLowerHex_of_mem_digits (List.mem_of_mem_take member)
  refine firstBytes?_eq_some_iff.2 ⟨?_, String.ofList (u.digits.drop 16), ?_⟩
  · rw [utf8, String.toList_ofList, length_utf8Chars_of_isLowerHex hex, List.length_take,
      u.digits_length]
    rfl
  · rw [← String.toList_inj, toList_simple, String.toList_append, String.toList_ofList,
      String.toList_ofList, List.take_append_drop]

end Uuid

namespace Traceparent

/-- Two drawn identifiers, whatever their random bits are, make a trace context that is marked as
sampled. Its second field is cut from the text of the second identifier: a character ends at the
sixteenth byte of that text, and the digits up to there are not zeros alone. -/
theorem drawn_isValid (trace parent : Uuid) :
    ∃ half, firstBytes? 16 parent.simple = some half ∧ IsIdentifier 16 half ∧
      ofUuids trace parent = "00-" ++ trace.simple ++ "-" ++ half ++ "-01" ∧
      isValid (ofUuids trace parent) = true := by
  let half := String.ofList (parent.digits.take 16)
  have halfDigits : half.toList = parent.digits.take 16 := String.toList_ofList
  have halfId : IsIdentifier 16 half := by
    apply isIdentifier_iff.1
    rw [halfDigits]
    exact isIdentifier_of_digits (by decide) (by decide)
  -- The text is its pieces, joined, and none of them holds a hyphen.
  have cut : splitAt '-' (ofUuids trace parent).toList =
      [['0', '0'], trace.simple.toList, half.toList, "01".toList] := by
    rw [splitAt_ofUuids, trace.toList_simple, halfDigits]
    rfl
  have joined : ofUuids trace parent = "00-" ++ trace.simple ++ "-" ++ half ++ "-" ++ "01" :=
    (splitAt_eq_fields_iff trace.hyphen_not_mem_simple halfId.hyphen_not_mem (by decide)).1 cut
  refine ⟨half, parent.firstBytes?_simple, halfId, ?_, isValid_ofUuids trace parent⟩
  have sampled : "-" ++ "01" = "-01" := rfl
  rw [joined, String.append_assoc, sampled]

/-- With random bits that are all zero, the version is the only digit of the half that is not. -/
example : ofUuids ⟨0, 0, 0, 0⟩ ⟨0, 0, 0, 0⟩ =
    "00-00000000000040008000000000000000-0000000000004000-01" := by
  decide

end Traceparent

end OutboxRelay
