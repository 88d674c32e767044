import OutboxRelay.Text.Utf8
import Mathlib.Algebra.Group.Nat.Defs

/-! The bytes of a text are read back as that text, whatever bytes follow. So a text can be cut at a
byte exactly where one of its characters ends. What bytes that no text has are read as is not said. -/

namespace OutboxRelay.Text

/-- A byte after the first one of a character: the six bits of `n` that stand `k` such bytes before
its end. -/
def tailByte (n k : Nat) : UInt8 := UInt8.ofNat (0x80 + n / Nat.pow 64 k % 64)

theorem toNat_tailByte (n k : Nat) : (tailByte n k).toNat = 0x80 + n / 64 ^ k % 64 := by
  have small : n / 64 ^ k % 64 < 64 := Nat.mod_lt _ (by decide)
  simp only [tailByte, UInt8.toNat_ofNat', Nat.pow_eq]
  omega

theorem utf8Char_cases (c : Char) :
    c.toNat < 0x80 ∧ utf8Char c = [UInt8.ofNat c.toNat] ∨
    0x80 ≤ c.toNat ∧ c.toNat < 0x800 ∧
      utf8Char c = [UInt8.ofNat (0xC0 + c.toNat / 64), tailByte c.toNat 0] ∨
    0x800 ≤ c.toNat ∧ c.toNat < 0x10000 ∧ utf8Char c =
      [UInt8.ofNat (0xE0 + c.toNat / 4096), tailByte c.toNat 1, tailByte c.toNat 0] ∨
    0x10000 ≤ c.toNat ∧ utf8Char c =
      [UInt8.ofNat (0xF0 + c.toNat / 262144), tailByte c.toNat 2, tailByte c.toNat 1,
        tailByte c.toNat 0] := by
  unfold utf8Char
  dsimp only
  split
  · exact .inl ⟨‹_›, rfl⟩
  · split
    · exact .inr (.inl ⟨by omega, ‹_›, rfl⟩)
    · split
      · exact .inr (.inr (.inl ⟨by omega, ‹_›, rfl⟩))
      · exact .inr (.inr (.inr ⟨by omega, rfl⟩))

/-! ### Single bytes -/

theorem decodeFrom_start {b : UInt8} {more value lo hi : Nat} (rest : Bytes)
    (lead : decodeLead b.toNat = (.inside more value lo hi, [])) :
    decodeFrom .start (b :: rest) = decodeFrom (.inside more value lo hi) rest := by
  simp [decodeFrom, decodeByte, lead]

theorem decodeFrom_tailByte {n k lo hi : Nat} (rest : Bytes) (inside : 1 ≤ k)
    (low : lo ≤ (tailByte n k).toNat) (high : (tailByte n k).toNat ≤ hi) :
    decodeFrom (.inside (k + 1) (n / 64 ^ (k + 1)) lo hi) (tailByte n k :: rest) =
      decodeFrom (.inside k (n / 64 ^ k) 0x80 0xBF) rest := by
  have value : n / 64 ^ (k + 1) * 64 + ((tailByte n k).toNat - 0x80) = n / 64 ^ k := by
    rw [toNat_tailByte, Nat.pow_succ, ← Nat.div_div_eq_div_mul]
    omega
  have more : ¬ k + 1 ≤ 1 := by omega
  simp [decodeFrom, decodeByte, low, high, value, more]

theorem decodeFrom_lastByte {n lo hi : Nat} (rest : Bytes) (low : lo ≤ (tailByte n 0).toNat)
    (high : (tailByte n 0).toNat ≤ hi) :
    decodeFrom (.inside 1 (n / 64) lo hi) (tailByte n 0 :: rest) =
      Char.ofNat n :: decodeFrom .start rest := by
  have value : n / 64 * 64 + ((tailByte n 0).toNat - 0x80) = n := by
    rw [toNat_tailByte]
    omega
  simp [decodeFrom, decodeByte, low, high, value]

/-! ### First bytes -/

theorem decodeLead_two {n : Nat} (low : 0x80 ≤ n) (high : n < 0x800) :
    decodeLead (0xC0 + n / 64) = (.inside 1 (n / 64) 0x80 0xBF, []) := by
  have lead : leadByte (0xC0 + n / 64) = some (1, 0x80, 0xBF) := by
    unfold leadByte
    rw [if_pos (by omega)]
  have notAscii : ¬ 0xC0 + n / 64 < 0x80 := by omega
  simp [decodeLead, lead, notAscii]

theorem decodeLead_three {n : Nat} (low : 0x800 ≤ n) (high : n < 0x10000)
    (scalar : n < 0xD800 ∨ 0xDFFF < n) :
    ∃ lo hi, decodeLead (0xE0 + n / 4096) = (.inside 2 (n / 4096) lo hi, []) ∧
      lo ≤ (tailByte n 1).toNat ∧ (tailByte n 1).toNat ≤ hi := by
  rw [toNat_tailByte, Nat.pow_one]
  have of_lead {lo hi : Nat} (lead : leadByte (0xE0 + n / 4096) = some (2, lo, hi)) :
      decodeLead (0xE0 + n / 4096) = (.inside 2 (n / 4096) lo hi, []) := by
    have notAscii : ¬ 0xE0 + n / 4096 < 0x80 := by omega
    simp [decodeLead, lead, notAscii]
  by_cases first : n / 4096 = 0
  · exact ⟨0xA0, 0xBF, of_lead (by rw [first]; rfl), by omega, by omega⟩
  · by_cases surrogate : n / 4096 = 0xD
    · exact ⟨0x80, 0x9F, of_lead (by rw [surrogate]; rfl), by omega, by omega⟩
    · refine ⟨0x80, 0xBF, of_lead ?_, by omega, by omega⟩
      unfold leadByte
      rw [if_neg (by omega), if_neg (by omega), if_neg (by omega), if_pos (by omega)]

theorem decodeLead_four {n : Nat} (low : 0x10000 ≤ n) (high : n < 0x110000) :
    ∃ lo hi, decodeLead (0xF0 + n / 262144) = (.inside 3 (n / 262144) lo hi, []) ∧
      lo ≤ (tailByte n 2).toNat ∧ (tailByte n 2).toNat ≤ hi := by
  rw [toNat_tailByte]
  have of_lead {lo hi : Nat} (lead : leadByte (0xF0 + n / 262144) = some (3, lo, hi)) :
      decodeLead (0xF0 + n / 262144) = (.inside 3 (n / 262144) lo hi, []) := by
    have notAscii : ¬ 0xF0 + n / 262144 < 0x80 := by omega
    simp [decodeLead, lead, notAscii]
  by_cases first : n / 262144 = 0
  · exact ⟨0x90, 0xBF, of_lead (by rw [first]; rfl), by omega, by omega⟩
  · by_cases last : n / 262144 = 4
    · exact ⟨0x80, 0x8F, of_lead (by rw [last]; rfl), by omega, by omega⟩
    · refine ⟨0x80, 0xBF, of_lead ?_, by omega, by omega⟩
      unfold leadByte
      rw [if_neg (by omega), if_neg (by omega), if_neg (by omega), if_neg (by omega),
        if_neg (by omega), if_neg (by omega), if_pos (by omega)]

/-! ### Characters -/

theorem toNat_lt_or_lt (c : Char) : c.toNat < 0xD800 ∨ 0xDFFF < c.toNat ∧ c.toNat < 0x110000 :=
  c.valid

theorem tailByte_inside (n k : Nat) :
    0x80 ≤ (tailByte n k).toNat ∧ (tailByte n k).toNat ≤ 0xBF := by
  rw [toNat_tailByte]
  omega

theorem toNat_ofNat_of_lt {n : Nat} (ascii : n < 0x80) : (Char.ofNat n).toNat = n := by
  have valid : n.isValidChar := .inl (by omega)
  rw [Char.ofNat, dif_pos valid]
  rfl

theorem utf8Char_ofNat_of_lt {b : UInt8} (ascii : b.toNat < 0x80) :
    utf8Char (Char.ofNat b.toNat) = [b] := by
  have same := toNat_ofNat_of_lt ascii
  rcases utf8Char_cases (Char.ofNat b.toNat) with ⟨-, bytes⟩ | ⟨low, -⟩ | ⟨low, -⟩ | ⟨low, -⟩
  · rw [bytes, same, UInt8.ofNat_toNat]
  all_goals omega

theorem utf8Char_ascii_or (c : Char) :
    (c.toNat < 0x80 ∧ utf8Char c = [UInt8.ofNat c.toNat]) ∨
      (0x80 ≤ c.toNat ∧ utf8Char c ≠ [] ∧ ∀ b ∈ utf8Char c, 0x80 ≤ b.toNat) := by
  have valid := toNat_lt_or_lt c
  have lead (n : Nat) (small : n < 256) : (UInt8.ofNat n).toNat = n := Nat.mod_eq_of_lt small
  rcases utf8Char_cases c with
    ⟨ascii, bytes⟩ | ⟨low, high, bytes⟩ | ⟨low, high, bytes⟩ | ⟨low, bytes⟩
  · exact .inl ⟨ascii, bytes⟩
  all_goals
    rw [bytes]
    refine .inr ⟨by omega, List.cons_ne_nil _ _, ?_⟩
    simp only [List.forall_mem_cons, List.not_mem_nil, false_imp_iff, implies_true, and_true,
      tailByte_inside]
    rw [lead _ (by omega)]
    omega

theorem length_utf8Char_pos (c : Char) : 0 < (utf8Char c).length := by
  rcases utf8Char_ascii_or c with ⟨-, bytes⟩ | ⟨-, some_byte, -⟩
  · rw [bytes]
    exact Nat.one_pos
  · exact List.length_pos_iff.2 some_byte

theorem length_utf8Chars_cons (c : Char) (cs : List Char) :
    (utf8Chars (c :: cs)).length = (utf8Char c).length + (utf8Chars cs).length :=
  List.length_append

theorem decodeFrom_utf8Char (c : Char) (rest : Bytes) :
    decodeFrom .start (utf8Char c ++ rest) = c :: decodeFrom .start rest := by
  have valid := toNat_lt_or_lt c
  have char : Char.ofNat c.toNat = c := Char.ofNat_toNat c
  have last : decodeFrom (.inside 1 (c.toNat / 64) 0x80 0xBF) (tailByte c.toNat 0 :: rest) =
      c :: decodeFrom .start rest := by
    obtain ⟨low, high⟩ := tailByte_inside c.toNat 0
    rw [decodeFrom_lastByte rest low high, char]
  have lead (b : Nat) (small : b < 256) : (UInt8.ofNat b).toNat = b := Nat.mod_eq_of_lt small
  rcases utf8Char_cases c with
    ⟨ascii, bytes⟩ | ⟨low, high, bytes⟩ | ⟨low, high, bytes⟩ | ⟨low, bytes⟩
  · rw [bytes, List.singleton_append]
    simp [decodeFrom, decodeByte, decodeLead, lead c.toNat (by omega), ascii, char]
  · have first := decodeLead_two low high
    rw [← lead (0xC0 + c.toNat / 64) (by omega)] at first
    rw [bytes]
    calc decodeFrom .start (_ :: tailByte c.toNat 0 :: rest)
        = decodeFrom (.inside 1 (c.toNat / 64) 0x80 0xBF) (tailByte c.toNat 0 :: rest) :=
          decodeFrom_start _ first
      _ = c :: decodeFrom .start rest := last
  · obtain ⟨lo, hi, first, above, below⟩ := decodeLead_three low high (by omega)
    rw [← lead (0xE0 + c.toNat / 4096) (by omega)] at first
    rw [bytes]
    calc decodeFrom .start (_ :: tailByte c.toNat 1 :: tailByte c.toNat 0 :: rest)
        = decodeFrom (.inside 2 (c.toNat / 4096) lo hi)
            (tailByte c.toNat 1 :: tailByte c.toNat 0 :: rest) := decodeFrom_start _ first
      _ = decodeFrom (.inside 1 (c.toNat / 64) 0x80 0xBF) (tailByte c.toNat 0 :: rest) :=
          decodeFrom_tailByte _ (Nat.le_refl 1) above below
      _ = c :: decodeFrom .start rest := last
  · obtain ⟨lo, hi, first, above, below⟩ := decodeLead_four low (by omega)
    rw [← lead (0xF0 + c.toNat / 262144) (by omega)] at first
    obtain ⟨low, high⟩ := tailByte_inside c.toNat 1
    rw [bytes]
    calc decodeFrom .start
          (_ :: tailByte c.toNat 2 :: tailByte c.toNat 1 :: tailByte c.toNat 0 :: rest)
        = decodeFrom (.inside 3 (c.toNat / 262144) lo hi)
            (tailByte c.toNat 2 :: tailByte c.toNat 1 :: tailByte c.toNat 0 :: rest) :=
          decodeFrom_start _ first
      _ = decodeFrom (.inside 2 (c.toNat / 64 ^ 2) 0x80 0xBF)
            (tailByte c.toNat 1 :: tailByte c.toNat 0 :: rest) :=
          decodeFrom_tailByte _ (by omega) above below
      _ = decodeFrom (.inside 1 (c.toNat / 64) 0x80 0xBF) (tailByte c.toNat 0 :: rest) :=
          decodeFrom_tailByte _ (Nat.le_refl 1) low high
      _ = c :: decodeFrom .start rest := last

/-! ### Texts -/

theorem utf8_append (a b : String) : utf8 (a ++ b) = utf8 a ++ utf8 b := by
  rw [utf8, String.toList_append, utf8Chars_append]
  rfl

theorem decodeUtf8_append (cs : List Char) (rest : Bytes) :
    decodeUtf8 (utf8Chars cs ++ rest) = cs ++ decodeUtf8 rest := by
  induction cs with
  | nil => rfl
  | cons c more ih =>
    calc decodeUtf8 (utf8Chars (c :: more) ++ rest)
        = decodeFrom .start (utf8Char c ++ (utf8Chars more ++ rest)) := by
          rw [← List.append_assoc]
          rfl
      _ = c :: decodeUtf8 (utf8Chars more ++ rest) := decodeFrom_utf8Char c _
      _ = c :: more ++ decodeUtf8 rest := by rw [ih, List.cons_append]

theorem decodeUtf8_utf8Chars (cs : List Char) : decodeUtf8 (utf8Chars cs) = cs := by
  rw [← List.append_nil (utf8Chars cs), decodeUtf8_append]
  exact List.append_nil cs

theorem textOfUtf8_utf8 (s : String) : textOfUtf8 (utf8 s) = s := by
  rw [textOfUtf8, utf8, decodeUtf8_utf8Chars, String.ofList_toList]

theorem textOfUtf8?_eq_some_iff {bytes : Bytes} {s : String} :
    textOfUtf8? bytes = some s ↔ utf8 s = bytes := by
  unfold textOfUtf8?
  dsimp only
  constructor
  · intro read
    split at read
    · rename_i same
      rw [← Option.some.inj read, same]
    · cases read
  · rintro rfl
    rw [textOfUtf8_utf8, if_pos rfl]

/-! ### Cutting at a byte -/

/-- The text of the first `count` bytes; `none` where there are fewer bytes, or where they end
inside a character. -/
def firstBytes? (count : Nat) (s : String) : Option String :=
  if count ≤ (utf8 s).length then textOfUtf8? ((utf8 s).take count) else none

theorem firstBytes?_eq_some_iff {count : Nat} {s front : String} :
    firstBytes? count s = some front ↔ (utf8 front).length = count ∧ ∃ rest, s = front ++ rest := by
  unfold firstBytes?
  constructor
  · intro cut
    split at cut
    · rename_i enough
      have bytes := textOfUtf8?_eq_some_iff.1 cut
      refine ⟨by rw [bytes, List.length_take, Nat.min_eq_left enough], ?_⟩
      -- Behind the bytes of a text the decoder is between two characters, so the rest is read alone.
      refine ⟨String.ofList (decodeUtf8 ((utf8 s).drop count)), ?_⟩
      calc s = String.ofList (decodeUtf8 (utf8 s)) := (textOfUtf8_utf8 s).symm
        _ = String.ofList (decodeUtf8 (utf8 front ++ (utf8 s).drop count)) := by
            rw [bytes, List.take_append_drop]
        _ = front ++ String.ofList (decodeUtf8 ((utf8 s).drop count)) := by
            rw [utf8, decodeUtf8_append, String.ofList_append, String.ofList_toList]
    · cases cut
  · rintro ⟨rfl, rest, rfl⟩
    have enough : (utf8 front).length ≤ (utf8 front ++ utf8 rest).length := by simp
    rw [utf8_append, if_pos enough, List.take_left, textOfUtf8?_eq_some_iff]

example : firstBytes? 2 "né" = none := by decide

end OutboxRelay.Text
