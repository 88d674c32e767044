import OutboxRelay.Text.Digits

/-! Random identifiers: UUIDs of version 4, their text, and a source to draw them from.
The digits 12 and 16, counted from 0, carry version and variant; all others are random. -/

namespace OutboxRelay

open Text

/-- The 122 random bits of a version-4 UUID, in the order of its digits. -/
structure Uuid where
  head : BitVec 48
  middle : BitVec 12
  variant : BitVec 2
  tail : BitVec 60
deriving DecidableEq

namespace Uuid

def digits (u : Uuid) : List Char :=
  hexDigits 12 u.head.toNat ++ '4' :: (hexDigits 3 u.middle.toNat ++
    hexDigit (8 + u.variant.toNat) :: hexDigits 15 u.tail.toNat)

theorem digits_length (u : Uuid) : u.digits.length = 32 := by
  simp [digits, hexDigits_length]

def hyphenate (digits : List Char) : List Char :=
  digits.take 8 ++ '-' :: ((digits.drop 8).take 4 ++ '-' :: ((digits.drop 12).take 4 ++
    '-' :: ((digits.drop 16).take 4 ++ '-' :: digits.drop 20)))

def hyphenated (u : Uuid) : String := String.ofList (hyphenate u.digits)

def isHyphenated (s : String) : Bool :=
  let digits := s.toList.filter (· ≠ '-')
  digits.length = 32 && digits.all isLowerHex && s.toList = hyphenate digits
    && digits[12]? = some '4'
    && [some '8', some '9', some 'a', some 'b'].contains digits[16]?

def ofNat (n : Nat) : Uuid :=
  ⟨.ofNat 48 (n / Nat.pow 2 74), .ofNat 12 (n / Nat.pow 2 62), .ofNat 2 (n / Nat.pow 2 60),
    .ofNat 60 n⟩

end Uuid

structure IdSource where
  draws : Nat → Uuid
  used : Nat

namespace IdSource

def draw (ids : IdSource) : Uuid × IdSource := (ids.draws ids.used, { ids with used := ids.used + 1 })

/-- Different draws spread over all digits: multiples of an odd constant. -/
def counting : IdSource := ⟨fun n => .ofNat ((n + 1) * 0x9E3779B97F4A7C15F39CC0605CEDC83), 0⟩

end IdSource

end OutboxRelay
