/-! Digits of numbers: hexadecimal text of a fixed width, and decimal text read strictly. -/

namespace OutboxRelay.Text

def hexDigit (n : Nat) : Char :=
  if n < 10 then Char.ofNat (0x30 + n) else Char.ofNat (0x61 + (n - 10))

def hexDigits : (width : Nat) → (n : Nat) → List Char
  | 0, _ => []
  | width + 1, n => hexDigits width (n / 16) ++ [hexDigit (n % 16)]

theorem hexDigits_length (width n : Nat) : (hexDigits width n).length = width := by
  induction width generalizing n with
  | zero => rfl
  | succ width ih => simp [hexDigits, ih]

def hexValue (c : Char) : Option Nat :=
  if '0' ≤ c ∧ c ≤ '9' then some (c.toNat - 0x30)
  else if 'a' ≤ c ∧ c ≤ 'f' then some (c.toNat - 0x61 + 10)
  else if 'A' ≤ c ∧ c ≤ 'F' then some (c.toNat - 0x41 + 10)
  else none

def isLowerHex (c : Char) : Bool := ('0' ≤ c && c ≤ '9') || ('a' ≤ c && c ≤ 'f')

def hexText (n : Nat) : List Char := Nat.toDigits 16 n

/-- Value of a digit sequence in `base`, most significant first; `none` on a foreign character. -/
def digitsValue (base : Nat) (cs : List Char) : Option Nat :=
  cs.foldl (fun acc c => do
    let value ← acc
    let digit ← hexValue c
    if digit < base then some (value * base + digit) else none) (some 0)

def readNatural (bits : Nat) (cs : List Char) : Option Nat := do
  let digits := match cs with
    | '+' :: rest => rest
    | _ => cs
  if digits.isEmpty then none
  let n ← digitsValue 10 digits
  if n < Nat.pow 2 bits then some n else none

def readInteger (bits : Nat) (cs : List Char) : Option Int := do
  let (negative, digits) := match cs with
    | '+' :: rest => (false, rest)
    | '-' :: rest => (true, rest)
    | _ => (false, cs)
  if digits.isEmpty then none
  let n ← digitsValue 10 digits
  if negative then if n ≤ Nat.pow 2 (bits - 1) then some (-(n : Int)) else none
  else if n < Nat.pow 2 (bits - 1) then some (n : Int) else none

end OutboxRelay.Text
