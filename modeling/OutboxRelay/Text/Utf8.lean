/-! UTF-8 bytes of a text, and the text of arbitrary bytes.
Reading never fails: each maximal piece that could still have begun a character, and each byte
that could not, becomes one U+FFFD. -/

namespace OutboxRelay.Text

abbrev Bytes := List UInt8

def utf8Char (c : Char) : Bytes :=
  let n := c.toNat
  let tail (k : Nat) : UInt8 := UInt8.ofNat (0x80 + n / Nat.pow 64 k % 64)
  if n < 0x80 then [UInt8.ofNat n]
  else if n < 0x800 then [UInt8.ofNat (0xC0 + n / 64), tail 0]
  else if n < 0x10000 then [UInt8.ofNat (0xE0 + n / Nat.pow 64 2), tail 1, tail 0]
  else [UInt8.ofNat (0xF0 + n / Nat.pow 64 3), tail 2, tail 1, tail 0]

def utf8Chars (cs : List Char) : Bytes := cs.flatMap utf8Char

def utf8 (s : String) : Bytes := utf8Chars s.toList

theorem utf8Chars_append (a b : List Char) : utf8Chars (a ++ b) = utf8Chars a ++ utf8Chars b := by
  simp [utf8Chars]

/-- Bytes that a lead byte asks for after it, and the range of the first of them.
`none`: the byte leads nothing. -/
def leadByte (b : Nat) : Option (Nat × Nat × Nat) :=
  if 0xC2 ≤ b ∧ b ≤ 0xDF then some (1, 0x80, 0xBF)
  else if b = 0xE0 then some (2, 0xA0, 0xBF)
  else if b = 0xED then some (2, 0x80, 0x9F)
  else if 0xE1 ≤ b ∧ b ≤ 0xEF then some (2, 0x80, 0xBF)
  else if b = 0xF0 then some (3, 0x90, 0xBF)
  else if b = 0xF4 then some (3, 0x80, 0x8F)
  else if 0xF1 ≤ b ∧ b ≤ 0xF3 then some (3, 0x80, 0xBF)
  else none

inductive DecoderState
  | start
  /-- `more` further bytes are due, the next one between `lo` and `hi`; `value` is read so far. -/
  | inside (more value lo hi : Nat)

def replacement : Char := Char.ofNat 0xFFFD

def decodeLead (b : Nat) : DecoderState × List Char :=
  if b < 0x80 then (.start, [Char.ofNat b])
  else match leadByte b with
    | some (1, lo, hi) => (.inside 1 (b - 0xC0) lo hi, [])
    | some (2, lo, hi) => (.inside 2 (b - 0xE0) lo hi, [])
    | some (more, lo, hi) => (.inside more (b - 0xF0) lo hi, [])
    | none => (.start, [replacement])

def decodeByte (s : DecoderState) (b : Nat) : DecoderState × List Char :=
  match s with
  | .start => decodeLead b
  | .inside more value lo hi =>
    if lo ≤ b ∧ b ≤ hi then
      let value := value * 64 + (b - 0x80)
      if more ≤ 1 then (.start, [Char.ofNat value]) else (.inside (more - 1) value 0x80 0xBF, [])
    else
      let (next, cs) := decodeLead b
      (next, replacement :: cs)

def decodeFrom : DecoderState → Bytes → List Char
  | .start, [] => []
  | .inside .., [] => [replacement]
  | s, b :: rest => let (next, cs) := decodeByte s b.toNat; cs ++ decodeFrom next rest

def decodeUtf8 (bytes : Bytes) : List Char := decodeFrom .start bytes

def textOfUtf8 (bytes : Bytes) : String := String.ofList (decodeUtf8 bytes)

def textOfUtf8? (bytes : Bytes) : Option String :=
  let s := textOfUtf8 bytes
  if utf8 s = bytes then some s else none

end OutboxRelay.Text
