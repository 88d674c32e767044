import OutboxRelay.Text.Pieces
import OutboxRelay.Url.Punycode

/-! Domain names in ASCII. Letters become lower case, label by label characters beyond ASCII go
into punycode, and a name with a character that no domain has is refused. The case mapping covers
the Latin, Greek and Cyrillic letters and the full-width forms; other characters are kept. -/

namespace OutboxRelay.Url.Domain

def isForbidden (c : Char) : Bool :=
  c.toNat ≤ 0x20 || (0x7F ≤ c.toNat && c.toNat < 0xA0) || c.toNat = 0xFFFD ||
    ['#', '%', '/', ':', '<', '>', '?', '@', '[', '\\', ']', '^', '|'].contains c

def isIgnored (c : Char) : Bool :=
  [0xAD, 0x200B, 0x2060, 0xFEFF].contains c.toNat || (0xFE00 ≤ c.toNat && c.toNat ≤ 0xFE0F)

def lowerOffsets : List (Nat × Nat × Nat) :=
  [(0x41, 0x5A, 0x20), (0xC0, 0xD6, 0x20), (0xD8, 0xDE, 0x20), (0x391, 0x3A1, 0x20),
   (0x3A3, 0x3AB, 0x20), (0x400, 0x40F, 0x50), (0x410, 0x42F, 0x20)]

def lowerPairs : List (Nat × Nat) :=
  [(0x100, 0x12F), (0x132, 0x137), (0x14A, 0x177), (0x460, 0x481), (0x48A, 0x4BF), (0x4D0, 0x52F),
   (0x1E00, 0x1E95), (0x1EA0, 0x1EFF)]

def lower (c : Char) : Char :=
  let n := c.toNat
  match lowerOffsets.find? fun (lo, hi, _) => lo ≤ n && n ≤ hi with
  | some (_, _, offset) => Char.ofNat (n + offset)
  | none => if n % 2 = 0 ∧ lowerPairs.any fun (lo, hi) => lo ≤ n && n ≤ hi
    then Char.ofNat (n + 1) else c

def narrow (c : Char) : Char :=
  let n := c.toNat
  if n = 0x3002 ∨ n = 0xFF61 then '.'
  else if 0xFF01 ≤ n ∧ n ≤ 0xFF5E then Char.ofNat (n - 0xFEE0)
  else c

def normalize (cs : List Char) : List Char :=
  (cs.filter (!isIgnored ·)).map fun c => lower (narrow c)

def punycodeMark : List Char := ['x', 'n', '-', '-']

/-- A label in ASCII. One that claims to be punycode has to be the punycode of something. -/
def encodeLabel? (label : List Char) : Option (List Char) :=
  if label.all (·.toNat < 0x80) then
    if punycodeMark.isPrefixOf label then
      match Punycode.decode (label.drop 4) with
      | some plain =>
        if plain.any (0x80 ≤ ·.toNat) ∧ !plain.any isForbidden ∧ normalize plain = plain ∧
          Punycode.encode plain = label.drop 4 then some label
        else none
      | none => none
    else some label
  else some (punycodeMark ++ Punycode.encode label)

def encode? (cs : List Char) : Option (List Char) := do
  let name := normalize cs
  if name.any isForbidden then none
  else (List.intercalate ['.']) <$> (Text.splitAt '.' name).mapM encodeLabel?

end OutboxRelay.Url.Domain
