import OutboxRelay.Text.Digits
import OutboxRelay.Text.Utf8

/-! Escapes in URLs: a byte is written as `%` and two upper-case hexadecimal digits.
Controls and every byte beyond ASCII are always escaped; which printable characters are, depends on
the part of the URL. Reading undoes well-formed escapes and leaves every other `%` as it is. -/

namespace OutboxRelay.Url

open Text

def upperHexDigit (n : Nat) : Char := (hexDigit n).toUpper

def escapeByte (b : UInt8) : List Char :=
  ['%', upperHexDigit (b.toNat / 16), upperHexDigit (b.toNat % 16)]

def isPrintable (b : UInt8) : Bool := 0x20 ≤ b && b < 0x7F

def escapeBytes (escaped : List Char) (bytes : Bytes) : List Char :=
  bytes.flatMap fun b =>
    let c := Char.ofNat b.toNat
    if isPrintable b && !escaped.contains c then [c] else escapeByte b

def escape (escaped : List Char) (cs : List Char) : List Char :=
  escapeBytes escaped (utf8Chars cs)

namespace Escaped

def fragment : List Char := [' ', '"', '<', '>', '`']

def path : List Char := fragment ++ ['#', '?', '\x7b', '\x7d']

def userinfo : List Char := path ++ ['/', ':', ';', '=', '@', '[', '\\', ']', '^', '|']

def query : List Char := [' ', '"', '#', '<', '>']

def specialQuery : List Char := query ++ ['\'']

end Escaped

def unescape : List Char → Bytes
  | '%' :: a :: b :: rest =>
    match hexValue a, hexValue b with
    | some x, some y => UInt8.ofNat (x * 16 + y) :: unescape rest
    | _, _ => utf8Char '%' ++ unescape (a :: b :: rest)
  | c :: rest => utf8Char c ++ unescape rest
  | [] => []

end OutboxRelay.Url
