import OutboxRelay.Text.Digits
import OutboxRelay.Text.Utf8

/-! Bytes as printable text: two lower-case hexadecimal digits for each, or base64, where three bytes
make four characters and `=` fills the last group up. -/

namespace OutboxRelay.Text

def hexOfBytes (bytes : Bytes) : String :=
  String.ofList (bytes.flatMap fun b => hexDigits 2 b.toNat)

def bytesOfDigits : List Char → Bytes
  | a :: b :: rest =>
    UInt8.ofNat ((hexValue a).getD 0 * 16 + (hexValue b).getD 0) :: bytesOfDigits rest
  | _ => []

def bytesOfHex (s : String) : Bytes := bytesOfDigits s.toList

def isVisibleAscii (bytes : Bytes) : Bool :=
  bytes.all fun b => (0x20 ≤ b && b < 0x7F) || b = 0x09

def base64Digit (n : Nat) : Char :=
  if n < 26 then Char.ofNat (0x41 + n)
  else if n < 52 then Char.ofNat (0x61 + (n - 26))
  else if n < 62 then Char.ofNat (0x30 + (n - 52))
  else if n = 62 then '+' else '/'

def base64 : Bytes → List Char
  | a :: b :: c :: rest =>
    let n := a.toNat * 65536 + b.toNat * 256 + c.toNat
    base64Digit (n / 262144) :: base64Digit (n / 4096 % 64) :: base64Digit (n / 64 % 64) ::
      base64Digit (n % 64) :: base64 rest
  | [a, b] =>
    let n := a.toNat * 65536 + b.toNat * 256
    [base64Digit (n / 262144), base64Digit (n / 4096 % 64), base64Digit (n / 64 % 64), '=']
  | [a] =>
    let n := a.toNat * 65536
    [base64Digit (n / 262144), base64Digit (n / 4096 % 64), '=', '=']
  | [] => []

end OutboxRelay.Text
