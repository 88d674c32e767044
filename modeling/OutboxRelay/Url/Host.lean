import OutboxRelay.Text.Digits
import OutboxRelay.Url.Domain
import OutboxRelay.Url.Percent

/-! Hosts of URLs: names, and addresses of four bytes or of eight 16-bit groups.
A name whose last label is a number has to be an address. -/

namespace OutboxRelay.Url

open Text

inductive UrlError
  | relativeWithoutBase
  | emptyHost
  | invalidDomainName
  | invalidHostCharacter
  | invalidIpv4
  | invalidIpv6
  | invalidPort
deriving DecidableEq

def UrlError.message : UrlError → String
  | .relativeWithoutBase => "relative URL without a base"
  | .emptyHost => "empty host"
  | .invalidDomainName => "invalid international domain name"
  | .invalidHostCharacter => "invalid domain character"
  | .invalidIpv4 => "invalid IPv4 address"
  | .invalidIpv6 => "invalid IPv6 address"
  | .invalidPort => "invalid port number"

inductive Host
  | named (text : List Char)
  | ipv4 (address : Nat)
  | ipv6 (groups : List Nat)
deriving DecidableEq

namespace Host

/-- A label as a number: hexadecimal after `0x`, octal after another leading zero. -/
def ipv4Number? : List Char → Option Nat
  | [] => none
  | ['0'] => some 0
  | '0' :: 'x' :: digits => digitsValue 16 digits
  | '0' :: 'X' :: digits => digitsValue 16 digits
  | '0' :: digits => digitsValue 8 digits
  | digits => digitsValue 10 digits

def ipv4Labels (name : List Char) : List (List Char) :=
  let labels := splitAt '.' name
  if labels.getLast? = some [] then labels.dropLast else labels

def endsInNumber (name : List Char) : Bool :=
  match (ipv4Labels name).getLast? with
  | some label => (label ≠ [] && label.all Char.isDigit) || (ipv4Number? label).isSome
  | none => false

def ipv4? (name : List Char) : Option Nat := do
  let numbers ← (ipv4Labels name).mapM ipv4Number?
  let last ← numbers.getLast?
  let bytes := numbers.dropLast
  if 3 < bytes.length ∨ bytes.any (255 < ·) ∨ Nat.pow 256 (4 - bytes.length) ≤ last then none
  else some (bytes.zipIdx.foldl (fun value (n, i) => value + n * Nat.pow 256 (3 - i)) last)

def ipv4Text (address : Nat) : List Char :=
  List.intercalate ['.'] ([3, 2, 1, 0].map fun k => Nat.toDigits 10 (address / Nat.pow 256 k % 256))

def group? (cs : List Char) : Option Nat :=
  if cs.isEmpty ∨ 4 < cs.length then none else digitsValue 16 cs

def dottedByte? (cs : List Char) : Option Nat := do
  if cs.isEmpty ∨ 3 < cs.length ∨ (cs.head? = some '0' ∧ 1 < cs.length) then none
  let n ← digitsValue 10 cs
  if n < 256 then some n else none

def dotted? (cs : List Char) : Option (List Nat) := do
  match ← (splitAt '.' cs).mapM dottedByte? with
  | [a, b, c, d] => some [a * 256 + b, c * 256 + d]
  | _ => none

/-- Groups with colons between them; where `mayEndDotted`, the last two may be dotted. -/
def groups? (mayEndDotted : Bool) : List (List Char) → Option (List Nat)
  | [] => some []
  | [last] =>
    if mayEndDotted ∧ last.contains '.' then dotted? last else (fun n => [n]) <$> group? last
  | cs :: rest => do
    let n ← group? cs
    let more ← groups? mayEndDotted rest
    some (n :: more)

def cutAtGap : List Char → Option (List Char × List Char)
  | ':' :: ':' :: rest => some ([], rest)
  | c :: rest => (cutAtGap rest).map fun (before, after) => (c :: before, after)
  | [] => none

/-- Eight groups, or fewer than eight around a double colon that stands for zeros. -/
def ipv6? (cs : List Char) : Option (List Nat) := do
  let side (mayEndDotted : Bool) (cs : List Char) : Option (List Nat) :=
    if cs.isEmpty then some [] else groups? mayEndDotted (splitAt ':' cs)
  match cutAtGap cs with
  | some (before, after) =>
    let before ← side false before
    let after ← side true after
    let known := before.length + after.length
    if known < 8 then some (before ++ List.replicate (8 - known) 0 ++ after) else none
  | none =>
    let groups ← side true cs
    if groups.length = 8 then some groups else none

def zeroRun (groups : List Nat) : Nat := (groups.takeWhile (· = 0)).length

def gap? (groups : List Nat) : Option (Nat × Nat) :=
  let runs := (List.range groups.length).map fun i => (i, zeroRun (groups.drop i))
  runs.foldl (fun best (i, n) =>
    if 2 ≤ n ∧ (best.all fun (_, m) => m < n) then some (i, n) else best) none

def ipv6Text (groups : List Nat) : List Char :=
  let text (groups : List Nat) := List.intercalate [':'] (groups.map hexText)
  match gap? groups with
  | some (i, n) => text (groups.take i) ++ ':' :: ':' :: text (groups.drop (i + n))
  | none => text groups

def text : Host → List Char
  | named text => text
  | ipv4 address => ipv4Text address
  | ipv6 groups => '[' :: ipv6Text groups ++ [']']

def bracketed? (cs : List Char) : Option (Except UrlError Host) :=
  match cs with
  | '[' :: rest =>
    some (if rest.getLast? = some ']' then
      match ipv6? rest.dropLast with
      | some groups => .ok (.ipv6 groups)
      | none => .error .invalidIpv6
    else .error .invalidIpv6)
  | _ => none

def ofSpecial (cs : List Char) : Except UrlError Host :=
  match bracketed? cs with
  | some result => result
  | none =>
    match Domain.encode? (decodeUtf8 (unescape cs)) with
    | none => .error .invalidDomainName
    | some [] => .error .emptyHost
    | some name =>
      if endsInNumber name then
        match ipv4? name with
        | some address => .ok (.ipv4 address)
        | none => .error .invalidIpv4
      else .ok (.named name)

def forbidden : List Char :=
  ['\x00', '\t', '\n', '\r', ' ', '#', '/', ':', '<', '>', '?', '@', '[', '\\', ']', '^', '|']

def ofOther (cs : List Char) : Except UrlError Host :=
  match bracketed? cs with
  | some result => result
  | none =>
    if cs.any forbidden.contains then .error .invalidHostCharacter else .ok (.named (escape [] cs))

end Host

end OutboxRelay.Url
