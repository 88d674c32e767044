import OutboxRelay.Url.Form
import OutboxRelay.Url.Host

/-! URLs: reading them from text, leniently, and writing them. Blanks and controls around the text
and line breaks within it are dropped, escapes are added where they are due, the default port is
left out, and `.` and `..` segments are followed. The schemes of the web are special: they have a
host, and a backslash counts as a slash. -/

namespace OutboxRelay

open Text Url

namespace Url

inductive SchemeKind
  | special (port : Nat)
  | file
  | other
deriving DecidableEq

def SchemeKind.ofScheme (scheme : String) : SchemeKind :=
  match scheme with
  | "http" | "ws" => .special 80
  | "https" | "wss" => .special 443
  | "ftp" => .special 21
  | "file" => .file
  | _ => .other

def SchemeKind.isSpecial : SchemeKind → Bool
  | .other => false
  | _ => true

inductive Path
  | solid (written : List Char)
  | segments (written : List (List Char))
deriving DecidableEq

def Path.text : Path → List Char
  | .solid written => written
  | .segments written => written.flatMap ('/' :: ·)

end Url

/-- All parts but the scheme are kept as they are written, that is, escaped. -/
structure Url where
  scheme : String
  username : List Char
  password : List Char
  host : Option Host
  port : Option Nat
  path : Path
  query : Option (List Char)
  fragment : Option (List Char)
deriving DecidableEq

namespace Url

/-! ### Writing -/

def userinfoText (u : Url) : List Char :=
  if u.username = [] ∧ u.password = [] then []
  else u.username ++ (if u.password = [] then [] else ':' :: u.password) ++ ['@']

/-- Host and port with what stands before them. A path that begins with two slashes must not be
taken for a host. -/
def authorityText (u : Url) : List Char :=
  match u.host with
  | some host => '/' :: '/' :: (u.userinfoText ++ host.text ++
      (u.port.elim [] fun port => ':' :: Nat.toDigits 10 port))
  | none => if ['/', '/'].isPrefixOf u.path.text then ['/', '.'] else []

def headText (u : Url) : List Char :=
  u.scheme.toList ++ ':' :: (u.authorityText ++ u.path.text)

def text (u : Url) : List Char :=
  u.headText ++ (u.query.elim [] ('?' :: ·)) ++ u.fragment.elim [] ('#' :: ·)

def withPairs (u : Url) (pairs : List (String × String)) : Url :=
  let present := u.query.getD []
  { u with
    query := some (present ++
      (if present = [] ∨ pairs = [] then [] else ['&']) ++ Form.encode pairs) }

/-! ### Reading -/

def isTrimmed (c : Char) : Bool := c.toNat ≤ 0x20

def isLineBreak (c : Char) : Bool := c = '\t' || c = '\n' || c = '\r'

def clean (cs : List Char) : List Char :=
  (((cs.dropWhile isTrimmed).reverse.dropWhile isTrimmed).reverse).filter (!isLineBreak ·)

def isSchemeChar (c : Char) : Bool := c.isAlphanum || c = '+' || c = '-' || c = '.'

def readScheme? (cs : List Char) : Option (String × List Char) :=
  match cs.dropWhile isSchemeChar with
  | ':' :: rest =>
    if cs.head?.any Char.isAlpha then
      some (String.ofList ((cs.takeWhile isSchemeChar).map Char.toLower), rest)
    else none
  | _ => none

def endsAuthority (kind : SchemeKind) (c : Char) : Bool :=
  c = '/' || c = '?' || c = '#' || (kind.isSpecial && c = '\\')

def readUserinfo (cs : List Char) : List Char × List Char :=
  (escape Escaped.userinfo (cs.takeWhile (· ≠ ':')),
    escape Escaped.userinfo ((cs.dropWhile (· ≠ ':')).drop 1))

def cutAtLastAt (cs : List Char) : Option (List Char × List Char) :=
  if cs.contains '@' then
    some ((cs.reverse.dropWhile (· ≠ '@')).tail.reverse, (cs.reverse.takeWhile (· ≠ '@')).reverse)
  else none

def cutAtPort : (insideBrackets : Bool) → List Char → List Char × Option (List Char)
  | _, [] => ([], none)
  | inside, c :: rest =>
    if c = ':' ∧ ¬ inside then ([], some rest)
    else
      let (host, port) := cutAtPort (if c = '[' then true else if c = ']' then false else inside) rest
      (c :: host, port)

/-- A port of up to 65535; nothing and the default port are no port. -/
def readPort (kind : SchemeKind) (cs : List Char) : Except UrlError (Option Nat) :=
  if cs.isEmpty then .ok none
  else match digitsValue 10 cs with
    | some port =>
      if 65535 < port then .error .invalidPort
      else .ok (if kind = .special port then none else some port)
    | none => .error .invalidPort

def readHost (kind : SchemeKind) (cs : List Char) :
    Except UrlError (Host × Option Nat) := do
  let (host, port) := cutAtPort false cs
  if host.isEmpty ∧ (kind.isSpecial ∨ port.isSome) then throw .emptyHost
  let host ← if kind.isSpecial then Host.ofSpecial host else Host.ofOther host
  return (host, ← port.elim (.ok none) (readPort kind))

def isSingleDot (segment : List Char) : Bool :=
  [".", "%2e"].contains (String.ofList (segment.map Char.toLower))

def isDoubleDot (segment : List Char) : Bool :=
  ["..", ".%2e", "%2e.", "%2e%2e"].contains (String.ofList (segment.map Char.toLower))

/-- Follow segments of dots, `above` being the segments so far, last one first. Where the last
segment is of dots, an empty one takes its place. -/
def followDots (above : List (List Char)) : List (List Char) → List (List Char)
  | [] => above.reverse
  | segment :: rest =>
    let last : List (List Char) := if rest.isEmpty then [[]] else []
    if isDoubleDot segment then followDots (last ++ above.tail) rest
    else if isSingleDot segment then followDots (last ++ above) rest
    else followDots (segment :: above) rest

def readSegments (kind : SchemeKind) (cs : List Char) : List (List Char) :=
  let isSeparator (c : Char) := c = '/' || (kind.isSpecial && c = '\\')
  let segments := followDots [] ((pieces isSeparator cs).map (escape Escaped.path))
  if kind = .file then
    match segments.dropWhile (· = []) with
    | [] => [[]]
    | segments => segments
  else segments

def readPath (kind : SchemeKind) (cs : List Char) : Path :=
  match cs with
  | '/' :: rest => .segments (readSegments kind rest)
  | '\\' :: rest => .segments (readSegments kind (if kind.isSpecial then rest else cs))
  | [] => .segments (if kind.isSpecial then [[]] else [])
  | _ => .segments (readSegments kind cs)

def readTail (kind : SchemeKind) (cs : List Char) : Option (List Char) × Option (List Char) :=
  let set := if kind.isSpecial then Escaped.specialQuery else Escaped.query
  let fragment := match cs.dropWhile (· ≠ '#') with
    | _ :: rest => some (escape Escaped.fragment rest)
    | [] => none
  let query := match cs.takeWhile (· ≠ '#') with
    | _ :: rest => some (escape set rest)
    | [] => none
  (query, fragment)

def startsTail (c : Char) : Bool := c = '?' || c = '#'

def withoutHost (scheme : String) (kind : SchemeKind) (path : Path) (tail : List Char) : Url :=
  let (query, fragment) := readTail kind tail
  ⟨scheme, [], [], none, none, path, query, fragment⟩

/-- A URL from its authority on. Whoever names a user has to name a host. -/
def readAuthority (scheme : String) (kind : SchemeKind) (cs : List Char) : Except UrlError Url := do
  let authority := cs.takeWhile (!endsAuthority kind ·)
  let rest := cs.dropWhile (!endsAuthority kind ·)
  let (userinfo, hostText) := (cutAtLastAt authority).getD ([], authority)
  let (username, password) := readUserinfo userinfo
  if hostText.isEmpty ∧ authority.contains '@' ∧ userinfo ≠ [':'] then throw .emptyHost
  let (host, port) ← readHost kind hostText
  let (query, fragment) := readTail kind (rest.dropWhile (!startsTail ·))
  return ⟨scheme, username, password, some host, port,
    readPath kind (rest.takeWhile (!startsTail ·)), query, fragment⟩

def isSlash (c : Char) : Bool := c = '/' || c = '\\'

/-- A URL of the scheme `file`: a host only after two slashes, and this machine is no host. -/
def readFile (scheme : String) (cs : List Char) : Except UrlError Url := do
  let kind := SchemeKind.file
  let path (cs : List Char) := readPath kind (cs.takeWhile (!startsTail ·))
  match cs with
  | a :: b :: rest =>
    if isSlash a ∧ isSlash b then
      let hostText := rest.takeWhile (!endsAuthority kind ·)
      let after := rest.dropWhile (!endsAuthority kind ·)
      let host ← if hostText.isEmpty then .ok (.named []) else Host.ofSpecial hostText
      let host := if host.text = "localhost".toList then .named [] else host
      let (query, fragment) := readTail kind (after.dropWhile (!startsTail ·))
      return ⟨scheme, [], [], some host, none, path after, query, fragment⟩
    else
      return { withoutHost scheme kind (path cs) (cs.dropWhile (!startsTail ·)) with
        host := some (.named []) }
  | _ =>
    return { withoutHost scheme kind (path cs) (cs.dropWhile (!startsTail ·)) with
      host := some (.named []) }

def readRest (scheme : String) (cs : List Char) : Except UrlError Url :=
  let kind := SchemeKind.ofScheme scheme
  match kind with
  | .special _ => readAuthority scheme kind (cs.dropWhile isSlash)
  | .file => readFile scheme cs
  | .other =>
    let tail := cs.dropWhile (!startsTail ·)
    match cs with
    | '/' :: '/' :: rest => readAuthority scheme kind rest
    | '/' :: _ => .ok (withoutHost scheme kind (readPath kind (cs.takeWhile (!startsTail ·))) tail)
    | _ => .ok (withoutHost scheme kind (.solid (escape [] (cs.takeWhile (!startsTail ·)))) tail)

def parse (s : String) : Except UrlError Url :=
  match readScheme? (clean s.toList) with
  | some (scheme, rest) => readRest scheme rest
  | none => .error .relativeWithoutBase

end Url

end OutboxRelay
