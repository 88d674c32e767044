import OutboxRelay.Headers
import OutboxRelay.Text.Blank
import OutboxRelay.Text.Quoted

/-! The text column that holds an event's headers: a JSON object of texts.
Written in the shortest form, keys ascending. Read by an automaton over characters that takes any
object of texts, the last of equal keys winning, and nothing else; a blank column holds no headers. -/

namespace OutboxRelay.HeaderBlob

open Text

def encode (h : Headers) : String :=
  String.ofList (jsonObject (h.entries.map fun (key, value) => (key, jsonText value)))

inductive Piece
  | plain
  | escaped
  /-- In a code of four digits, `count` of them read; `high` is the first half of a pair. -/
  | code (count value : Nat) (high : Option Nat)
  | pairDue (high : Nat)
  | pairEscaped (high : Nat)
deriving DecidableEq

inductive TextStep
  | go (piece : Piece) (read : List Char)
  | close
  | invalid

def escapeLetter : Char → Option Char
  | '"' => some '"'
  | '\\' => some '\\'
  | '/' => some '/'
  | 'b' => some (Char.ofNat 0x08)
  | 'f' => some (Char.ofNat 0x0C)
  | 'n' => some (Char.ofNat 0x0A)
  | 'r' => some (Char.ofNat 0x0D)
  | 't' => some (Char.ofNat 0x09)
  | _ => none

/-- A complete code: a character, or the first half of a pair. A second half follows a first one
and stands nowhere else. -/
def codeEnd (value : Nat) : Option Nat → TextStep
  | none =>
    if 0xD800 ≤ value ∧ value < 0xDC00 then .go (.pairDue value) []
    else if 0xDC00 ≤ value ∧ value < 0xE000 then .invalid
    else .go .plain [Char.ofNat value]
  | some high =>
    if 0xDC00 ≤ value ∧ value < 0xE000 then
      .go .plain [Char.ofNat (0x10000 + (high - 0xD800) * 0x400 + (value - 0xDC00))]
    else .invalid

def textStep (piece : Piece) (c : Char) : TextStep :=
  match piece with
  | .plain =>
    if c = '"' then .close
    else if c = '\\' then .go .escaped []
    else if c.toNat < 0x20 then .invalid
    else .go .plain [c]
  | .escaped =>
    if c = 'u' then .go (.code 0 0 none) []
    else match escapeLetter c with
      | some e => .go .plain [e]
      | none => .invalid
  | .code count value high =>
    match hexValue c with
    | none => .invalid
    | some digit =>
      let value := value * 16 + digit
      if count < 3 then .go (.code (count + 1) value high) [] else codeEnd value high
  | .pairDue high => if c = '\\' then .go (.pairEscaped high) [] else .invalid
  | .pairEscaped high => if c = 'u' then .go (.code 0 0 (some high)) [] else .invalid

inductive Position
  | start
  | opened
  | key (piece : Piece) (read : List Char)
  | keyed (key : String)
  | valueDue (key : String)
  | value (key : String) (piece : Piece) (read : List Char)
  | valued
  | keyDue
  | closed
deriving DecidableEq

structure Reader where
  position : Position
  entries : List (String × String)
deriving DecidableEq

def isSpace (c : Char) : Bool := c = ' ' || c = '\n' || c = '\t' || c = '\r'

namespace Reader

def initial : Reader := ⟨.start, []⟩

def goto (r : Reader) (position : Position) : Option Reader := some { r with position := position }

def sign (r : Reader) (c : Char) : Option Reader :=
  match r.position with
  | .start => if c.toNat = 0x7B then r.goto .opened else none
  | .opened =>
    if c = '"' then r.goto (.key .plain [])
    else if c.toNat = 0x7D then r.goto .closed else none
  | .keyed key => if c = ':' then r.goto (.valueDue key) else none
  | .valueDue key => if c = '"' then r.goto (.value key .plain []) else none
  | .valued =>
    if c = ',' then r.goto .keyDue
    else if c.toNat = 0x7D then r.goto .closed else none
  | .keyDue => if c = '"' then r.goto (.key .plain []) else none
  | _ => none

def step (r : Reader) (c : Char) : Option Reader :=
  match r.position with
  | .key piece read =>
    match textStep piece c with
    | .go piece more => r.goto (.key piece (read ++ more))
    | .close => r.goto (.keyed (String.ofList read))
    | .invalid => none
  | .value key piece read =>
    match textStep piece c with
    | .go piece more => r.goto (.value key piece (read ++ more))
    | .close => some ⟨.valued, r.entries ++ [(key, String.ofList read)]⟩
    | .invalid => none
  | _ => if isSpace c then some r else r.sign c

def run (r : Reader) (cs : List Char) : Option Reader := cs.foldlM step r

end Reader

def read? (raw : String) : Option Headers :=
  match Reader.initial.run raw.toList with
  | some ⟨.closed, entries⟩ => some (Headers.ofList entries)
  | _ => none

def decode? (raw : String) : Option Headers :=
  if isBlankText raw then some .empty else read? raw

end OutboxRelay.HeaderBlob
