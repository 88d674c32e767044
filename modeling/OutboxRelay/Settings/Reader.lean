import OutboxRelay.Journal
import OutboxRelay.Text.Blank
import OutboxRelay.Text.Digits

/-! Reading of single settings from an environment of named texts. A value that cannot be read is
reported and replaced by its default. -/

namespace OutboxRelay

open Text

abbrev Environment := String → Option String

abbrev Reading := StateM Journal

namespace Environment

structure Missing where
  name : String
deriving DecidableEq

def Missing.message (e : Missing) : String := e.name ++ " must be set"

def require (env : Environment) (name : String) : Except Missing String :=
  match env name with
  | some value => .ok value
  | none => .error ⟨name⟩

def nonBlank (env : Environment) (name : String) : Option String :=
  (env name).filter fun value => !isBlankText value

def textOr (env : Environment) (name standard : String) : String := (env name).getD standard

def report (message name value : String) : Reading Unit :=
  modify (· ++ [⟨.warn, message, [("key", name), ("value", value)]⟩])

def readOr {α : Type} (env : Environment) (read : List Char → Option α) (name : String)
    (standard : α) : Reading α :=
  match env name with
  | none => pure standard
  | some value =>
    match read (trimBlanks value.toList) with
    | some a => pure a
    | none => do
      report "unparsable env var, using default" name value
      pure standard

def natural (env : Environment) (bits : Nat) (name : String) (standard : Nat) : Reading Nat :=
  readOr env (readNatural bits) name standard

def readBool (cs : List Char) : Option Bool :=
  if cs = "true".toList then some true else if cs = "false".toList then some false else none

def switchOf (word : String) : Option Bool :=
  if ["true", "1", "yes", "on"].contains word then some true
  else if ["false", "0", "no", "off"].contains word then some false
  else none

def switch (env : Environment) (name : String) (standard : Bool) : Reading Bool :=
  match env name with
  | none => pure standard
  | some value =>
    match switchOf (lowerAscii (trim value)) with
    | some b => pure b
    | none => do
      report "unparsable boolean env var, using default" name value
      pure standard

end Environment

end OutboxRelay
