/-! Failures of the outbox table, and what they make of a dispatch cycle. -/

namespace OutboxRelay

structure StoreError where
  contexts : List String
  root : String
deriving DecidableEq

namespace StoreError

def ofRoot (root : String) : StoreError := ⟨[], root⟩

def withContext (e : StoreError) (context : String) : StoreError :=
  { e with contexts := context :: e.contexts }

def chain (e : StoreError) : List String := e.contexts ++ [e.root]

def outermost (e : StoreError) : String := e.contexts.headD e.root

def chainText (e : StoreError) : String := String.intercalate ": " e.chain

def message (e : StoreError) : String := "outbox storage error: " ++ e.chainText

def kind (_ : StoreError) : String := "INTERNAL"

def className : String := "herald_dispatcher::error::OutboxError"

end StoreError

inductive CycleError
  | store (cause : StoreError)
  | unsettled (count : Nat) (first : StoreError)
deriving DecidableEq

namespace CycleError

def message : CycleError → String
  | .store cause => cause.message
  | .unsettled count first =>
    Nat.repr count ++ " outbox events could not be settled: " ++ first.message

end CycleError

end OutboxRelay
