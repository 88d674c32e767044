/-! Journal entries: what a component reports about its work, as values. -/

namespace OutboxRelay

inductive Level
  | debug
  | info
  | warn
  | error
deriving DecidableEq

namespace Level

def text : Level → String
  | .debug => "DEBUG"
  | .info => "INFO"
  | .warn => "WARN"
  | .error => "ERROR"

end Level

structure JournalEntry where
  level : Level
  message : String
  fields : List (String × String)
deriving DecidableEq

abbrev Journal := List JournalEntry

end OutboxRelay
