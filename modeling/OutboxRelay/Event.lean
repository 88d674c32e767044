import OutboxRelay.Headers
import OutboxRelay.Timestamp

/-! Outbox events, the life cycle of their rows, and row counts per status. -/

namespace OutboxRelay

/-- Where a row stands. It only moves forward: new, in progress, then published or failed. -/
inductive Status
  | new
  | inProgress
  | published
  | failed
deriving DecidableEq

namespace Status

def all : List Status := [.new, .inProgress, .published, .failed]

def text : Status → String
  | .new => "NEW"
  | .inProgress => "IN_PROGRESS"
  | .published => "PUBLISHED"
  | .failed => "FAILED"

def ofText? : String → Option Status
  | "NEW" => some .new
  | "IN_PROGRESS" => some .inProgress
  | "PUBLISHED" => some .published
  | "FAILED" => some .failed
  | _ => none

def isFinal : Status → Bool
  | .published | .failed => true
  | .new | .inProgress => false

def index : Status → Nat
  | .new => 0
  | .inProgress => 1
  | .published => 2
  | .failed => 3

theorem ofText?_text (s : Status) : ofText? s.text = some s := by cases s <;> rfl

theorem text_inj {s s' : Status} : s.text = s'.text ↔ s = s' := by
  cases s <;> cases s' <;> decide

theorem all_getElem?_index (s : Status) : all[s.index]? = some s := by cases s <;> rfl

end Status

structure UnknownStatus where
  value : String
deriving DecidableEq

def UnknownStatus.message (e : UnknownStatus) : String := "unknown outbox status: " ++ e.value

def UnknownStatus.className : String := "herald_dispatcher::domain::types::UnknownStatus"

def Status.read (s : String) : Except UnknownStatus Status :=
  match ofText? s with
  | some status => .ok status
  | none => .error ⟨s⟩

structure NewEvent where
  aggregateType : String
  aggregateId : String
  eventType : String
  payload : String
  headers : Headers
deriving DecidableEq

structure Event extends NewEvent where
  id : Int
  status : Status
  createdAt : Timestamp
  publishedAt : Option Timestamp
deriving DecidableEq

/-- Rows per status. Counts are 64-bit words and wrap. -/
structure Stats where
  new : UInt64
  inProgress : UInt64
  published : UInt64
  failed : UInt64
deriving DecidableEq

namespace Stats

def zero : Stats := ⟨0, 0, 0, 0⟩

def add (s : Stats) (status : Status) (count : UInt64) : Stats :=
  match status with
  | .new => { s with new := s.new + count }
  | .inProgress => { s with inProgress := s.inProgress + count }
  | .published => { s with published := s.published + count }
  | .failed => { s with failed := s.failed + count }

def total (s : Stats) : UInt64 := s.new + s.inProgress + s.published + s.failed

def count (s : Stats) : Status → UInt64
  | .new => s.new
  | .inProgress => s.inProgress
  | .published => s.published
  | .failed => s.failed

theorem count_add (s : Stats) (status other : Status) (n : UInt64) :
    (s.add status n).count other = if other = status then s.count other + n else s.count other := by
  cases status <;> cases other <;> rfl

end Stats

end OutboxRelay
