import OutboxRelay.Duration

/-! Points of civil time, counted in nanoseconds from the epoch, and the ages measured between
them. Both have limits: a point lies within about 262000 years of the epoch, an age within
`2 ^ 63 - 1` milliseconds. -/

namespace OutboxRelay

structure Timestamp where
  nanos : Int
deriving DecidableEq

namespace Timestamp

def earliest : Timestamp := ⟨-8334601228800 * 1000000000⟩

def max (a b : Timestamp) : Timestamp := if a.nanos ≤ b.nanos then b else a

def maxAge : Nat := (Nat.pow 2 63 - 1) * nanosPerMilli

def age? (d : Duration) : Option Nat := if d.nanos ≤ maxAge then some d.nanos else none

def before? (t : Timestamp) (age : Nat) : Option Timestamp :=
  if earliest.nanos ≤ t.nanos - age then some ⟨t.nanos - age⟩ else none

end Timestamp

/-- Readings of the civil clock, of which the first `used` are taken. -/
structure WallClock where
  readings : Nat → Timestamp
  used : Nat

namespace WallClock

def read (c : WallClock) : Timestamp × WallClock := (c.readings c.used, { c with used := c.used + 1 })

def steady : WallClock := ⟨fun n => ⟨(1790000000 * 1000000 + n) * 1000⟩, 0⟩

end WallClock

end OutboxRelay
