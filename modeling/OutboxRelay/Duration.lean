/-! Spans of time and points of a monotonic clock, counted in nanoseconds.
A span has whole seconds below `2 ^ 64`; sums of spans are never formed, and the one product that
is formed stops at the longest span. Points of the clock are unbounded. -/

namespace OutboxRelay

def nanosPerSecond : Nat := 1000000000

def nanosPerMilli : Nat := 1000000

structure Duration where
  nanos : Nat
  lt_limit : nanos < Nat.pow 2 64 * nanosPerSecond
deriving DecidableEq

namespace Duration

def longest : Duration := ⟨Nat.pow 2 64 * nanosPerSecond - 1, by decide⟩

def ofNanos (n : Nat) : Duration :=
  ⟨min n longest.nanos, Nat.lt_of_le_of_lt (Nat.min_le_right _ _) longest.lt_limit⟩

def ofMillis (n : Nat) : Duration := ofNanos (n * nanosPerMilli)

def ofSecs (n : Nat) : Duration := ofNanos (n * nanosPerSecond)

def zero : Duration := ofNanos 0

@[simp] theorem ofNanos_nanos (n : Nat) : (ofNanos n).nanos = min n longest.nanos := rfl

theorem le_longest (d : Duration) : d.nanos ≤ longest.nanos :=
  Nat.le_sub_one_of_lt d.lt_limit

@[ext] theorem ext {a b : Duration} (h : a.nanos = b.nanos) : a = b := by
  cases a; cases b; cases h; rfl

@[simp] theorem ofNanos_self (d : Duration) : ofNanos d.nanos = d :=
  ext (Nat.min_eq_left d.le_longest)

def times (d : Duration) (factor : Nat) : Duration := ofNanos (d.nanos * factor)

def atMost (d limit : Duration) : Duration := if d.nanos ≤ limit.nanos then d else limit

theorem atMost_nanos (d limit : Duration) : (d.atMost limit).nanos = min d.nanos limit.nanos := by
  unfold atMost; split <;> omega

def millisField (d : Duration) : Nat := d.nanos / nanosPerMilli % Nat.pow 2 64

def wholeSecs (d : Duration) : Nat := d.nanos / nanosPerSecond

def fractionText (width rest : Nat) : String :=
  let digits := Nat.toDigits 10 (Nat.pow 10 width + rest)
  let kept := ((digits.drop 1).reverse.dropWhile (· = '0')).reverse
  if kept.isEmpty then "" else String.ofList ('.' :: kept)

def inUnits (nanos width : Nat) (symbol : String) : String :=
  Nat.repr (nanos / Nat.pow 10 width) ++ fractionText width (nanos % Nat.pow 10 width) ++ symbol

def text (d : Duration) : String :=
  if d.nanos ≥ 1000000000 then inUnits d.nanos 9 "s"
  else if d.nanos ≥ 1000000 then inUnits d.nanos 6 "ms"
  else if d.nanos ≥ 1000 then inUnits d.nanos 3 "µs"
  else inUnits d.nanos 0 "ns"

end Duration

structure Instant where
  nanos : Nat
deriving DecidableEq

namespace Instant

def start : Instant := ⟨0⟩

def add (t : Instant) (d : Duration) : Instant := ⟨t.nanos + d.nanos⟩

/-- The clock never goes back, so a span that would be negative is empty. -/
def elapsed (now since : Instant) : Nat := now.nanos - since.nanos

def le (a b : Instant) : Bool := a.nanos ≤ b.nanos

def max (a b : Instant) : Instant := if a.le b then b else a

theorem max_nanos (a b : Instant) : (a.max b).nanos = Nat.max a.nanos b.nanos := by
  simp only [max, le, decide_eq_true_eq]
  split
  · exact (Nat.max_eq_right ‹_›).symm
  · exact (Nat.max_eq_left (by omega)).symm

/-- The first whole millisecond that is not before `t`; timers fire on whole milliseconds. -/
def roundUp (t : Instant) : Instant :=
  ⟨(t.nanos + (nanosPerMilli - 1)) / nanosPerMilli * nanosPerMilli⟩

def timerAfter (t : Instant) (d : Duration) : Instant := (t.add d).roundUp

/-- When a sleeper wakes. No time to sleep means no sleep, also between two whole milliseconds. -/
def wokenAfter (t : Instant) (d : Duration) : Instant :=
  if d.nanos = 0 then t else t.timerAfter d

def millis (t : Instant) : Nat := t.nanos / nanosPerMilli

theorem le_roundUp (t : Instant) : t.nanos ≤ t.roundUp.nanos := by
  have := Nat.div_add_mod (t.nanos + (nanosPerMilli - 1)) nanosPerMilli
  have := Nat.mod_lt (t.nanos + (nanosPerMilli - 1)) (show 0 < nanosPerMilli by decide)
  simp only [roundUp, nanosPerMilli] at *
  omega

end Instant

end OutboxRelay
