import OutboxRelay.Text.Digits
import OutboxRelay.Timestamp

/-! Civil time from its written form: date, time to nine places, and an offset or `Z`. -/

namespace OutboxRelay.Timestamp

open Text

/-- Days from the epoch to a date of the Gregorian calendar, years counted from March so that the
leap day is the last of its year. -/
def daysFromEpoch (year : Int) (month day : Nat) : Int :=
  let y := if month ≤ 2 then year - 1 else year
  let era := y.fdiv 400
  let yearOfEra := y - era * 400
  let dayOfYear := (153 * ((month + 9) % 12) + 2) / 5 + (day - 1)
  era * 146097 + yearOfEra * 365 + yearOfEra / 4 - yearOfEra / 100 + dayOfYear - 719468

example : daysFromEpoch 1970 1 1 = 0 := by decide

/-- The earliest point is the start of its year. -/
example : daysFromEpoch (-262143) 1 1 * 86400 * 1000000000 = earliest.nanos := by decide

def twoDigits (cs : List Char) : Option Nat := digitsValue 10 (cs.take 2)

def fraction (digits : List Char) : Option Nat :=
  digitsValue 10 ((digits ++ List.replicate 9 '0').take 9)

def offset : List Char → Option Int
  | ['Z'] | ['z'] => some 0
  | sign :: a :: b :: ':' :: rest => do
    let seconds : Int := (← twoDigits [a, b]) * 3600 + (← twoDigits rest) * 60
    if sign = '-' then some (-seconds) else if sign = '+' then some seconds else none
  | _ => none

def ofRfc3339? (s : String) : Option Timestamp := do
  let cs := s.toList
  let year ← digitsValue 10 (cs.take 4)
  let days := daysFromEpoch year (← twoDigits (cs.drop 5)) (← twoDigits (cs.drop 8))
  let seconds := (← twoDigits (cs.drop 11)) * 3600 + (← twoDigits (cs.drop 14)) * 60 +
    (← twoDigits (cs.drop 17))
  let (places, zone) := match cs.drop 19 with
    | '.' :: rest => (rest.takeWhile Char.isDigit, rest.dropWhile Char.isDigit)
    | rest => ([], rest)
  let nanos ← fraction places
  let east ← offset zone
  some ⟨(days * 86400 + seconds - east) * 1000000000 + nanos⟩

end OutboxRelay.Timestamp
