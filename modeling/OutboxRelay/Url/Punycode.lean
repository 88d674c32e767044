/-! Labels of domain names beyond ASCII, written in ASCII (RFC 3492).
The ASCII characters come first; then, in ascending order of the others, the distance from the
insertion before it, each in digits of base 36 whose thresholds follow an adapting bias. Every loop
runs over a list or lessens a number: division by more than one lessens it. -/

namespace OutboxRelay.Url.Punycode

def digit (n : Nat) : Char :=
  if n < 26 then Char.ofNat (0x61 + n) else Char.ofNat (0x30 + (n - 26))

def digitValue (c : Char) : Option Nat :=
  if 'a' ≤ c ∧ c ≤ 'z' then some (c.toNat - 0x61)
  else if 'A' ≤ c ∧ c ≤ 'Z' then some (c.toNat - 0x41)
  else if '0' ≤ c ∧ c ≤ '9' then some (c.toNat - 0x30 + 26)
  else none

def threshold (k bias : Nat) : Nat := max 1 (min 26 (k - bias))

theorem threshold_pos (k bias : Nat) : 1 ≤ threshold k bias := Nat.le_max_left _ _

def scaleDown (delta k : Nat) : Nat × Nat :=
  if 455 < delta then scaleDown (delta / 35) (k + 36) else (k, delta)
termination_by delta
decreasing_by exact Nat.div_lt_self (by omega) (by omega)

def adapt (delta points : Nat) (isFirst : Bool) : Nat :=
  let delta := if isFirst then delta / 700 else delta / 2
  let (k, delta) := scaleDown (delta + delta / points) 0
  k + 36 * delta / (delta + 38)

def writeNumber (bias k n : Nat) : List Char :=
  let t := threshold k bias
  if n < t then [digit n]
  else digit (t + (n - t) % (36 - t)) :: writeNumber bias (k + 36) ((n - t) / (36 - t))
termination_by n
decreasing_by
  have one := threshold_pos k bias
  exact Nat.lt_of_le_of_lt (Nat.div_le_self _ _) (by omega)

structure Writer where
  output : List Char
  delta : Nat
  bias : Nat
  points : Nat

def Writer.pass (basic point : Nat) (w : Writer) (c : Char) : Writer :=
  if c.toNat < point then { w with delta := w.delta + 1 }
  else if c.toNat = point then
    ⟨w.output ++ writeNumber w.bias 36 w.delta, 0,
      adapt w.delta (w.points + 1) (w.points = basic), w.points + 1⟩
  else w

def insertPoints (label : List Char) (basic : Nat) (next : Nat) : List Nat → Writer → Writer
  | [], w => w
  | point :: points, w =>
    let w := { w with delta := w.delta + (point - next) * (w.points + 1) }
    let w := label.foldl (Writer.pass basic point) w
    insertPoints label basic (point + 1) points { w with delta := w.delta + 1 }

def encode (label : List Char) : List Char :=
  let basic := label.filter (·.toNat < 0x80)
  let points := (((label.filter (0x80 ≤ ·.toNat)).map Char.toNat).mergeSort (· ≤ ·)).eraseDups
  let inserted := insertPoints label basic.length 0x80 points ⟨[], 0, 72, basic.length⟩
  basic ++ (if basic.isEmpty then [] else ['-']) ++ inserted.output

/-- Read a number from position `k` on: its value times `weight` added to `sum`, and what is left
of the text. -/
def readNumber (bias : Nat) : (k weight sum : Nat) → List Char → Option (Nat × List Char)
  | _, _, _, [] => none
  | k, weight, sum, c :: rest => do
    let n ← digitValue c
    let t := threshold k bias
    if n < t then some (sum + n * weight, rest)
    else readNumber bias (k + 36) (weight * (36 - t)) (sum + n * weight) rest

theorem readNumber_length {bias k weight sum value : Nat} {cs rest : List Char}
    (h : readNumber bias k weight sum cs = some (value, rest)) : rest.length < cs.length := by
  induction cs generalizing k weight sum with
  | nil => simp [readNumber] at h
  | cons c cs ih =>
    simp only [readNumber, Option.bind_eq_bind, Option.bind_eq_some_iff] at h
    obtain ⟨n, _, h⟩ := h
    split at h
    · cases h; simp
    · have := ih h; simp only [List.length_cons]; omega

def readPoints (bias position point : Nat) (label : List Char) (cs : List Char) :
    Option (List Char) :=
  if cs.isEmpty then some label
  else match _h : readNumber bias 36 1 position cs with
    | none => none
    | some (sum, rest) =>
      let points := label.length + 1
      let point := point + sum / points
      let c := Char.ofNat point
      if c.toNat = point ∧ point ≠ 0 then
        readPoints (adapt (sum - position) points (label.all (·.toNat < 0x80)))
          (sum % points + 1) point (label.take (sum % points) ++ c :: label.drop (sum % points))
          rest
      else none
termination_by cs.length
decreasing_by exact readNumber_length (by assumption)

def decode (cs : List Char) : Option (List Char) :=
  let tail := (cs.reverse.takeWhile (· ≠ '-')).reverse
  let basic := (cs.take (cs.length - tail.length)).dropLast
  if cs.all (·.toNat < 0x80) then readPoints 72 0 0x80 basic tail else none

end OutboxRelay.Url.Punycode
