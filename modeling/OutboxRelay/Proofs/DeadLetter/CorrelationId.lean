import OutboxRelay.Proofs.DeadLetter.JmsGuard
import OutboxRelay.Proofs.DeadLetter.Position

/-! Which correlation id a dead letter goes out under, whatever was set on it and in whatever order.
The dead letter itself and its form for JMS take the id that was set on it before one that was found
in headers; its form for Kafka takes the one of its headers first. The two differ where those
headers hold another id. -/

namespace OutboxRelay.DeadLetter

open Text

/-! ### What is set -/

inductive Setting
  | key (key : Option Bytes)
  | headers (headers : Headers)
  | position (partition offset : Int)
  | correlationId (id : Option String)

namespace Setting

def given? : Setting → Option String
  | .correlationId id => id
  | _ => none

def headers? : Setting → Option Headers
  | .headers h => some h
  | _ => none

def found? (s : Setting) : Option String := s.headers?.bind (·.get? "correlationId")

end Setting

def set (d : DeadLetter) : Setting → DeadLetter
  | .key key => d.setKey key
  | .headers headers => d.setHeaders headers
  | .position partition offset => d.setPosition partition offset
  | .correlationId id => d.setCorrelationId id

def setAll (d : DeadLetter) (settings : List Setting) : DeadLetter := settings.foldl set d

section Settings

variable (settings : List Setting)

def lastGiven : Option String := (settings.filterMap Setting.given?).getLast?

/-- The id that was found first, in headers that may have been replaced since. -/
def firstFound : Option String := settings.findSome? Setting.found?

def lastHeaders : Option Headers := (settings.filterMap Setting.headers?).getLast?

def lastFound : Option String := (lastHeaders settings).bind (·.get? "correlationId")

end Settings

theorem getLast?_filterMap_cons {α β : Type} (f : α → Option β) (a : α) (rest : List α) :
    ((a :: rest).filterMap f).getLast? = (rest.filterMap f).getLast?.or (f a) := by
  cases here : f a with
  | none => rw [List.filterMap_cons_none here, Option.or_none]
  | some b => rw [List.filterMap_cons_some here, List.getLast?_cons, Option.or_some]

theorem firstFound_cons (s : Setting) (rest : List Setting) :
    firstFound (s :: rest) = s.found?.or (firstFound rest) := by
  cases found : s.found? <;> simp [firstFound, found]

theorem correlationId_set (d : DeadLetter) (s : Setting) :
    (d.set s).correlationId = s.given?.or (d.correlationId.or s.found?) := by
  cases s with
  | key key => exact (Option.or_none).symm
  | headers headers => exact Option.orElse_eq_or
  | position partition offset => exact (Option.or_none).symm
  | correlationId id => exact (congrArg id.or Option.or_none).symm ▸ Option.orElse_eq_or

theorem headers_set (d : DeadLetter) (s : Setting) :
    (d.set s).headers = s.headers?.getD d.headers := by
  cases s <;> rfl

theorem correlationId_setAll (d : DeadLetter) (settings : List Setting) :
    (d.setAll settings).correlationId =
      (lastGiven settings).or (d.correlationId.or (firstFound settings)) := by
  induction settings generalizing d with
  | nil => exact (Option.or_none).symm
  | cons s rest ih =>
    calc (d.setAll (s :: rest)).correlationId
        = (lastGiven rest).or ((s.given?.or (d.correlationId.or s.found?)).or
            (firstFound rest)) := by
          rw [← correlationId_set, ← ih]
          rfl
      _ = ((lastGiven rest).or s.given?).or (d.correlationId.or (s.found?.or (firstFound rest))) := by
          simp only [Option.or_assoc]
      _ = (lastGiven (s :: rest)).or (d.correlationId.or (firstFound (s :: rest))) := by
          rw [firstFound_cons]
          exact congrArg (Option.or · _) (getLast?_filterMap_cons ..).symm

theorem headers_setAll (d : DeadLetter) (settings : List Setting) :
    (d.setAll settings).headers = (lastHeaders settings).getD d.headers := by
  induction settings generalizing d with
  | nil => rfl
  | cons s rest ih =>
    have next : (d.setAll (s :: rest)).headers = ((d.set s).setAll rest).headers := rfl
    have last : lastHeaders (s :: rest) = (lastHeaders rest).or s.headers? :=
      getLast?_filterMap_cons ..
    rw [next, ih, headers_set, last]
    cases lastHeaders rest <;> rfl

/-! ### What is sent -/

theorem get?_correlationId (d : DeadLetter) :
    d.headersForKafka.get? "correlationId" =
      (d.headers.get? "correlationId").or d.correlationId := by
  refine (get?_headersForKafka ..).trans ?_
  rw [lookup_diagnostics_eq_none d (by decide)]
  rfl

theorem correlationId_toJms (d : DeadLetter) (destination : String) (ids : IdSource) :
    (d.toJms destination ids).1.correlationId =
      some (d.correlationId.getD ids.draw.1.hyphenated) := by
  cases known : d.correlationId with
  | some id => rw [toJms_of_known d known]; rfl
  | none => rw [toJms_of_unknown d known]; rfl

/-- Both forms of the dead letter go out under the id. -/
structure GoesUnder (d : DeadLetter) (id : String) : Prop where
  kafka : ∀ topic, (d.toKafka topic).headers.get? "correlationId" = some id
  jms : ∀ destination ids, (d.toJms destination ids).1.correlationId = some id

theorem or_eq_some_iff {found known : Option String} {id : String} (same : known = some id) :
    found.or known = some id ↔ ∀ other, found = some other → other = id := by
  subst same
  cases found <;> simp

theorem goesUnder_iff {d : DeadLetter} {id : String} (known : d.correlationId = some id) :
    d.GoesUnder id ↔ ∀ other, d.headers.get? "correlationId" = some other → other = id := by
  rw [← or_eq_some_iff known, ← get?_correlationId]
  constructor
  · exact fun under => under.kafka ""
  · intro header
    refine ⟨fun _ => header, fun destination ids => ?_⟩
    rw [correlationId_toJms, known]
    rfl

theorem get?_setAll (origin : String) (payload : Option Bytes) (failure : Failure)
    (settings : List Setting) :
    ((ofPayload origin payload failure).setAll settings).headers.get? "correlationId" =
      lastFound settings := by
  rw [headers_setAll, lastFound]
  cases lastHeaders settings <;> rfl

theorem isSome_firstFound {settings : List Setting} {id : String}
    (found : lastFound settings = some id) : (firstFound settings).isSome := by
  obtain ⟨headers, last, here⟩ := Option.bind_eq_some_iff.1 found
  obtain ⟨s, member, own⟩ := List.mem_filterMap.1 (List.mem_of_getLast? last)
  have one : s.found? = some id := by rw [Setting.found?, own, Option.bind_some, here]
  exact List.findSome?_isSome_iff.2 ⟨s, member, by rw [one]; rfl⟩

/-- Whatever was set on a dead letter, it goes out under its id in both forms exactly if the headers
that were set last hold no other one. That id is the one set last, or else the first one found. -/
theorem renderings_agree_iff (origin : String) (payload : Option Bytes) (failure : Failure)
    (settings : List Setting) :
    let d := (ofPayload origin payload failure).setAll settings
    d.correlationId = (lastGiven settings).or (firstFound settings) ∧
      (∀ destination ids, (d.toJms destination ids).1.correlationId =
        some (d.correlationId.getD ids.draw.1.hyphenated)) ∧
      (∀ topic, (d.toKafka topic).headers.get? "correlationId" =
        (lastFound settings).or d.correlationId) ∧
      ((∀ id, d.correlationId = some id → d.GoesUnder id) ↔
        ∀ other, lastFound settings = some other → d.correlationId = some other) ∧
      ∀ id, lastGiven settings = some id →
        (d.GoesUnder id ↔ ∀ other, lastFound settings = some other → other = id) := by
  intro d
  have known : d.correlationId = (lastGiven settings).or (firstFound settings) := by
    rw [correlationId_setAll]
    rfl
  have found : d.headers.get? "correlationId" = lastFound settings :=
    get?_setAll origin payload failure settings
  have own : ∀ id, d.correlationId = some id →
      (d.GoesUnder id ↔ ∀ other, lastFound settings = some other → other = id) := by
    intro id here
    rw [← found]
    exact goesUnder_iff here
  refine ⟨known, correlationId_toJms d, fun topic => ?_, ?_, fun id given => own id ?_⟩
  · rw [← found]
    exact get?_correlationId d
  · constructor
    · intro under other last
      have some_id : d.correlationId.isSome := by
        rw [known, Option.isSome_or, isSome_firstFound last, Bool.or_true]
      obtain ⟨id, here⟩ := Option.isSome_iff_exists.1 some_id
      rw [here, (own id here).1 (under id here) other last]
    · intro last id here
      exact (own id here).2 fun other found =>
        Option.some.inj ((last other found).symm.trans here)
  · rw [known, given]
    rfl

def crossed : DeadLetter :=
  (ofPayload "orders" (some (utf8 "v1")) .forced).setAll
    [.correlationId "explicit", .headers (.ofList [("correlationId", "from-header")])]

/-- The id that was set does not win over the one in the headers in the form for Kafka. -/
theorem header_wins_for_kafka : ¬ ∀ id, crossed.correlationId = some id → crossed.GoesUnder id := by
  intro under
  have known : crossed.correlationId = some "explicit" := rfl
  have header : (crossed.toKafka "orders-dlq").headers.get? "correlationId" =
      some "from-header" := by
    decide
  exact absurd (header.symm.trans ((under "explicit" known).kafka "orders-dlq")) (by decide)

end OutboxRelay.DeadLetter
