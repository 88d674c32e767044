import Mathlib.Data.List.Forall2
import OutboxRelay.Proofs.Broker.FailedLetter
import OutboxRelay.Proofs.Dispatch.Ticks
import OutboxRelay.Proofs.Outgoing.Completion

/-! What is the same about an event that is dispatched twice, at different times and among different
other events: its letters, but for the identifiers that were drawn for it, and the times at which
they are handed over and answered, counted from the start of its dispatch. -/

namespace OutboxRelay

/-! ### Headers and letters -/

/-- The headers of an event that are drawn, because it comes without them. -/
def Event.Draws (e : Event) (key : String) : Prop :=
  (key = correlationIdKey ∨ key = traceparentKey) ∧ e.headers.get? key = none

structure Headers.AgreeBut (drawn : String → Prop) (h h' : Headers) : Prop where
  keys : ∀ key, (h.get? key).isSome = (h'.get? key).isSome
  values : ∀ key, ¬ drawn key → h.get? key = h'.get? key

namespace Headers.AgreeBut

variable {drawn : String → Prop} {h h' : Headers}

theorem refl (drawn : String → Prop) (h : Headers) : AgreeBut drawn h h :=
  ⟨fun _ => rfl, fun _ _ => rfl⟩

theorem common {h'' : Headers} (a : AgreeBut drawn h h'') (b : AgreeBut drawn h' h'') :
    AgreeBut drawn h h' :=
  ⟨fun key => (a.keys key).trans (b.keys key).symm,
    fun key known => (a.values key known).trans (b.values key known).symm⟩

theorem erase (agree : AgreeBut drawn h h') (key : String) :
    AgreeBut drawn (h.erase key) (h'.erase key) := by
  refine ⟨fun k => ?_, fun k known => ?_⟩
  · rw [get?_erase, get?_erase]
    split
    · rfl
    · exact agree.keys k
  · rw [get?_erase, get?_erase]
    split
    · rfl
    · exact agree.values k known

end Headers.AgreeBut

namespace Outgoing

variable (e : Event) (ids ids' : IdSource)

theorem isSome_correlationId : ((headers e ids).1.get? correlationIdKey).isSome :=
  (Headers.isSome_get?_iff ..).2 ((mem_keys_headers ..).2 (.inr List.mem_cons_self))

end Outgoing

inductive Letter.Alike (drawn : String → Prop) : Letter → Letter → Prop
  | kafka {topic key payload headers headers'} (agree : Headers.AgreeBut drawn headers headers') :
      Alike drawn (.kafka ⟨topic, key, payload, headers⟩) (.kafka ⟨topic, key, payload, headers'⟩)
  | jms {destination id id' body properties properties'} (same : ¬ drawn correlationIdKey → id = id')
      (agree : Headers.AgreeBut drawn properties properties') :
      Alike drawn (.jms ⟨destination, some id, body, properties⟩)
        (.jms ⟨destination, some id', body, properties'⟩)
  | direct {destination body headers headers'} (agree : Headers.AgreeBut drawn headers headers') :
      Alike drawn (.direct destination body headers) (.direct destination body headers')

theorem Letter.Alike.common {drawn : String → Prop} {l l' m : Letter} (a : l.Alike drawn m)
    (b : l'.Alike drawn m) : l.Alike drawn l' := by
  cases a with
  | kafka agree => cases b with | kafka agree' => exact .kafka (agree.common agree')
  | jms same agree =>
    cases b with
    | jms same' agree' =>
      exact .jms (fun stored => (same stored).trans (same' stored).symm) (agree.common agree')
  | direct agree => cases b with | direct agree' => exact .direct (agree.common agree')

namespace Posting

variable {e : Event} {h h' : Headers}

theorem not_draws_aggregateId (e : Event) : ¬ e.Draws aggregateIdKey := by
  rintro ⟨correlation | context, _⟩
  · exact absurd correlation (by decide)
  · exact absurd context (by decide)

theorem alike_firstLetter (agree : h.AgreeBut e.Draws h')
    (correlated : (h.get? correlationIdKey).isSome) (target : Target) (payload : String)
    (ids ids' : IdSource) :
    ((Posting.mk target payload h).firstLetter ids).1.Alike e.Draws
      ((Posting.mk target payload h').firstLetter ids').1 := by
  unfold firstLetter kafkaKey
  cases target.publisher with
  | kafka suffix =>
    dsimp only
    rw [agree.values _ (not_draws_aggregateId e)]
    exact .kafka agree
  | jms =>
    have correlated' := agree.keys _ ▸ correlated
    obtain ⟨id, known⟩ := Option.isSome_iff_exists.1 correlated
    obtain ⟨id', known'⟩ := Option.isSome_iff_exists.1 correlated'
    simp only [JmsMessage.ofHeaders, known, known']
    refine .jms (fun stored => ?_) (agree.erase _)
    have same := agree.values _ stored
    rw [known, known'] at same
    exact Option.some.inj same
  | direct name => exact .direct agree

theorem alike_deadLetterCopy (agree : h.AgreeBut e.Draws h') (target : Target)
    (payload suffix : String) (cause : PublishError) :
    Letter.Alike e.Draws (.kafka ((Posting.mk target payload h).deadLetterCopy suffix cause))
      (.kafka ((Posting.mk target payload h').deadLetterCopy suffix cause)) := by
  have key : (Posting.mk target payload h).kafkaKey = (Posting.mk target payload h').kafkaKey := by
    unfold kafkaKey
    rw [agree.values _ (not_draws_aggregateId e)]
  have copied : Headers.AgreeBut e.Draws
      ((Posting.mk target payload h).deadLetterCopy suffix cause).headers
      ((Posting.mk target payload h').deadLetterCopy suffix cause).headers := by
    refine ⟨fun k => ?_, fun k known => ?_⟩
    · rw [get?_deadLetterCopy, get?_deadLetterCopy, Option.isSome_or, Option.isSome_or,
        agree.keys]
    · rw [get?_deadLetterCopy, get?_deadLetterCopy, agree.values k known]
  change Letter.Alike e.Draws (.kafka ⟨_, (Posting.mk target payload h).kafkaKey, _, _⟩) _
  rw [key]
  exact .kafka copied

theorem alike_afterFirst (agree : h.AgreeBut e.Draws h') (target : Target) (payload : String)
    (letter letter' : Letter) (answer : Except PublishError Receipt) :
    (∃ result journal journal',
      (Posting.mk target payload h).afterFirst letter answer = (.finished result, journal) ∧
      (Posting.mk target payload h').afterFirst letter' answer = (.finished result, journal')) ∨
    ∃ copy copy' cause, Letter.Alike e.Draws copy copy' ∧
      (Posting.mk target payload h).afterFirst letter answer = (.another copy cause, []) ∧
      (Posting.mk target payload h').afterFirst letter' answer = (.another copy' cause, []) := by
  unfold afterFirst
  cases publisher : target.publisher with
  | kafka suffix =>
    cases answer with
    | ok receipt => exact .inl ⟨_, _, _, rfl, rfl⟩
    | error cause =>
      exact .inr ⟨_, _, _, alike_deadLetterCopy agree target payload suffix cause, rfl, rfl⟩
  | jms => cases answer <;> exact .inl ⟨_, _, _, rfl, rfl⟩
  | direct name => cases answer <;> exact .inl ⟨_, _, _, rfl, rfl⟩

end Posting

/-! ### Times and calls -/

/-- One instant is as long after `since` as the other is after `since'`. -/
def Instant.SameAge (since since' t t' : Instant) : Prop :=
  t.nanos + since'.nanos = t'.nanos + since.nanos

namespace Instant.SameAge

variable {since since' t t' u u' : Instant}

theorem start (since since' : Instant) : SameAge since since' since since' := Nat.add_comm ..

theorem common {v other : Instant} (a : SameAge since other t v) (b : SameAge since' other t' v) :
    SameAge since since' t t' := by
  unfold SameAge at *
  omega

theorem le (ht : SameAge since since' t t') (hu : SameAge since since' u u') : t.le u = t'.le u' := by
  unfold SameAge at ht hu
  unfold Instant.le
  congr 1
  exact propext ⟨fun _ => by omega, fun _ => by omega⟩

theorem add (h : SameAge since since' t t') (d : Duration) :
    SameAge since since' (t.add d) (t'.add d) := by
  unfold SameAge Instant.add at *
  dsimp only
  omega

theorem timerAfter (phase : since.SamePhase since') (h : SameAge since since' t t')
    (d : Duration) : SameAge since since' (t.timerAfter d) (t'.timerAfter d) := by
  have there := roundUp_add (Nat.dvd_mul_right nanosPerMilli (since'.nanos / nanosPerMilli))
    (t.nanos + d.nanos)
  have here := roundUp_add (Nat.dvd_mul_right nanosPerMilli (since.nanos / nanosPerMilli))
    (t'.nanos + d.nanos)
  have whole := Nat.div_add_mod since.nanos nanosPerMilli
  have whole' := Nat.div_add_mod since'.nanos nanosPerMilli
  unfold SamePhase at phase
  -- put off by whole milliseconds, the two instants come to one
  have same : nanosPerMilli * (since'.nanos / nanosPerMilli) + (t.nanos + d.nanos) =
      nanosPerMilli * (since.nanos / nanosPerMilli) + (t'.nanos + d.nanos) := by
    unfold SameAge at h
    omega
  rw [same] at there
  unfold SameAge Instant.timerAfter Instant.add
  omega

end Instant.SameAge

inductive CallState.Alike (since since' : Instant) : CallState → CallState → Prop
  | inProgress : Alike since since' .inProgress .inProgress
  | answered {t t' answer} (time : Instant.SameAge since since' t t') :
      Alike since since' (.answered t answer) (.answered t' answer)
  | abandoned : Alike since since' .abandoned .abandoned

/-- The same call in two dispatches of an event, which began at `since` and at `since'`. How many
other calls there are at the time is not looked at. -/
structure Call.Alike (drawn : String → Prop) (since since' : Instant) (c c' : Call) : Prop where
  target : c.target = c'.target
  event : c.event = c'.event
  attempt : c.attempt = c'.attempt
  isCopy : c.isCopy = c'.isCopy
  letter : c.letter.Alike drawn c'.letter
  start : Instant.SameAge since since' c.start c'.start
  state : c.state.Alike since since' c'.state

theorem CallState.Alike.common {since since' other : Instant} {x x' y : CallState}
    (a : x.Alike since other y) (b : x'.Alike since' other y) : x.Alike since since' x' := by
  cases a with
  | inProgress => cases b; exact .inProgress
  | answered time => cases b with | answered time' => exact .answered (time.common time')
  | abandoned => cases b; exact .abandoned

theorem Call.Alike.common {drawn : String → Prop} {since since' other : Instant} {c c' m : Call}
    (a : c.Alike drawn since other m) (b : c'.Alike drawn since' other m) :
    c.Alike drawn since since' c' :=
  ⟨a.target.trans b.target.symm, a.event.trans b.event.symm, a.attempt.trans b.attempt.symm,
    a.isCopy.trans b.isCopy.symm, a.letter.common b.letter, a.start.common b.start,
    a.state.common b.state⟩

def CallsAlike (drawn : String → Prop) (since since' : Instant) : List Call → List Call → Prop :=
  List.Forall₂ (Call.Alike drawn since since')

namespace CallsAlike

variable {drawn : String → Prop} {since since' : Instant} {calls calls' : List Call} {c c' : Call}

theorem concat_iff : CallsAlike drawn since since' (calls ++ [c]) (calls' ++ [c']) ↔
    CallsAlike drawn since since' calls calls' ∧ c.Alike drawn since since' c' := by
  unfold CallsAlike
  rw [← List.forall₂_reverse_iff, List.reverse_concat, List.reverse_concat, List.forall₂_cons,
    List.forall₂_reverse_iff, and_comm]

theorem common {other : Instant} {m : List Call} (a : CallsAlike drawn since other calls m)
    (b : CallsAlike drawn since' other calls' m) : CallsAlike drawn since since' calls calls' := by
  induction a generalizing calls' with
  | nil => cases b; exact .nil
  | cons first _ ih =>
    cases b with
    | cons first' rest' => exact .cons (first.common first') (ih rest')

end CallsAlike

end OutboxRelay
