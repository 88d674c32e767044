import OutboxRelay.Event
import OutboxRelay.Text.Pieces
import OutboxRelay.Uuid

/-! Headers of outgoing messages: correlation id, trace context and event metadata.
A value that is there is never replaced, so doing any of this twice is doing it once.
A trace context is one value, `00-<trace id>-<parent id>-<flags>`, of 32, 16 and 2 lower-case
hexadecimal digits; an identifier of zeros alone is no identifier. -/

namespace OutboxRelay

def correlationIdKey : String := "correlationId"
def traceparentKey : String := "traceparent"
def eventIdKey : String := "eventId"
def eventTypeKey : String := "eventType"
def aggregateTypeKey : String := "aggregateType"
def aggregateIdKey : String := "aggregateId"

namespace Traceparent

open Text

def isHexField (width : Nat) (cs : List Char) : Bool := cs.length = width && cs.all isLowerHex

def isIdentifier (width : Nat) (cs : List Char) : Bool :=
  isHexField width cs && cs.any (· ≠ '0')

def isValid (value : String) : Bool :=
  match splitAt '-' value.toList with
  | [version, trace, parent, flags] =>
    version = ['0', '0'] && isIdentifier 32 trace && isIdentifier 16 parent && isHexField 2 flags
  | _ => false

def ofUuids (trace parent : Uuid) : String :=
  String.ofList ("00-".toList ++ trace.digits ++ '-' :: (parent.digits.take 16 ++ "-01".toList))

def draw (ids : IdSource) : String × IdSource :=
  let (trace, ids) := ids.draw
  let (parent, ids) := ids.draw
  (ofUuids trace parent, ids)

end Traceparent

namespace Outgoing

def withCorrelationId (h : Headers) (ids : IdSource) : Headers × IdSource :=
  if (h.get? correlationIdKey).isSome then (h, ids)
  else
    let (id, ids) := ids.draw
    (h.insert correlationIdKey id.hyphenated, ids)

def withTraceContext (h : Headers) (ids : IdSource) : Headers × IdSource :=
  if (h.get? traceparentKey).isSome then (h, ids)
  else
    let (context, ids) := Traceparent.draw ids
    (h.insert traceparentKey context, ids)

def complete (h : Headers) (ids : IdSource) : Headers × IdSource :=
  let (h, ids) := withCorrelationId h ids
  withTraceContext h ids

def metadata (e : Event) : List (String × String) :=
  [(eventIdKey, toString e.id), (eventTypeKey, e.eventType),
   (aggregateTypeKey, e.aggregateType), (aggregateIdKey, e.aggregateId)]

def headers (e : Event) (ids : IdSource) : Headers × IdSource :=
  let (h, ids) := complete e.headers ids
  ((metadata e).foldl (fun h (key, value) => h.insertNew key value) h, ids)

end Outgoing

end OutboxRelay
