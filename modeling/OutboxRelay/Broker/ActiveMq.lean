import OutboxRelay.Broker.Letter
import OutboxRelay.Http.Response
import OutboxRelay.PublishError
import OutboxRelay.Text.Blank
import OutboxRelay.Text.Hex
import OutboxRelay.Url

/-! JMS messages over the REST interface of ActiveMQ: a POST of the body to
`{base}/api/message/{destination}?type=queue`. The correlation id and every property travel as
pairs of the query. -/

namespace OutboxRelay

open Text

structure ActiveMq where
  baseUrl : String
  user : String
  password : String
deriving DecidableEq

namespace ActiveMq

def broker : String := "activemq"

def correlationParameter : String := "JMSCorrelationID"

def base (c : ActiveMq) : String :=
  String.ofList (c.baseUrl.toList.reverse.dropWhile (· = '/')).reverse

def endpoint (c : ActiveMq) (destination : String) : String :=
  c.base ++ "/api/message/" ++ destination

def parametersIn (m : JmsMessage) (properties : List (String × String)) :
    List (String × String) :=
  ("type", "queue") :: ((m.correlationId.map ((correlationParameter, ·))).toList ++ properties)

def parameters (m : JmsMessage) : List (String × String) := parametersIn m m.properties.entries

def urlIn (c : ActiveMq) (m : JmsMessage) (properties : List (String × String)) :
    Except PublishError Url :=
  match Url.parse (c.endpoint m.destination) with
  | .ok url => .ok (url.withPairs (parametersIn m properties))
  | .error e =>
    .error (.rejected broker ("invalid url " ++ c.endpoint m.destination ++ ": " ++ e.message))

def urlOf (c : ActiveMq) (m : JmsMessage) : Except PublishError Url := c.urlIn m m.properties.entries

structure Request where
  url : Url
  authorization : String
  contentType : String
  body : Bytes

def authorization (c : ActiveMq) : String :=
  "Basic " ++ String.ofList (base64 (utf8 (c.user ++ ":" ++ c.password)))

def request (c : ActiveMq) (m : JmsMessage) : Except PublishError Request :=
  (c.urlOf m).map fun url => ⟨url, c.authorization, "text/plain", utf8 m.body⟩

inductive Reply
  | broken (cause : String)
  /-- A status, and the body unless it breaks off. -/
  | answered (status : Nat) (body : Option Bytes)

def isBodiless (status : Nat) : Bool := [101, 204, 304].contains status

/-- A message that came back, read as a reply. A provisional status announces another message,
so if nothing follows there is no reply; nor is there one with a status of other than three
digits. -/
def Reply.ofMessage (status : Nat) (body : Option Bytes) : Reply :=
  if status ≠ 101 ∧ status < 200 ∨ 999 < status then .broken "no message that is a reply"
  else .answered status (if isBodiless status then some [] else body)

def isAccepted (status : Nat) : Bool := 200 ≤ status && status < 300

def isPassing (status : Nat) : Bool := (500 ≤ status && status < 600) || status = 429

def failureOf (status : Nat) (body : String) : PublishError :=
  let cause := "HTTP " ++ Http.statusText status ++ ": " ++ trim body
  if isPassing status then .unavailable broker cause else .rejected broker cause

def acceptedEntry (destination : String) : JournalEntry :=
  ⟨.debug, "activemq accepted message", [("destination", destination)]⟩

def outcome (m : JmsMessage) : Reply → Except PublishError Unit × Journal
  | .broken cause => (.error (.unavailable broker cause), [])
  | .answered status body =>
    if isAccepted status then (.ok (), [acceptedEntry m.destination])
    else (.error (failureOf status ((body.map textOfUtf8).getD "")), [])

end ActiveMq

end OutboxRelay
