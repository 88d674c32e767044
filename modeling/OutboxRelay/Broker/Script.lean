import OutboxRelay.Broker.Letter
import OutboxRelay.PublishError

/-! A broker that reacts by a script, for trials without one. Each kind of letter has a list of
reactions, taken in order, and a reaction for when the list is used up. -/

namespace OutboxRelay

structure BrokerScript where
  destination : Option String
  script : List (Reaction Receipt)
  standard : Reaction Receipt
  deadLetterScript : List (Reaction Receipt)
  deadLetterStandard : Reaction Receipt
  perPayload : List (String × List (Reaction Receipt))

namespace BrokerScript

inductive Channel
  | deadLetters
  | payload (text : String)
  | letters
deriving DecidableEq

def channel (s : BrokerScript) (letter : Letter) : Channel :=
  if s.destination.any (· ≠ letter.destination) then .deadLetters
  else if s.perPayload.any (·.1 = letter.payloadText) then .payload letter.payloadText
  else .letters

def reactions (s : BrokerScript) : Channel → List (Reaction Receipt) × Reaction Receipt
  | .deadLetters => (s.deadLetterScript, s.deadLetterStandard)
  | .payload text => ((s.perPayload.lookup text).getD [], s.standard)
  | .letters => (s.script, s.standard)

def react (s : BrokerScript) (past : List Letter) (letter : Letter) : Reaction Receipt :=
  let channel := s.channel letter
  let (script, standard) := s.reactions channel
  (script[(past.filter fun l => s.channel l = channel).length]?).getD standard

/-- The answer to a letter where nobody waits for it; silence is the breaking of the line. -/
def answer (s : BrokerScript) (past : List Letter) (letter : Letter) :
    Except PublishError Receipt :=
  match s.react past letter with
  | .after _ answer => answer
  | .never => .error (.unavailable "" "")

end BrokerScript

end OutboxRelay
