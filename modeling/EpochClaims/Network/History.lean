import EpochClaims.Journal
import EpochClaims.Network.Act

/-!
# The history of a network

Everything that can be seen of a network is written down in one list, in the
order in which it happens: calls of managers, lines of the journal, events as
they are announced and as they reach each subscriber, deliveries that break
off, and the acts of listeners. The journal and the listeners' own record are
read off this list.
-/

namespace EpochClaims

/-- Who receives the events of a manager. A listener subscribes once, however
often it asks to; an indexer subscribes anew, under a ticket of its own, each
time; and every record has one recorder. -/
inductive Subscriber where
  | listener (name : String)
  | indexer (handle ticket : Nat)
  | recorder (handle : Nat)
  deriving DecidableEq, Repr

/-- What a call comes to for its caller: a refusal, or its reply with what escaped
from the delivery of its event. If anything did, the caller is told of this in
place of the reply. -/
abbrev CallAnswer := Except Refusal (Reply × Option Raised)

/-- What an act leads to: the answer to a call with the manager after it, or
nothing for acts that are no calls or name no manager. -/
inductive ActAnswer where
  | called (result : CallAnswer) (manager : Manager)
  | done

/-- What escapes from an act. -/
def ActAnswer.escaped? : ActAnswer → Option Raised
  | called (.ok (_, escaped)) _ => escaped
  | _ => none

/-- Something that happens in a network. An emission is the number of events
announced before an event. Its delivery breaks off at a subscriber from whose
reaction something escapes. -/
inductive Happening where
  | called (manager : Nat) (call : Call) (result : Except Refusal Reply)
  | wrote (line : Line)
  | announced (emission manager : Nat) (event : Event) (audience : List Subscriber)
  | delivered (emission manager : Nat) (event : Event) (subscriber : Subscriber)
  | brokenOff (emission manager : Nat) (subscriber : Subscriber) (escaped : Raised)
  | acted (listener : String) (act : Act) (answer : ActAnswer)

/-- What a listener leaves in the record of the listeners. -/
inductive Mark where
  | heard (listener : String) (event : Event)
  | acted (listener : String) (act : Act) (answer : ActAnswer)

namespace Happening

/-- The line of the journal that a happening is. -/
def line? : Happening → Option Line
  | wrote line => some line
  | _ => none

/-- The mark that a happening leaves in the record of the listeners. -/
def mark? : Happening → Option Mark
  | delivered _ _ event (.listener name) => some (.heard name event)
  | acted listener act answer => some (.acted listener act answer)
  | _ => none

/-- The lines of the journal. -/
def lines (history : List Happening) : List Line :=
  history.filterMap line?

/-- The record of the listeners. -/
def marks (history : List Happening) : List Mark :=
  history.filterMap mark?

end Happening

end EpochClaims
