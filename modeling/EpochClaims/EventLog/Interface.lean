import EpochClaims.Event
import EpochClaims.Hex.Text
import EpochClaims.Keccak.Digest

/-!
# The logged events

A log names its event by a selector, the digest of the event's name and the
types of its fields. `interface` describes the three events, and the selectors
are computed from it. An outcome has a result, two claims and two validators;
the end of an epoch has its claim.
-/

namespace EpochClaims

namespace EventLog

/-- A field of a logged event: its name, its type, and the type that the
source of the log calls it. -/
structure Field where
  name : String
  type : String
  sourceType : String
  deriving DecidableEq, Repr

/-- A logged event with its fields. -/
structure Description where
  name : String
  fields : List Field
  deriving DecidableEq, Repr

/-- The fields of an outcome. -/
def outcomeFields : List Field :=
  [⟨"result", "uint8", "enum IValidatorManager.Result"⟩,
    ⟨"claims", "bytes32[2]", "bytes32[2]"⟩,
    ⟨"validators", "address[2]", "address payable[2]"⟩]

/-- The fields of the end of an epoch. -/
def newEpochFields : List Field :=
  [⟨"claim", "bytes32", "bytes32"⟩]

/-- The outcome of a claim. -/
def claimReceivedEvent : Description := ⟨Event.claimReceivedName, outcomeFields⟩

/-- The outcome of a dispute. -/
def disputeEndedEvent : Description := ⟨Event.disputeEndedName, outcomeFields⟩

/-- The end of an epoch. -/
def newEpochEvent : Description := ⟨Event.newEpochName, newEpochFields⟩

/-- All logged events. -/
def interface : List Description :=
  [claimReceivedEvent, disputeEndedEvent, newEpochEvent]

/-- The name of an event with the types of its fields. -/
def Description.signature (d : Description) : String :=
  d.name ++ "(" ++ String.intercalate "," (d.fields.map Field.type) ++ ")"

/-- The selector of an event. -/
def Description.selector (d : Description) : String :=
  let bytes := d.signature.toList.map fun c => UInt8.ofNat c.toNat
  String.ofList (Hex.write (Hex.ofBytes (Keccak.digest bytes)))

/-- The selector of the outcome of a claim. -/
def claimReceivedSelector : String := claimReceivedEvent.selector

/-- The selector of the outcome of a dispute. -/
def disputeEndedSelector : String := disputeEndedEvent.selector

/-- The selector of the end of an epoch. -/
def newEpochSelector : String := newEpochEvent.selector

end EventLog

/-- A log: its topics, the selector first, and its data. Both are texts in the
logs that this library writes. -/
structure EventLog where
  topics : List Document
  data : Argument
  deriving DecidableEq, Repr, Inhabited

end EpochClaims
