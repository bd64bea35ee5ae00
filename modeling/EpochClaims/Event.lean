import EpochClaims.Argument.Basic

/-!
# Outcomes and events

An outcome is what a claim or a dispute led to: a result and two lists, the
claims and the validators it concerns. The manager announces every change by
an event, an outcome or the claim of a closed epoch. Events also arrive from
elsewhere, so any values can stand in an outcome, other fields can come with
it, and events of other names can be written down as well. `Outcome.of` makes
the outcomes that a manager announces.
-/

namespace EpochClaims

/-- What a claim or a dispute can lead to. -/
inductive ClaimResult where
  | noConflict
  | consensus
  | conflict
  deriving DecidableEq, Repr, Inhabited

namespace ClaimResult

/-- The word for a result. -/
def text : ClaimResult → String
  | noConflict => "NoConflict"
  | consensus => "Consensus"
  | conflict => "Conflict"

/-- The result of a word. -/
def ofText? (s : String) : Option ClaimResult :=
  if s = "NoConflict" then some noConflict
  else if s = "Consensus" then some consensus
  else if s = "Conflict" then some conflict
  else none

/-- All results, in the order of their codes. -/
def all : List ClaimResult := [noConflict, consensus, conflict]

/-- The code of a result in a log. -/
def code : ClaimResult → Nat
  | noConflict => 0
  | consensus => 1
  | conflict => 2

/-- The result of a code. -/
def ofCode? (n : Nat) : Option ClaimResult :=
  all[n]?

@[simp] theorem ofText?_text (r : ClaimResult) : ofText? r.text = some r := by
  cases r <;> decide

@[simp] theorem ofCode?_code (r : ClaimResult) : ofCode? r.code = some r := by
  cases r <;> rfl

end ClaimResult

/-- A result with the claims and the validators it concerns, and with whatever
else was handed in beside them. -/
structure Outcome where
  result : Argument
  claims : Argument
  validators : Argument
  others : List (String × Document)
  deriving DecidableEq, Repr, Inhabited

namespace Outcome

/-- The outcome of a known result. -/
def of (result : ClaimResult) (claims validators : List String) : Outcome :=
  ⟨.text result.text, .list (claims.map .text), .list (validators.map .text), []⟩

/-- The result of an outcome, if it is known. -/
def result? (o : Outcome) : Option ClaimResult :=
  match o.result with
  | .text s => ClaimResult.ofText? s
  | _ => none

@[simp] theorem result?_of (result : ClaimResult) (claims validators : List String) :
    (of result claims validators).result? = some result :=
  ClaimResult.ofText?_text result

/-- The first claim of an outcome of a known result. -/
@[simp] theorem first_claims_of (result : ClaimResult) (claim : String)
    (claims validators : List String) :
    (of result (claim :: claims) validators).claims.first = .text claim := rfl

end Outcome

/-- An announcement of a change. -/
inductive Event where
  | claimReceived (outcome : Outcome)
  | disputeEnded (outcome : Outcome)
  | newEpoch (claim : Argument)
  | other (name : String)
  deriving DecidableEq, Repr, Inhabited

namespace Event

/-- The name of the events that a claim leads to. -/
def claimReceivedName : String := "ClaimReceived"

/-- The name of the events that a dispute leads to. -/
def disputeEndedName : String := "DisputeEnded"

/-- The name of the events that closing an epoch leads to. -/
def newEpochName : String := "NewEpoch"

/-- The name of an event. -/
def name : Event → String
  | claimReceived _ => claimReceivedName
  | disputeEnded _ => disputeEndedName
  | newEpoch _ => newEpochName
  | other name => name

end Event

end EpochClaims
