import EpochClaims.Argument.Number
import EpochClaims.Event

/-!
# The view of an epoch

The view follows the events of a manager, from whatever source they come: the
number of the open epoch, how far it has come, the conflicts seen in it, the
claim of the last consensus, and the claims of the closed epochs. It is a fold
over events, `View.ingestAll`, and events of other names and outcomes of
unknown result leave it as it is. Epochs are numbers, unless the first one was
handed in as something else.
-/

namespace EpochClaims

/-- How far an epoch has come. -/
inductive Phase where
  | awaitingFirstClaim
  | awaitingConsensusNoConflict
  | awaitingConsensusAfterConflict
  | consensusReached
  deriving DecidableEq, Repr

/-- The word for a phase. -/
def Phase.text : Phase → String
  | awaitingFirstClaim => "AwaitingFirstClaim"
  | awaitingConsensusNoConflict => "AwaitingConsensusNoConflict"
  | awaitingConsensusAfterConflict => "AwaitingConsensusAfterConflict"
  | consensusReached => "ConsensusReached"

/-- A closed epoch with its claim. -/
structure FinalizedEpoch where
  epoch : Argument
  claim : Argument
  deriving DecidableEq, Repr

/-- What is known of an epoch from its events. The claim of a consensus is the
first one of its outcome, and null before a consensus. -/
structure View where
  epoch : Argument
  phase : Phase
  consensusClaim : Argument
  conflicts : List Outcome
  finalized : List FinalizedEpoch
  deriving DecidableEq, Repr

namespace View

/-- The view before the first event. -/
def start (epoch : Argument) : View :=
  ⟨epoch, .awaitingFirstClaim, .null, [], []⟩

/-- The view after an outcome. -/
def hear (v : View) (o : Outcome) : View :=
  match o.result? with
  | some .conflict =>
    { v with conflicts := v.conflicts ++ [o], phase := .awaitingConsensusAfterConflict }
  | some .consensus => { v with consensusClaim := o.claims.first, phase := .consensusReached }
  | some .noConflict =>
    { v with
      phase :=
        if v.conflicts.isEmpty then .awaitingConsensusNoConflict
        else .awaitingConsensusAfterConflict }
  | none => v

/-- The view after the end of the epoch. -/
def close (v : View) (claim : Argument) : View :=
  ⟨v.epoch.next, .awaitingFirstClaim, .null, [], v.finalized ++ [⟨v.epoch, claim⟩]⟩

/-- The view after an event. -/
def ingest (v : View) : Event → View
  | .claimReceived o => v.hear o
  | .disputeEnded o => v.hear o
  | .newEpoch claim => v.close claim
  | .other _ => v

/-- The view after a list of events. -/
def ingestAll (v : View) (events : List Event) : View :=
  events.foldl ingest v

/-- The claim of the first closed epoch that is the same as the given one. -/
def finalizedClaim? (v : View) (epoch : Argument) : Option Argument :=
  (v.finalized.find? fun f => f.epoch.same epoch).map FinalizedEpoch.claim

@[simp] theorem ingestAll_nil (v : View) : v.ingestAll [] = v := rfl

@[simp] theorem ingestAll_cons (v : View) (e : Event) (es : List Event) :
    v.ingestAll (e :: es) = (v.ingest e).ingestAll es := rfl

theorem ingestAll_append (v : View) (es fs : List Event) :
    v.ingestAll (es ++ fs) = (v.ingestAll es).ingestAll fs :=
  List.foldl_append ..

end View

end EpochClaims
