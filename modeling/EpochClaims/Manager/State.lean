import EpochClaims.Claim
import EpochClaims.Event
import EpochClaims.Roster.Basic

/-!
# The state of an epoch

The state holds the roster, the goal (the slots whose agreement is needed),
the agreement (the slots that endorse the current claim) and the current
claim. It changes in four ways, which take slots and claims that have already
been looked up:

* `State.submit` hears a claim of a validator. The first claim of an epoch
  becomes the current one; the same claim again adds its sender to the
  agreement; any other claim is a conflict and changes nothing.
* `State.evict` takes a validator out of roster, goal and agreement at once.
* `State.award` gives a dispute to its winner. If the winner stands by the
  current claim nothing changes; if somebody still endorses the current claim
  the dispute goes on against them; otherwise the winner's claim replaces it.
* `State.close` ends the epoch: no claim, no agreement.

What a change amounts to is a `Verdict`. Consensus is agreement that equals
the goal.
-/

namespace EpochClaims

/-- The roster, the goal, the agreement and the current claim. -/
structure State (n : Nat) where
  roster : Roster n
  goal : Mask n
  agreement : Mask n
  claim : Option Claim
  deriving DecidableEq

/-- What a claim or a dispute amounts to. -/
inductive Verdict where
  | noConflict
  | consensus (claim : Claim) (validator : Address)
  | conflict (current : Option Claim) (rival : Claim) (endorser challenger : Address)
  deriving DecidableEq, Repr

/-- A broken invariant of a state that was about to be used. -/
inductive Breach where
  | noEndorser (claim : Option Claim)
  | vacantSlot (slot : Nat)
  deriving DecidableEq, Repr

namespace Verdict

/-- A verdict as the outcome that is announced. Places that a verdict does not
fill hold the empty claim and the zero address. -/
def outcome : Verdict → Outcome
  | noConflict =>
    .of .noConflict [Claim.noneText, Claim.noneText] [Address.zero.text, Address.zero.text]
  | consensus claim validator =>
    .of .consensus [claim.text, Claim.noneText] [validator.text, Address.zero.text]
  | conflict current rival endorser challenger =>
    .of .conflict [Claim.textOf current, rival.text] [endorser.text, challenger.text]

/-- The result of a verdict. -/
def result : Verdict → ClaimResult
  | noConflict => .noConflict
  | consensus _ _ => .consensus
  | conflict _ _ _ _ => .conflict

@[simp] theorem result?_outcome (v : Verdict) : v.outcome.result? = some v.result := by
  cases v <;> exact Outcome.result?_of ..

end Verdict

/-- Consensus once the agreement is the goal, and no conflict before. -/
def settle {n : Nat} (claim : Claim) (validator : Address) (agreement goal : Mask n) : Verdict :=
  if agreement = goal then .consensus claim validator else .noConflict

namespace State

variable {n : Nat}

/-- The state before the first claim. -/
def initial (r : Roster n) : State n :=
  ⟨r, r.occupied, Mask.empty, none⟩

/-- The validator in the lowest slot that endorses the current claim. -/
def endorser (s : State n) : Except Breach Address :=
  match s.agreement.least? with
  | none => .error (.noEndorser s.claim)
  | some i =>
    match s.roster.slot i with
    | some a => .ok a
    | none => .error (.vacantSlot i)

/-- Hears a claim of the validator `sender` in slot `i`. -/
def submit (s : State n) (claim : Claim) (i : Fin n) (sender : Address) :
    Except Breach (State n × Verdict) :=
  if s.claim = none ∨ s.claim = some claim then
    let agreement := s.agreement.insert i
    .ok ({ s with agreement := agreement, claim := some claim },
      settle claim sender agreement s.goal)
  else s.endorser.map fun e => (s, .conflict s.claim claim e sender)

/-- Takes the validator in slot `i` out of the epoch. -/
def evict (s : State n) (i : Fin n) : State n :=
  { s with
    roster := s.roster.remove i
    goal := s.goal.erase i
    agreement := s.agreement.erase i }

/-- Gives a dispute to the validator `winner` in slot `i`. -/
def award (s : State n) (claim : Claim) (i : Fin n) (winner : Address) :
    Except Breach (State n × Verdict) :=
  if s.claim = some claim then .ok (s, settle claim winner s.agreement s.goal)
  else if s.agreement.isEmpty then
    let agreement := s.agreement.insert i
    .ok ({ s with agreement := agreement, claim := some claim },
      settle claim winner agreement s.goal)
  else s.endorser.map fun e => (s, .conflict s.claim claim e winner)

/-- Ends the epoch. -/
def close (s : State n) : State n :=
  { s with agreement := Mask.empty, claim := none }

end State

end EpochClaims
