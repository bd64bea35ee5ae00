import EpochClaims.Journal
import EpochClaims.Manager.Call

/-!
# The lines of a call

A call that is not refused leaves a line with its result and the masks after
it. A dispute whose arguments pass all checks first leaves a line about its
loser, even if it is then refused because an invariant is broken.
-/

namespace EpochClaims

namespace Manager

/-- The two masks of a state, as a line shows them. -/
def masksText {n : Nat} (s : State n) : String :=
  "(agreement " ++ s.agreement.text ++ ", goal " ++ s.goal.text ++ ")"

/-- The lines of a submission. -/
def submissionLines (m : Manager) (s : Submission) : List Line :=
  match m.hear s with
  | .error _ => []
  | .ok h =>
    match m.state.submit h.claim h.slot h.sender with
    | .error _ => []
    | .ok (next, v) =>
      [⟨.claims, h.sender.text ++ " claimed " ++ h.claim.text ++ ": " ++ v.result.text ++ " " ++
        masksText next⟩]

/-- The line about the loser of a dispute. -/
def loserLine (m : Manager) (loser : String) (slot : Option (Fin m.capacity)) : Line :=
  match slot with
  | some i =>
    ⟨.disputes, "removed validator " ++ loser ++ " from slot " ++ toString i.val ++ " (goal " ++
      (m.state.evict i).goal.text ++ ")"⟩
  | none => ⟨.disputes, "loser " ++ loser ++ " holds no slot, skipping removal"⟩

/-- The lines of a dispute. -/
def disputeLines (m : Manager) (d : Dispute) : List Line :=
  match m.judge d with
  | .error _ => []
  | .ok j =>
    m.loserLine d.loser j.loser ::
      match (m.afterEviction j.loser).award j.claim j.slot j.winner with
      | .error _ => []
      | .ok (next, v) =>
        [⟨.disputes, "dispute won by " ++ j.winner.text ++ " with " ++ j.claim.text ++ ": " ++
          v.result.text ++ " " ++ masksText next⟩]

/-- The lines of closing an epoch. -/
def closingLines (m : Manager) (account : Argument) : List Line :=
  match m.advance account with
  | .error _ => []
  | .ok (_, claim) =>
    [⟨.epochs, "epoch closed with claim " ++ Claim.textOf claim ++ " (agreement was " ++
      m.state.agreement.text ++ ")"⟩]

/-- The lines of a call. -/
def lines (m : Manager) : Call → List Line
  | .submit s => m.submissionLines s
  | .dispute d => m.disputeLines d
  | .advance account => m.closingLines account

end Manager

end EpochClaims
