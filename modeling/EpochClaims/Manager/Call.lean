import EpochClaims.Manager.Basic

/-!
# Calls

The three calls change the state of a manager or are refused. Each call checks
its arguments in a fixed order, and the first check that fails decides the
refusal: the account, the claim, the validators. A refused call leaves the
manager as it was, because a call that is not refused returns the manager
after it and a refusal returns none.

A dispute is checked by comparing its loser with the winner as addresses, and
its slots are then looked up by spelling.
-/

namespace EpochClaims

/-- A validator's claim for the epoch, brought by an account. -/
structure Submission where
  account : Argument
  validator : String
  claim : Argument
  deriving DecidableEq, Repr

/-- The judgement of a dispute, brought by an account. -/
structure Dispute where
  account : Argument
  winner : String
  loser : String
  winningClaim : Argument
  deriving DecidableEq, Repr

/-- A call of a manager. -/
inductive Call where
  | submit (submission : Submission)
  | dispute (dispute : Dispute)
  | advance (account : Argument)
  deriving DecidableEq, Repr

/-- What a call that is not refused returns. -/
inductive Reply where
  | claimed (verdict : Verdict)
  | judged (verdict : Verdict)
  | closed (claim : Option Claim)
  deriving DecidableEq, Repr

/-- The part that a validator has in a call. -/
inductive Role where
  | sender
  | winner
  | loser
  deriving DecidableEq, Repr

/-- Why a call is refused. -/
inductive Refusal where
  | unauthorized (caller orchestrator : Argument)
  | orchestratorNotAddress (orchestrator : Argument)
  | claim (fault : Claim.Fault)
  | unknownValidator (validator : String) (role : Role)
  | selfDispute (validator : Address)
  | breach (breach : Breach)
  deriving DecidableEq, Repr

/-- The word for a part. -/
def Role.text : Role → String
  | sender => "sender"
  | winner => "winner"
  | loser => "loser"

/-- The report of a broken invariant. -/
def Breach.report : Breach → Report
  | noEndorser claim =>
    Report.invariantViolation
      (.text ("No validator endorses the current claim " ++ Claim.textOf claim))
      (.text (Claim.textOf claim))
  | vacantSlot slot =>
    Report.invariantViolation
      (.text ("Slot " ++ toString slot ++ " resolved from the lookup is tombstoned")) .missing

/-- The report of a refused call. -/
def Refusal.report : Refusal → Report
  | unauthorized caller orchestrator => Report.unauthorized caller orchestrator
  | orchestratorNotAddress orchestrator => Report.invalidAddress orchestrator.spelled
  | claim fault => fault.report
  | unknownValidator validator role => Report.unknownValidator (.text validator) (.text role.text)
  | selfDispute validator =>
    Report.invalidDispute
      (.text ("Dispute winner and loser are the same validator " ++ validator.text))
  | breach b => b.report

/-- The event that announces a call. -/
def Reply.event : Reply → Event
  | claimed verdict => .claimReceived verdict.outcome
  | judged verdict => .disputeEnded verdict.outcome
  | closed claim => .newEpoch (.text (Claim.textOf claim))

namespace Manager

/-- Refuses every account but the orchestrator, whatever the case of its
letters. -/
def authorize (m : Manager) (account : Argument) : Except Refusal Unit :=
  match account.chars?.bind Address.ofText? with
  | none => .error (.unauthorized account m.orchestrator)
  | some caller =>
    match m.orchestrator.chars?.bind Address.ofText? with
    | none => .error (.orchestratorNotAddress m.orchestrator)
    | some orchestrator =>
      if caller = orchestrator then .ok () else .error (.unauthorized account m.orchestrator)

/-- Reads the claim of a call. -/
def readClaim (given : Argument) : Except Refusal Claim :=
  match Claim.ofArgument given with
  | .ok c => .ok c
  | .error f => .error (.claim f)

/-- The slot and the address of a validator that a call names. -/
def holder (m : Manager) (role : Role) (validator : String) :
    Except Refusal (Fin m.capacity × Address) :=
  match m.state.roster.indexOf validator with
  | none => .error (.unknownValidator validator role)
  | some i =>
    match m.state.roster.slot i with
    | some a => .ok (i, a)
    | none => .error (.breach (.vacantSlot i))

/-- A submission whose arguments have been looked up. -/
structure Heard (n : Nat) where
  claim : Claim
  slot : Fin n
  sender : Address

/-- A dispute whose arguments have been looked up. -/
structure Judged (n : Nat) where
  claim : Claim
  slot : Fin n
  winner : Address
  loser : Option (Fin n)

/-- Looks up the arguments of a submission. -/
def hear (m : Manager) (s : Submission) : Except Refusal (Heard m.capacity) := do
  m.authorize s.account
  let claim ← readClaim s.claim
  let (slot, sender) ← m.holder .sender s.validator
  return ⟨claim, slot, sender⟩

/-- The slot of the loser of a dispute; none if the loser holds no slot and
the policy is to go on without one. -/
def loserSlot (m : Manager) (loser : String) : Except Refusal (Option (Fin m.capacity)) :=
  match m.state.roster.indexOf loser with
  | some i => .ok (some i)
  | none => if m.rejectsUnknownLosers then .error (.unknownValidator loser .loser) else .ok none

/-- Looks up the arguments of a dispute. -/
def judge (m : Manager) (d : Dispute) : Except Refusal (Judged m.capacity) := do
  m.authorize d.account
  let claim ← readClaim d.winningClaim
  let (slot, winner) ← m.holder .winner d.winner
  if Address.ofText? d.loser.toList = some winner then throw (.selfDispute winner)
  let loser ← m.loserSlot d.loser
  return ⟨claim, slot, winner, loser⟩

/-- The state in which a dispute is awarded: the one without its loser. -/
def afterEviction (m : Manager) (loser : Option (Fin m.capacity)) : State m.capacity :=
  match loser with
  | some i => m.state.evict i
  | none => m.state

/-- The manager in another state. -/
def withState (m : Manager) (s : State m.capacity) : Manager :=
  { m with state := s }

/-- What becomes of a change of the state. -/
def commit (m : Manager) : Except Breach (State m.capacity × Verdict) →
    Except Refusal (Manager × Verdict)
  | .ok (s, v) => .ok (m.withState s, v)
  | .error b => .error (.breach b)

/-- Hears a claim. -/
def submit (m : Manager) (s : Submission) : Except Refusal (Manager × Verdict) := do
  let h ← m.hear s
  m.commit (m.state.submit h.claim h.slot h.sender)

/-- Resolves a dispute. -/
def resolve (m : Manager) (d : Dispute) : Except Refusal (Manager × Verdict) := do
  let j ← m.judge d
  m.commit ((m.afterEviction j.loser).award j.claim j.slot j.winner)

/-- Closes the epoch with its claim. -/
def advance (m : Manager) (account : Argument) : Except Refusal (Manager × Option Claim) := do
  m.authorize account
  return (m.withState m.state.close, m.state.claim)

/-- Performs a call. -/
def perform (m : Manager) : Call → Except Refusal (Manager × Reply)
  | .submit s => (m.submit s).map fun r => (r.1, .claimed r.2)
  | .dispute d => (m.resolve d).map fun r => (r.1, .judged r.2)
  | .advance account => (m.advance account).map fun r => (r.1, .closed r.2)

/-- The manager after a call, unchanged if the call is refused. -/
def after (m : Manager) (c : Call) : Manager :=
  match m.perform c with
  | .ok r => r.1
  | .error _ => m

/-- The manager after a list of calls. -/
def run (m : Manager) (calls : List Call) : Manager :=
  calls.foldl after m

end Manager

end EpochClaims
