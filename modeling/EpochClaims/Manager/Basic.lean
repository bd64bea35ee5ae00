import EpochClaims.Config.Reading
import EpochClaims.Manager.State
import EpochClaims.Roster.Creation

/-!
# The manager

A manager keeps the state of the open epoch for one orchestrator, who alone
may change it. It is made from a setup, which names the orchestrator, the
validators and the policy as they were handed in: only the validators are
checked, since they become the roster. `Manager.ofDocument` reads the setup
from a configuration and so checks all of it.
-/

namespace EpochClaims

/-- What a manager is made from. -/
structure Setup where
  orchestrator : Argument
  validators : Argument
  unknownLoserPolicy : Argument
  deriving DecidableEq, Repr

/-- The state of the open epoch, kept for one orchestrator. -/
structure Manager where
  orchestrator : Argument
  unknownLoserPolicy : Argument
  capacity : Nat
  state : State capacity

/-- The setup of a configuration. -/
def Config.setup (c : Config) : Setup :=
  ⟨.text c.orchestrator.text, .list (c.validators.map fun a => .text a.text),
    .text c.unknownLoserPolicy.text⟩

namespace Manager

/-- Why no manager could be made. -/
inductive SetupFault where
  | config (issues : List Config.Issue)
  | roster (fault : SizedRoster.Fault)
  deriving DecidableEq, Repr

/-- The report of a setup that makes no manager. -/
def SetupFault.report : SetupFault → Report
  | config issues => Config.reportIssues issues
  | roster fault => fault.report

/-- The manager of a roster, before the first claim. -/
def start (setup : Setup) (r : SizedRoster) : Manager :=
  ⟨setup.orchestrator, setup.unknownLoserPolicy, r.capacity, State.initial r.roster⟩

/-- Makes a manager from a setup as it is. -/
def ofSetup (setup : Setup) : Except SetupFault Manager :=
  match SizedRoster.read setup.validators with
  | .ok r => .ok (start setup r)
  | .error f => .error (.roster f)

/-- Makes a manager from a configuration. -/
def ofConfig (c : Config) : Except SetupFault Manager :=
  ofSetup c.setup

/-- Makes a manager from a document that has to be a configuration. -/
def ofDocument (d : Option Document) : Except SetupFault Manager :=
  match Config.read d with
  | .ok c => ofConfig c
  | .error issues => .error (.config issues)

/-- Whether a dispute is refused when its loser holds no slot. -/
def rejectsUnknownLosers (m : Manager) : Bool :=
  m.unknownLoserPolicy == .text UnknownLoserPolicy.reject.text

end Manager

end EpochClaims
