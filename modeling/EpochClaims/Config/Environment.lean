import EpochClaims.Config.Reading
import EpochClaims.Text.Blank

/-!
# The environment form of a configuration

A configuration can be given by three environment variables. The validators
stand in one of them, separated by commas; blank characters around an entry
and blank entries are dropped before the entries are counted. An empty policy
is as good as none. Everything else is read as in a document.

The variables of a process are texts. An environment that was put together
otherwise may hold any document in place of the orchestrator and the policy,
and a policy that counts as nothing is none.
-/

namespace EpochClaims

namespace Config

/-- The variable of the orchestrator. -/
def orchestratorVariable : String := "VALIDATOR_MANAGER_ORCHESTRATOR"

/-- The variable of the validators. -/
def validatorsVariable : String := "VALIDATOR_MANAGER_VALIDATORS"

/-- The variable of the policy. -/
def policyVariable : String := "VALIDATOR_MANAGER_UNKNOWN_LOSER_POLICY"

/-- The values of the three variables. -/
structure Environment where
  orchestrator : Option Document
  validators : Option String
  unknownLoserPolicy : Option Document
  deriving DecidableEq, Repr

/-- The three variables among the variables of a process. -/
def Environment.ofVariables (values : List (String × String)) : Environment :=
  ⟨(values.lookup orchestratorVariable).map .text, values.lookup validatorsVariable,
    (values.lookup policyVariable).map .text⟩

/-- The entries of a list of validators, as a document. -/
def listDocument (s : String) : Document :=
  .list ((Text.entries s.toList).map fun entry => .text (String.ofList entry))

/-- Reads a configuration from the environment. -/
def load (env : Environment) : Except (List Issue) Config :=
  readFields env.orchestrator (env.validators.map listDocument)
    (env.unknownLoserPolicy.filter fun d => !d.isVoid)

end Config

end EpochClaims
