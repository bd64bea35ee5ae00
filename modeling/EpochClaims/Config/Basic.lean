import EpochClaims.Address
import EpochClaims.Report

/-!
# Configurations

A configuration names the orchestrator, the validators in slot order, and what
a dispute does when its loser holds no slot. What is wrong with a
configuration is told as a list of issues, each with the path of the place it
concerns.
-/

namespace EpochClaims

/-- What a dispute does when its loser holds no slot. -/
inductive UnknownLoserPolicy where
  | skip
  | reject
  deriving DecidableEq, Repr, Inhabited

/-- The word for a policy. -/
def UnknownLoserPolicy.text : UnknownLoserPolicy → String
  | skip => "skip"
  | reject => "reject"

/-- The policy of a word. -/
def UnknownLoserPolicy.ofText? (s : String) : Option UnknownLoserPolicy :=
  if s = "skip" then some skip else if s = "reject" then some reject else none

@[simp] theorem UnknownLoserPolicy.ofText?_text (p : UnknownLoserPolicy) :
    UnknownLoserPolicy.ofText? p.text = some p := by
  cases p <;> decide

/-- The orchestrator, the validators in slot order and the policy. -/
structure Config where
  orchestrator : Address
  validators : List Address
  unknownLoserPolicy : UnknownLoserPolicy
  deriving DecidableEq, Repr

namespace Config

/-- A place in a configuration. -/
inductive Place where
  | root
  | orchestrator
  | validators
  | validator (index : Nat)
  | unknownLoserPolicy
  deriving DecidableEq, Repr

/-- What can be wrong with a place. -/
inductive Defect where
  | required
  | wrongKind (expected received : String)
  | notAddress
  | tooFew (least : Nat)
  | tooMany (most : Nat)
  | unknownWord (received : String)
  deriving DecidableEq, Repr

/-- A defect at a place. -/
structure Issue where
  place : Place
  defect : Defect
  deriving DecidableEq, Repr

/-- The path of a place. -/
def Place.text : Place → String
  | root => "(root)"
  | orchestrator => "orchestrator"
  | validators => "validators"
  | validator index => "validators." ++ toString index
  | unknownLoserPolicy => "unknownLoserPolicy"

/-- The words that a policy may be. -/
def policyWords : String := "\x27skip\x27 | \x27reject\x27"

/-- The wording of a defect. -/
def Defect.text : Defect → String
  | required => "Required"
  | wrongKind expected received => "Expected " ++ expected ++ ", received " ++ received
  | notAddress => "Invalid address"
  | tooFew least => "Array must contain at least " ++ toString least ++ " element(s)"
  | tooMany most => "Array must contain at most " ++ toString most ++ " element(s)"
  | unknownWord received =>
    "Invalid enum value. Expected " ++ policyWords ++ ", received \x27" ++ received ++ "\x27"

/-- An issue as one line. -/
def Issue.text (i : Issue) : String :=
  i.place.text ++ ": " ++ i.defect.text

/-- The report of a configuration with issues. -/
def reportIssues (issues : List Issue) : Report :=
  Report.invalidConfig (.text "Invalid validator manager config")
    (.list (issues.map fun i => .text i.text))

end Config

end EpochClaims
