import EpochClaims.Config.Basic
import EpochClaims.Document.Basic
import EpochClaims.Mask.Checked

/-!
# Reading a configuration

A document is read as a configuration place by place. Every place is read even
when another one is at fault, so the issues of all places are told together,
in the order orchestrator, validators, policy. The entries of a list of wrong
length are read all the same. Fields that a configuration does not have are
ignored, and addresses are read in any case.
-/

namespace EpochClaims

namespace Config

/-- Reads the address at a place. -/
def readAddress (place : Place) : Option Document → Except (List Issue) Address
  | none => .error [⟨place, .required⟩]
  | some (.text s) =>
    match Address.ofText? s.toList with
    | some a => .ok a
    | none => .error [⟨place, .notAddress⟩]
  | some d => .error [⟨place, .wrongKind "string" d.kind⟩]

/-- The issues of a reading. -/
def issuesOf {α : Type} : Except (List Issue) α → List Issue
  | .ok _ => []
  | .error issues => issues

/-- Reads the entries of the list of validators from the given index on. -/
def readEntries : Nat → List Document → Except (List Issue) (List Address)
  | _, [] => .ok []
  | index, d :: ds =>
    match readAddress (.validator index) (some d), readEntries (index + 1) ds with
    | .ok a, .ok rest => .ok (a :: rest)
    | first, rest => .error (issuesOf first ++ issuesOf rest)

/-- The issue of a list of the wrong length. -/
def lengthIssues (count : Nat) : List Issue :=
  if count < 1 then [⟨.validators, .tooFew 1⟩]
  else if maxSlots < count then [⟨.validators, .tooMany maxSlots⟩]
  else []

/-- Reads the list of validators. -/
def readValidators : Option Document → Except (List Issue) (List Address)
  | none => .error [⟨.validators, .required⟩]
  | some (.list ds) =>
    match lengthIssues ds.length, readEntries 0 ds with
    | [], entries => entries
    | wrongLength, entries => .error (wrongLength ++ issuesOf entries)
  | some d => .error [⟨.validators, .wrongKind "array" d.kind⟩]

/-- Reads the policy, which is to skip unless said otherwise. -/
def readPolicy : Option Document → Except (List Issue) UnknownLoserPolicy
  | none => .ok .skip
  | some (.text s) =>
    match UnknownLoserPolicy.ofText? s with
    | some p => .ok p
    | none => .error [⟨.unknownLoserPolicy, .unknownWord s⟩]
  | some d => .error [⟨.unknownLoserPolicy, .wrongKind policyWords d.kind⟩]

/-- Reads a configuration from the fields of an object. -/
def readFields (orchestrator validators policy : Option Document) : Except (List Issue) Config :=
  match readAddress .orchestrator orchestrator, readValidators validators, readPolicy policy with
  | .ok o, .ok vs, .ok p => .ok ⟨o, vs, p⟩
  | o, vs, p => .error (issuesOf o ++ issuesOf vs ++ issuesOf p)

/-- Reads a configuration from a document that may be absent. -/
def read : Option Document → Except (List Issue) Config
  | none => .error [⟨.root, .required⟩]
  | some (.object fields) =>
    readFields (Document.field? fields "orchestrator") (Document.field? fields "validators")
      (Document.field? fields "unknownLoserPolicy")
  | some d => .error [⟨.root, .wrongKind "object" d.kind⟩]

/-- A configuration as a document. -/
def toDocument (c : Config) : Document :=
  .object [("orchestrator", .text c.orchestrator.text),
    ("validators", .list (c.validators.map fun a => .text a.text)),
    ("unknownLoserPolicy", .text c.unknownLoserPolicy.text)]

end Config

end EpochClaims
