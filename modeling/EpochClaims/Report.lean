import EpochClaims.Argument.Basic

/-!
# Reports

A report is what a failed call tells its caller: the kind of failure, a
message, and the values that the failure names. The failures of this library
carry a code beside their kind. Each builder below fixes the kind, the code
and the wording of one failure, so wording is decided here and nowhere else.

A value that is missing is not told, except inside the message.
-/

namespace EpochClaims

/-- What a failed call tells its caller. -/
structure Report where
  kind : String
  message : String
  details : List (String × Argument)
  deriving DecidableEq, Repr, Inhabited

namespace Report

/-- The first line of a text. -/
def firstLine (s : String) : String :=
  String.ofList (s.toList.takeWhile (· ≠ '\n'))

/-- A failure without a code. -/
def plain (kind message : String) : Report :=
  ⟨kind, message, []⟩

/-- A failure without a code that reports the first line of its message. -/
def brief (kind message : String) : Report :=
  plain kind (firstLine message)

/-- A failure with a code and the values it names. -/
def coded (kind code message : String) (details : List (String × Argument)) : Report :=
  ⟨kind, message, ("code", .text code) :: details⟩

/-- A text where an address is expected. -/
def invalidAddress (spelled : String) : Report :=
  brief "InvalidAddressError" ("Address \"" ++ spelled ++ "\" is invalid.")

/-- The message that a caller chose, empty if it chose none. -/
def chosen : Argument → String
  | .missing => ""
  | .given d => d.spelled

/-- A failure of this library with no kind of its own. -/
def general (code message : Argument) : Report :=
  ⟨"ValidatorManagerError", chosen message, [("code", code)]⟩

/-- The caller is not the orchestrator. -/
def unauthorized (caller orchestrator : Argument) : Report :=
  coded "AuthorizationError" "UNAUTHORIZED"
    ("Caller " ++ caller.spelled ++ " is not the orchestrator " ++ orchestrator.spelled)
    [("caller", caller), ("orchestrator", orchestrator)]

/-- A claim is no claim, by default because it is the empty one. -/
def invalidClaim (claim reason : Argument) : Report :=
  coded "InvalidClaimError" "INVALID_CLAIM"
    ("Invalid claim " ++ claim.spelled ++ ": " ++ (reason.orElse (.text "empty claim")).spelled)
    [("claim", claim)]

/-- An identity holds no slot. -/
def unknownValidator (validator role : Argument) : Report :=
  coded "UnknownValidatorError" "UNKNOWN_VALIDATOR"
    ("Unknown " ++ role.spelled ++ " validator " ++ validator.spelled)
    [("validator", validator), ("role", role)]

/-- A dispute that cannot be held. -/
def invalidDispute (message : Argument) : Report :=
  coded "InvalidDisputeError" "INVALID_DISPUTE" (chosen message) []

/-- A broken invariant, with the claim it concerns or none. -/
def invariantViolation (message claim : Argument) : Report :=
  coded "InvariantViolationError" "INVARIANT_VIOLATION" (chosen message)
    [("claim", claim.orElse .null)]

/-- A configuration that cannot be used, with a list of its issues in order. -/
def invalidConfig (message issues : Argument) : Report :=
  let issues := issues.orElse (.list [])
  let text := match issues with
    | .list (d :: ds) =>
      message.spelled ++ ": " ++ String.intercalate "; " (Document.spelledMembers (d :: ds))
    | _ => chosen message
  coded "ConfigError" "INVALID_CONFIG" text [("issues", issues)]

/-- A log that cannot be read. -/
def invalidEventLog (message : Argument) : Report :=
  coded "InvalidEventLogError" "INVALID_EVENT_LOG" (firstLine (chosen message)) []

end Report

end EpochClaims
