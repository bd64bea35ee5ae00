import EpochClaims.Address
import EpochClaims.Argument.Size
import EpochClaims.EventLog.Interface
import EpochClaims.Report
import EpochClaims.Text.Units

/-!
# Writing logs

The data of a log is a row of words of 64 digits. An outcome is five words:
the code of its result, its two claims and its two validators. The parts are
checked in this order, each for being a list, for its length and then for its
members, and the first fault is the one that is named. A claim of the right size goes in as it
is written, with zeros behind it; an address goes in in lower case, with zeros
in front of it. An event with another name has no log.
-/

namespace EpochClaims

namespace EventLog

/-- Why an event cannot be written as a log. -/
inductive EncodingFault where
  | unknownResult
  | notList (given : Argument)
  | wrongLength (type : String)
  | wrongSize (claim : Argument) (size : String)
  | notAddress (validator : Document)
  deriving DecidableEq, Repr

/-- The report of an event that cannot be written. -/
def EncodingFault.report : EncodingFault → Report
  | unknownResult =>
    Report.brief "IntegerOutOfRangeError"
      "Number \"-1\" is not in safe 8-bit unsigned integer range (0 to 255)"
  | notList given =>
    Report.brief "InvalidArrayError" ("Value \"" ++ given.spelled ++ "\" is not a valid array.")
  | wrongLength type =>
    Report.brief "AbiEncodingArrayLengthMismatchError"
      ("ABI encoding array length mismatch for type " ++ type ++ ".")
  | wrongSize claim size =>
    Report.brief "AbiEncodingBytesSizeMismatchError"
      ("Size of bytes \"" ++ claim.spelled ++ "\" (bytes" ++ size ++
        ") does not match expected size (bytes32).")
  | notAddress validator => Report.invalidAddress validator.spelled

/-- A text without the first marker in it. -/
def dropMarker : List Char → List Char
  | [] => []
  | '0' :: 'x' :: s => s
  | c :: s => c :: dropMarker s

/-- The digits of a word of 32 bytes. -/
def wordLength : Nat := 64

/-- Zeros behind a text, up to a whole word. -/
def fillRight (s : List Char) : List Char :=
  s ++ List.replicate (wordLength - Text.length16 s) '0'

/-- The word of a number below sixteen. -/
def codeWord (r : ClaimResult) : List Char :=
  Hex.lower (Hex.padLeft wordLength [Fin.ofNat 16 r.code])

/-- The word of a claim. -/
def claimWord : Argument → Except EncodingFault (List Char)
  | .text s =>
    let size := Hex.byteSize s.toList
    if size = 32 then .ok (fillRight (dropMarker s.toList))
    else .error (.wrongSize (.text s) (toString size))
  | claim => .error (.wrongSize claim (claim.length.spelled))

/-- The word of an address. -/
def addressWord (validator : Document) : Except EncodingFault (List Char) :=
  match (Argument.given validator).chars?.bind Address.ofExact? with
  | some a => .ok (Hex.lower (Hex.padLeft wordLength a.digits))
  | none => .error (.notAddress validator)

/-- The words of a pair, which has to have exactly two members. -/
def pairWords (type : String) (word : Document → Except EncodingFault (List Char)) :
    Argument → Except EncodingFault (List Char)
  | .list [d, e] => do
    let first ← word d
    let second ← word e
    return first ++ second
  | .list _ => .error (.wrongLength type)
  | given => .error (.notList given)

/-- The words of an outcome. -/
def outcomeWords (o : Outcome) : Except EncodingFault (List Char) := do
  let result ← match o.result? with
    | some r => .ok (codeWord r)
    | none => .error .unknownResult
  let claims ← pairWords "bytes32[2]" (fun d => claimWord (.given d)) o.claims
  let validators ← pairWords "address[2]" addressWord o.validators
  return result ++ claims ++ validators

/-- The log of words under a selector. -/
def ofWords (selector : String) (words : List Char) : EventLog :=
  ⟨[.text selector], .text (String.ofList ('0' :: 'x' :: words))⟩

/-- The log of an event, or `none` for an event with another name. -/
def encode : Event → Except EncodingFault (Option EventLog)
  | .claimReceived o => (outcomeWords o).map fun ws => some (ofWords claimReceivedSelector ws)
  | .disputeEnded o => (outcomeWords o).map fun ws => some (ofWords disputeEndedSelector ws)
  | .newEpoch claim => (claimWord claim).map fun ws => some (ofWords newEpochSelector ws)
  | .other _ => .ok none

end EventLog

end EpochClaims
