import EpochClaims.Claim
import EpochClaims.Keccak.Digest

/-!
# The claim of an epoch

The claim of an epoch commits to three hashes: of the output drive, of the
message drive and of the final state of the machine. Each is read as a number
and written as a word of 32 bytes, and the claim is the digest of the three
words in this order. Reading stops at the first hash that is not 32 bytes of
hexadecimal text. The empty value is a hash like any other here.
-/

namespace EpochClaims

/-- The three hashes that an epoch commits to, as handed in. -/
structure EpochHashes where
  outputDrive : Argument
  messageDrive : Argument
  machineState : Argument
  deriving DecidableEq, Repr

namespace EpochHashes

/-- A hash that is not 32 bytes of hexadecimal text. -/
structure Fault where
  given : Argument
  deriving DecidableEq, Repr

/-- The report of a hash that cannot be read. -/
def Fault.report (f : Fault) : Report :=
  Report.invalidClaim f.given (.text "drive hash must be 32-byte hex")

/-- The 64 digits of a hash, with a zero in front of 63. -/
def word (given : Argument) : Except Fault (List Hex.Digit) :=
  match Claim.sized? given with
  | some ds => .ok (Hex.padLeft 64 ds.val)
  | none => .error ⟨given⟩

/-- The bytes that the claim is the digest of. -/
def message (h : EpochHashes) : Except Fault (List UInt8) := do
  let output ← word h.outputDrive
  let messages ← word h.messageDrive
  let machine ← word h.machineState
  return Hex.toBytes (output ++ messages ++ machine)

/-- The claim of an epoch. -/
def claimText (h : EpochHashes) : Except Fault String := do
  let bytes ← h.message
  return String.ofList (Hex.write (Hex.ofBytes (Keccak.digest bytes)))

end EpochHashes

end EpochClaims
