import EpochClaims.Address
import EpochClaims.Argument.Size
import EpochClaims.Binary64.Text
import EpochClaims.EventLog.Interface
import EpochClaims.Report
import EpochClaims.Text.Units

/-!
# Reading logs

A log is read in two stages. The decoder, `decodeRecord`, knows the events by
their selectors and takes the words out of the data: the selector has to be
known; the data has to be text, pairs of digits behind its first two units,
whatever these are; and the digits have to make up the words of the event.
Digits behind the last word are ignored, and so are the upper twelve bytes of an
address. The result of an outcome is read from the whole first word, and has to
be exact in a floating-point number; to the decoder it is no more than a number.

`decode` asks for a selector before the decoder does its work, and makes an
event of what it returns once the number of a result proves to be a code. Of the
decoder's faults it passes on that a selector is unknown, for then `decodeAll`
skips the log; with every other fault the log is malformed, and ends it.
-/

namespace EpochClaims

namespace EventLog

/-- Why the decoder cannot read a log, other than that its selector is unknown. -/
inductive DataFault where
  | emptySelector
  | notText
  | tooShort (size : Nat)
  | notHex (pair data : String)
  | noBytes
  | inexactCode (code : Nat)
  deriving DecidableEq, Repr

/-- What the decoder may fail with. -/
inductive RecordFault where
  | unknownSelector (selector : Document)
  | unreadable (fault : DataFault)
  deriving DecidableEq, Repr

/-- Why a log cannot be read. -/
inductive DecodingFault where
  | noSelector
  | unknownSelector (selector : Document)
  | malformed (fault : DataFault)
  | unknownCode (code : Nat)
  deriving DecidableEq, Repr

/-- The greatest number that is exact in a floating-point number together with
its neighbours. -/
def greatestExact : Nat := Binary64.exactBound - 1

/-- What the decoder says of a log that it cannot read. -/
def DataFault.message : DataFault → String
  | emptySelector => "Cannot extract event signature from empty topics."
  | notText => "First argument to DataView constructor must be an ArrayBuffer"
  | tooShort size =>
    "Data size of " ++ toString size ++ " bytes is too small for non-indexed event parameters."
  | notHex pair data => "Invalid byte sequence (\"" ++ pair ++ "\" in \"" ++ data ++ "\")."
  | noBytes => "Cannot decode zero data (\"0x\") with ABI parameters."
  | inexactCode code =>
    "Number \"" ++ toString code ++ "n\" is not in safe integer range (-" ++
      toString greatestExact ++ " to " ++ toString greatestExact ++ ")"

/-- The report of a log that cannot be read. -/
def DecodingFault.report : DecodingFault → Report
  | noSelector => Report.invalidEventLog (.text "Log has no event signature topic")
  | unknownSelector selector =>
    Report.brief "AbiEventSignatureNotFoundError"
      ("Encoded event signature \"" ++ selector.spelled ++ "\" not found on ABI.")
  | malformed fault =>
    Report.invalidEventLog (.text ("Malformed validator manager log: " ++ fault.message))
  | unknownCode code =>
    Report.invalidEventLog (.text ("Unknown claim result code " ++ toString code))

/-- The digit of a unit of text. -/
def digitOfUnit? (u : Nat) : Option Hex.Digit :=
  if u < 128 then Hex.Digit.ofChar? (Char.ofNat u) else none

/-- The digits of pairs of units, or the first pair that is not two digits. -/
def readPairs : List Nat → Except (List Nat) (List Hex.Digit)
  | u :: v :: us =>
    match digitOfUnit? u, digitOfUnit? v with
    | some d, some e => (readPairs us).map fun ds => d :: e :: ds
    | _, _ => .error [u, v]
  | _ => .ok []

/-- The units that hold the digits of some data: all but the first two, with a
zero in front of an odd number. -/
def payload (data : List Char) : List Nat :=
  let us := (Text.units data).drop 2
  if us.length % 2 = 1 then '0'.toNat :: us else us

/-- The text of units. -/
def textOfUnits (us : List Nat) : String :=
  String.ofList (Text.ofUnits us)

/-- The text of the data of a log. Data that counts as nothing is too short. -/
def readText : Argument → Except DataFault (List Char)
  | .text s => if s = "" ∨ s = "0x" then .error (.tooShort 0) else .ok s.toList
  | data => .error (if data.isVoid then .tooShort 0 else .notText)

/-- The digits of a text. A text whose size is less than a word is too short
whatever its digits are. -/
def readDigits (data : List Char) : Except DataFault (List Hex.Digit) :=
  let size := Hex.byteSize data
  let us := payload data
  match readPairs us with
  | .error pair => .error (.notHex (textOfUnits pair) (textOfUnits us))
  | .ok ds =>
    if ds = [] then .error .noBytes
    else if size < 32 then .error (.tooShort size)
    else .ok ds

/-- The next word of some digits, with the digits behind it. -/
def nextWord? (ds : List Hex.Digit) : Option (List Hex.Digit × List Hex.Digit) :=
  if 64 ≤ ds.length then some (ds.take 64, ds.drop 64) else none

/-- The next word, or a fault that names the size of the data. -/
def nextWord (size : Nat) (ds : List Hex.Digit) :
    Except DataFault (List Hex.Digit × List Hex.Digit) :=
  match nextWord? ds with
  | some r => .ok r
  | none => .error (.tooShort size)

/-- The claim of a word. -/
def claimOfWord (w : List Hex.Digit) : String :=
  String.ofList (Hex.write w)

/-- The address of a word: its last forty digits, checksummed. -/
def addressOfWord (w : List Hex.Digit) : String :=
  match Address.ofDigits? (w.drop 24) with
  | some a => a.text
  | none => Address.zero.text

/-- An outcome as the decoder reads it. The number of its result may be no code. -/
structure OutcomeRecord where
  code : Nat
  claims : List String
  validators : List String
  deriving DecidableEq, Repr

/-- An event as the decoder reads it. -/
inductive EventRecord where
  | claimReceived (o : OutcomeRecord)
  | disputeEnded (o : OutcomeRecord)
  | newEpoch (claim : String)
  deriving DecidableEq, Repr

/-- The outcome that five words spell. -/
def readOutcome (size : Nat) (ds : List Hex.Digit) : Except DataFault OutcomeRecord := do
  let (resultWord, ds) ← nextWord size ds
  let code := Hex.value resultWord
  if greatestExact < code then throw (.inexactCode code)
  let (claim1, ds) ← nextWord size ds
  let (claim2, ds) ← nextWord size ds
  let (validator1, ds) ← nextWord size ds
  let (validator2, _) ← nextWord size ds
  return ⟨code, [claimOfWord claim1, claimOfWord claim2],
    [addressOfWord validator1, addressOfWord validator2]⟩

/-- The claim that a word spells. -/
def readClaim (size : Nat) (ds : List Hex.Digit) : Except DataFault String :=
  (nextWord size ds).map fun r => claimOfWord r.1

/-- What is read from the digits of some data, with faults that name its size. -/
def readData {α : Type} (read : Nat → List Hex.Digit → Except DataFault α) (data : Argument) :
    Except DataFault α := do
  let s ← readText data
  let ds ← readDigits s
  read (Hex.byteSize s) ds

/-- The decoder: what is recorded in some data under a selector. -/
def decodeRecord (selector : Document) (data : Argument) : Except RecordFault EventRecord :=
  if selector.isVoid then .error (.unreadable .emptySelector)
  else if selector = .text claimReceivedSelector then
    ((readData readOutcome data).map .claimReceived).mapError .unreadable
  else if selector = .text disputeEndedSelector then
    ((readData readOutcome data).map .disputeEnded).mapError .unreadable
  else if selector = .text newEpochSelector then
    ((readData readClaim data).map .newEpoch).mapError .unreadable
  else .error (.unknownSelector selector)

/-- What a fault of the decoder says of the log. An unknown selector stays one,
so that a batch can skip the log; otherwise the log is malformed. -/
def RecordFault.decodingFault : RecordFault → DecodingFault
  | unknownSelector selector => .unknownSelector selector
  | unreadable fault => .malformed fault

/-- The outcome of a record whose number is a code. -/
def OutcomeRecord.outcome (o : OutcomeRecord) : Except DecodingFault Outcome :=
  match ClaimResult.ofCode? o.code with
  | some r => .ok (.of r o.claims o.validators)
  | none => .error (.unknownCode o.code)

/-- The event of a record. -/
def EventRecord.event : EventRecord → Except DecodingFault Event
  | claimReceived o => o.outcome.map .claimReceived
  | disputeEnded o => o.outcome.map .disputeEnded
  | newEpoch claim => .ok (.newEpoch (.text claim))

/-- The event of a log. Topics behind the selector are ignored. -/
def decode (log : EventLog) : Except DecodingFault Event :=
  match log.topics with
  | [] => .error .noSelector
  | selector :: _ =>
    match decodeRecord selector log.data with
    | .error f => .error f.decodingFault
    | .ok record => record.event

/-- The events of a list of logs, without those of unknown selectors. -/
def decodeAll : List EventLog → Except DecodingFault (List Event)
  | [] => .ok []
  | log :: logs =>
    match decode log with
    | .ok event => (decodeAll logs).map (event :: ·)
    | .error (.unknownSelector _) => decodeAll logs
    | .error f => .error f

/-- The words of all results, in the order of their codes. -/
def words : List Document :=
  ClaimResult.all.map fun r => .text r.text

/-- The word of a code that a caller hands in, as a number or spelled. -/
def wordOfCode (code : Argument) : Except Report Document :=
  match code.memberOf? words with
  | some word => .ok word
  | none => .error (Report.invalidEventLog (.text ("Unknown claim result code " ++ code.spelled)))

/-- The code of a result that may be unknown, and then minus one. -/
def codeOfResult : Option ClaimResult → Int
  | some r => r.code
  | none => -1

end EventLog

end EpochClaims
