/-!
# The journal

A program that uses this library can follow what happens in it by a journal of
text lines, each on one of five channels.
-/

namespace EpochClaims

/-- The subject of a line. -/
inductive Channel where
  | claims
  | disputes
  | epochs
  | events
  | indexer
  deriving DecidableEq, Repr

/-- The word for a channel. -/
def Channel.text : Channel → String
  | claims => "claims"
  | disputes => "disputes"
  | epochs => "epochs"
  | events => "events"
  | indexer => "indexer"

/-- A line of the journal. -/
structure Line where
  channel : Channel
  message : String
  deriving DecidableEq, Repr

/-- A line with its channel in front. -/
def Line.text (l : Line) : String :=
  "validator-manager:" ++ l.channel.text ++ " " ++ l.message

end EpochClaims
