import EpochClaims.Address
import EpochClaims.Argument.Basic
import EpochClaims.Argument.Number
import EpochClaims.Argument.Size
import EpochClaims.Binary64.Basic
import EpochClaims.Binary64.Reading
import EpochClaims.Binary64.Rounding
import EpochClaims.Binary64.Shortest
import EpochClaims.Binary64.Text
import EpochClaims.Cache
import EpochClaims.Claim
import EpochClaims.Config.Basic
import EpochClaims.Config.Environment
import EpochClaims.Config.Reading
import EpochClaims.Document.Basic
import EpochClaims.Document.Display
import EpochClaims.Document.Spelling
import EpochClaims.EpochHash
import EpochClaims.Event
import EpochClaims.EventLog.Decoding
import EpochClaims.EventLog.Encoding
import EpochClaims.EventLog.Interface
import EpochClaims.Hex.Digit
import EpochClaims.Hex.Text
import EpochClaims.Index.Indexer
import EpochClaims.Index.View
import EpochClaims.Journal
import EpochClaims.Keccak.Digest
import EpochClaims.Keccak.Permutation
import EpochClaims.Main
import EpochClaims.Manager.Basic
import EpochClaims.Manager.Call
import EpochClaims.Manager.Lines
import EpochClaims.Manager.State
import EpochClaims.Mask.Basic
import EpochClaims.Mask.Word
import EpochClaims.Mask.Checked
import EpochClaims.Network.Act
import EpochClaims.Network.Basic
import EpochClaims.Network.Command
import EpochClaims.Network.Delivery
import EpochClaims.Network.History
import EpochClaims.Network.Levels
import EpochClaims.Network.Registry
import EpochClaims.Network.Settlement
import EpochClaims.Raised
import EpochClaims.Report
import EpochClaims.Roster.Basic
import EpochClaims.Roster.Creation
import EpochClaims.Text.Blank
import EpochClaims.Text.Layout
import EpochClaims.Text.Quoted
import EpochClaims.Text.Shorten
import EpochClaims.Text.Units
import EpochClaims.Text.Width
import EpochClaims.Text.WidthTables
import EpochClaims.Walkthrough.Basic
import EpochClaims.Walkthrough.Style
import EpochClaims.Proofs.Sequence
import EpochClaims.Proofs.Hex.Spelling
import EpochClaims.Proofs.Hex.Lowering
import EpochClaims.Proofs.Hex.Number
import EpochClaims.Proofs.Hex.Bytes
import EpochClaims.Proofs.EpochHash.Commitment
import EpochClaims.Proofs.Text.Entries
import EpochClaims.Proofs.Cache.FlatMap
import EpochClaims.Proofs.Event.Spelling
import EpochClaims.Proofs.Binary64.Natural
import EpochClaims.Proofs.Binary64.Spelling
import EpochClaims.Proofs.Roster.Lookup
import EpochClaims.Proofs.Roster.Creation
import EpochClaims.Proofs.Manager.Checks
import EpochClaims.Proofs.Manager.Commit
import EpochClaims.Proofs.Manager.Invariant
import EpochClaims.Proofs.Manager.Endorsement
import EpochClaims.Proofs.Manager.Consensus
import EpochClaims.Proofs.Manager.Dispute
import EpochClaims.Proofs.Manager.Eviction
import EpochClaims.Proofs.Manager.Conflict
import EpochClaims.Proofs.Manager.Replies
import EpochClaims.Proofs.Manager.LetterCase
import EpochClaims.Proofs.Manager.Arrival
import EpochClaims.Proofs.Manager.Isolation
import EpochClaims.Proofs.Manager.Refusal
import EpochClaims.Proofs.Manager.Chain
import EpochClaims.Proofs.Manager.Retry
import EpochClaims.Proofs.Manager.Evidence
import EpochClaims.Proofs.Claim.Number
import EpochClaims.Proofs.Mask.Membership
import EpochClaims.Proofs.Mask.Refinement
import EpochClaims.Proofs.Mask.Sets
import EpochClaims.Proofs.Mask.Numeral
import EpochClaims.Proofs.Roster.Removal
import EpochClaims.Proofs.Index.Mirror
import EpochClaims.Proofs.Index.Summary
import EpochClaims.Proofs.Network.Reading
import EpochClaims.Proofs.Network.Change
import EpochClaims.Proofs.Network.Audience
import EpochClaims.Proofs.Network.Nesting
import EpochClaims.Proofs.Network.Legible
import EpochClaims.Proofs.Network.Order
import EpochClaims.Proofs.Network.Flattening
import EpochClaims.Proofs.Network.Subscription
import EpochClaims.Proofs.Network.Emission
import EpochClaims.Proofs.Network.Effect
import EpochClaims.Proofs.Network.Tidy
import EpochClaims.Proofs.Network.Roll
import EpochClaims.Proofs.Network.Blur
import EpochClaims.Proofs.Network.Failure
import EpochClaims.Proofs.Network.ExactlyOnce
import EpochClaims.Proofs.Network.LetterCase
import EpochClaims.Proofs.Index.Simulation
import EpochClaims.Proofs.Index.Storage
import EpochClaims.Proofs.Index.Course
import EpochClaims.Proofs.Index.Flush
import EpochClaims.Proofs.Index.Writes
import EpochClaims.Proofs.Index.Persistence
import EpochClaims.Proofs.Config.Acceptance
import EpochClaims.Proofs.Config.Issues
import EpochClaims.Proofs.Config.Environment
import EpochClaims.Proofs.Manager.Setup
import EpochClaims.Proofs.EventLog.RoundTrip
import EpochClaims.Proofs.EventLog.Payload
import EpochClaims.Proofs.EventLog.Batch
import EpochClaims.Proofs.EventLog.Size
import EpochClaims.Proofs.EventLog.Replay
import EpochClaims.Proofs.EventLog.Canonical
