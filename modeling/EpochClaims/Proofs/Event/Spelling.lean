import EpochClaims.Manager.Call
import EpochClaims.Proofs.Hex.Lowering

/-!
# How events are spelled

The claims and the validators of an event are texts, so an event from elsewhere
may spell them in any case. `canonical` is the event with its claims in lower
case and its validators checksummed. What a manager announces is spelled so
already (`Reply.canonical_event`).
-/

namespace EpochClaims

/-- An outcome with its claims and its validators respelled. -/
def Outcome.mapTexts (claim validator : String → String) (o : Outcome) : Outcome :=
  { o with claims := o.claims.mapMembers claim, validators := o.validators.mapMembers validator }

namespace Event

/-- An event with its claims and its validators respelled. -/
def mapTexts (claim validator : String → String) : Event → Event
  | claimReceived o => claimReceived (o.mapTexts claim validator)
  | disputeEnded o => disputeEnded (o.mapTexts claim validator)
  | newEpoch c => newEpoch (c.mapText claim)
  | other name => other name

/-- An event with its claims in lower case and its validators checksummed. -/
def canonical : Event → Event :=
  mapTexts Hex.lowered Address.checksummed

/-- An event with its claims and its validators in lower case. -/
def lowered : Event → Event :=
  mapTexts Hex.lowered Hex.lowered

theorem mapTexts_mapTexts (f g f' g' : String → String) (e : Event) :
    (e.mapTexts f g).mapTexts f' g' = e.mapTexts (f' ∘ f) (g' ∘ g) := by
  have houtcome : ∀ o : Outcome,
      (o.mapTexts f g).mapTexts f' g' = o.mapTexts (f' ∘ f) (g' ∘ g) := by
    intro o
    simp only [Outcome.mapTexts, Argument.mapMembers_mapMembers]
  cases e with
  | claimReceived o => exact congrArg claimReceived (houtcome o)
  | disputeEnded o => exact congrArg disputeEnded (houtcome o)
  | newEpoch c => exact congrArg newEpoch (c.mapText_mapText f f')
  | other _ => rfl

/-- The canonical form changes the case of letters only. -/
theorem lowered_canonical (e : Event) : e.canonical.lowered = e.lowered := by
  have hvalidator : Hex.lowered ∘ Address.checksummed = Hex.lowered :=
    funext Address.lowered_checksummed
  rw [lowered, canonical, mapTexts_mapTexts, Hex.lowered_comp_lowered, hvalidator]

end Event

theorem Claim.lowered_text (c : Claim) : Hex.lowered c.text = c.text :=
  Hex.lowered_write c.digits

theorem Claim.lowered_textOf (c : Option Claim) : Hex.lowered (textOf c) = textOf c := by
  cases c with
  | none => exact Hex.lowered_write noneDigits
  | some c => exact c.lowered_text

theorem Address.checksummed_text (a : Address) : checksummed a.text = a.text :=
  checksummed_of_ofText? a.ofText?_text

/-- The outcome of a verdict has its claims in lower case and its validators
checksummed. -/
theorem Verdict.canonical_outcome (v : Verdict) :
    v.outcome.mapTexts Hex.lowered Address.checksummed = v.outcome := by
  have hnone : Hex.lowered Claim.noneText = Claim.noneText := Claim.lowered_textOf none
  cases v <;>
    simp [outcome, Outcome.of, Outcome.mapTexts, Argument.mapMembers, Document.mapMembers,
      Document.mapText, hnone, Claim.lowered_text, Claim.lowered_textOf, Address.checksummed_text]

/-- What a manager announces is canonical. -/
theorem Reply.canonical_event (r : Reply) : r.event.canonical = r.event := by
  cases r with
  | claimed v => exact congrArg Event.claimReceived v.canonical_outcome
  | judged v => exact congrArg Event.disputeEnded v.canonical_outcome
  | closed claim =>
      exact congrArg (fun s => Event.newEpoch (.text s)) (Claim.lowered_textOf claim)

end EpochClaims
