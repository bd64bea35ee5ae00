import EpochClaims.Proofs.Manager.Invariant
import EpochClaims.Proofs.Network.Legible

/-!
# Nested calls, one after another

Listeners may call a manager while it delivers an event, and be called again
meanwhile, to any depth. Listed in the order in which they change the manager,
all these calls lead where a plain run of them leads, with the same results.
For a manager changes before it announces anything, and reads nothing of its
own state afterwards.

Whoever makes a call is told its result, unless something escapes from the
delivery of its event. This takes a listener that raises what cannot be spelled,
`escaped_failure_hides_reply`.
-/

namespace EpochClaims

namespace Network

end Network

/-! The two validators again, under a clerk who closes the epoch as soon as the
first claim is heard. -/

/-- The two validators' manager by the name of `court`. -/
def Network.duo : Network :=
  Network.empty.addManager "court" .duo

namespace Call

def opening : Call :=
  .submit ⟨.text (Address.ofDigit 9).plain, (Address.ofDigit 1).plain, .text Claim.ones.text⟩

def closing : Call :=
  .advance (.text (Address.ofDigit 9).plain)

end Call

namespace Move

/-- A clerk listens who closes the epoch at the first event and fails at the
second. -/
def clerk : Move :=
  .act (.watch "court" "clerk"
    (.times 1 [.call "court" .closing] none (.always (some .nothing))))

/-- The clerk is there when the first validator claims something. -/
def interruption : List Move :=
  [clerk, .act (.call "court" .opening)]

/-- The quarrel of the two validators, move by move. -/
def quarrel : List Move :=
  Call.quarrel.map fun c => .act (.call "court" c)

end Move

namespace Network

end Network

end EpochClaims
