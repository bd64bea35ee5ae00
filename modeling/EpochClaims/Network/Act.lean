import EpochClaims.Manager.Call
import EpochClaims.Raised

/-!
# Acts and plans

An act is what somebody may do to a manager while its events are delivered: a
call, or to start or stop listening. A plan lays down what a listener does with
the events it hears, one after another: the acts it performs on each and, in
the end, what it raises. A stretch of equal reactions is written once with its
length, so a plan is finite and short while any finite behaviour has one.

`reactions` counts the reactions that a plan still has, those of listeners that
first appear in its own acts included. Every reaction uses one up, which bounds
how deep the acts of listeners can nest.
-/

namespace EpochClaims

mutual

/-- What may be done to a manager, by name. -/
inductive Act where
  | call (manager : String) (call : Call)
  | watch (manager listener : String) (plan : Plan)
  | unwatch (listener : String)

/-- What a listener does with the events it hears. -/
inductive Plan where
  /-- It performs no acts from now on. -/
  | always (failure : Option Raised)
  /-- It does the same for a number of events and then goes on with the rest. -/
  | times (count : Nat) (acts : List Act) (failure : Option Raised) (rest : Plan)

end

instance : Inhabited Plan := ⟨.always none⟩

/-- What a listener does with one event. -/
structure Reaction where
  acts : List Act
  failure : Option Raised

namespace Plan

/-- The reaction to the next event and the plan for the events after it. -/
def next : Plan → Reaction × Plan
  | always failure => (⟨[], failure⟩, always failure)
  | times 0 _ _ rest => rest.next
  | times (count + 1) acts failure rest => (⟨acts, failure⟩, times count acts failure rest)

end Plan

mutual

/-- The reactions that an act adds. -/
def Act.reactions : Act → Nat
  | .call _ _ => 0
  | .watch _ _ plan => plan.reactions
  | .unwatch _ => 0

/-- The reactions that a plan has left. -/
def Plan.reactions : Plan → Nat
  | .always _ => 0
  | .times count acts _ rest => count * (1 + Act.totalReactions acts) + rest.reactions

/-- The reactions that a list of acts adds. -/
def Act.totalReactions : List Act → Nat
  | [] => 0
  | act :: acts => act.reactions + Act.totalReactions acts

end

/-- A reaction with acts uses up one that was counted, beside those that its
acts add. -/
theorem Plan.reactions_next_lt : ∀ p : Plan, p.next.1.acts ≠ [] →
    Act.totalReactions p.next.1.acts + p.next.2.reactions < p.reactions
  | .always _, h => absurd rfl h
  | .times 0 _ _ rest, h => by
    have hrest := rest.reactions_next_lt h
    simpa [Plan.next, Plan.reactions] using hrest
  | .times (count + 1) acts _ rest, _ => by
    simp only [Plan.next, Plan.reactions, Nat.succ_mul]
    omega

/-- No reaction leaves more of them than there were. -/
theorem Plan.reactions_next_le : ∀ p : Plan, p.next.2.reactions ≤ p.reactions
  | .always _ => Nat.le_refl _
  | .times 0 _ _ rest => by
    have hrest := rest.reactions_next_le
    simpa [Plan.next, Plan.reactions] using hrest
  | .times (count + 1) acts _ rest => by
    simp only [Plan.next, Plan.reactions, Nat.succ_mul]
    omega

/-- The word for an act. -/
def Act.name : Act → String
  | .call _ (.submit _) => "submit"
  | .call _ (.dispute _) => "dispute"
  | .call _ (.advance _) => "advance"
  | .watch _ _ _ => "watch"
  | .unwatch _ => "unwatch"

end EpochClaims
