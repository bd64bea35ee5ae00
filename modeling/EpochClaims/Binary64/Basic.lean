/-!
# Binary floating-point numbers

Epoch numbers, indices and codes reach this library as binary floating-point
numbers of 64 bits. Every finite one is a whole multiple of the least positive
one, the step `2 ^ -1074`, so a finite number is its sign and its count of
steps: comparing, cutting to an integer and adding are integer arithmetic, and
only a sum has to be rounded (`Binary64.Rounding`). The two zeros differ in
sign alone.

`sameNumber` is numeric equality, under which the zeros agree and NaN differs
from itself. `key` names the identity of a number as a key of a table, under
which the zeros agree and NaN is one key.
-/

namespace EpochClaims

/-- A binary floating-point number of 64 bits. -/
inductive Binary64 where
  | nan
  | infinity (negative : Bool)
  | finite (negative : Bool) (steps : Nat)
  deriving DecidableEq, Repr, Inhabited

namespace Binary64

/-- One is this power of two in steps. -/
@[irreducible] def scale : Nat := 1074

/-- The number of steps in one. -/
@[irreducible] def unit : Nat := Nat.pow 2 scale

theorem unit_eq : unit = Nat.pow 2 scale := by
  rw [unit]

theorem unit_pos : 0 < unit := by
  rw [unit_eq]
  exact Nat.two_pow_pos scale

/-- The least natural number that takes more than 53 bits. All integers up to it
in size are exact. -/
def exactBound : Nat := Nat.pow 2 53

/-- A count of steps with its sign. -/
def signed (negative : Bool) (steps : Nat) : Int :=
  if negative then -(steps : Int) else steps

/-- Positive zero. -/
def zero : Binary64 := finite false 0

instance : OfNat Binary64 0 := ⟨zero⟩

/-- Numeric equality. -/
def sameNumber : Binary64 → Binary64 → Bool
  | infinity s, infinity t => s == t
  | finite s m, finite t n => signed s m == signed t n
  | _, _ => false

/-- The representative of a number among those that are the same key. -/
def key : Binary64 → Binary64
  | finite s m => finite (s && m != 0) m
  | x => x

/-- The same key of a table. -/
def sameKey (x y : Binary64) : Bool :=
  x.key == y.key

/-- The integer that a number is, if it is one. Negative zero is zero. -/
def toInt? : Binary64 → Option Int
  | finite s m => if m % unit = 0 then some (signed s (m / unit)) else none
  | _ => none

/-- The natural number that a number is, if it is one. -/
def toNat? (x : Binary64) : Option Nat :=
  match x.toInt? with
  | some (.ofNat n) => some n
  | _ => none

/-- The greatest integer that is not above a finite number. -/
def floor? : Binary64 → Option Int
  | finite s m => some (Int.fdiv (signed s m) unit)
  | _ => none

/-- Whether a number is at most another one. -/
def atMost : Binary64 → Binary64 → Bool
  | nan, _ => false
  | _, nan => false
  | infinity s, infinity t => s || !t
  | infinity s, finite _ _ => s
  | finite _ _, infinity t => !t
  | finite s m, finite t n => signed s m ≤ signed t n

@[simp] theorem sameNumber_nan_left (x : Binary64) : sameNumber nan x = false := by
  cases x <;> rfl

@[simp] theorem sameNumber_nan_right (x : Binary64) : sameNumber x nan = false := by
  cases x <;> rfl

theorem sameKey_comm (x y : Binary64) : sameKey x y = sameKey y x := by
  exact BEq.comm

@[simp] theorem sameKey_self (x : Binary64) : sameKey x x = true := by
  simp [sameKey]

end Binary64

end EpochClaims
