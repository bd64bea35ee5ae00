import EpochClaims.Binary64.Basic

/-!
# The shortest decimal that reads back

Every positive number is the nearest number to all reals of an interval around
it, the ends included when its significand is even. `shortest` is the decimal
with the fewest digits in that interval. For each count of digits, from one to
seventeen, only the two points of the decimal grid next to the number can be
in its interval; the first grid with such a point decides, of two points the
nearer wins, and a tie goes to the even one. Everything is integer arithmetic
over the common denominator `4 * unit`, four quarters of a step for each step.
-/

namespace EpochClaims

namespace Binary64

/-- A decimal `digits * 10 ^ exponent`. -/
structure Decimal where
  digits : Nat
  exponent : Int
  deriving DecidableEq, Repr, Inhabited

/-- The reals that round to a number, in quarters of a step. -/
structure Interval where
  low : Nat
  high : Nat
  closed : Bool
  deriving DecidableEq, Repr

/-- The interval around a positive count of steps. The gap below a power of
two is half as wide as the gap above, except at the least grid. -/
def interval (steps : Nat) : Interval :=
  let grid := Nat.pow 2 (steps.log2 - 52)
  let significand := steps / grid
  let below := if significand = Nat.pow 2 52 ∧ 1 < grid then grid else 2 * grid
  ⟨4 * steps - below, 4 * steps + 2 * grid, significand % 2 = 0⟩

/-- The number of decimal digits of a natural number. -/
def decimalLength (n : Nat) : Nat :=
  (Nat.toDigits 10 n).length

/-- The least `k` counted from `from` with `steps * 10 ^ k` at least one unit,
looking at most `fuel` places further. -/
def leadingZeros (steps : Nat) : Nat → Nat → Nat
  | 0, k => k
  | fuel + 1, k => if unit ≤ steps * Nat.pow 10 k then k else leadingZeros steps fuel (k + 1)

/-- The exponent of the first decimal digit of a positive count of steps. -/
def magnitude (steps : Nat) : Int :=
  if unit ≤ steps then (decimalLength (steps / unit) : Int) - 1
  else -(leadingZeros steps 330 1 : Int)

/-- The best point with `count` digits inside the interval, if there is one. -/
def onGrid? (steps count : Nat) : Option Decimal :=
  let exponent := magnitude steps + 1 - count
  let stretch := Nat.pow 10 (-exponent).toNat
  let point := 4 * unit * Nat.pow 10 exponent.toNat
  let around := interval steps
  let target := 4 * steps * stretch
  let lower := target / point
  let within (p : Nat) : Bool :=
    if around.closed then around.low * stretch ≤ p * point && p * point ≤ around.high * stretch
    else around.low * stretch < p * point && p * point < around.high * stretch
  let gapBelow := target - lower * point
  let gapAbove := (lower + 1) * point - target
  match within lower, within (lower + 1) with
  | true, true =>
    if gapBelow < gapAbove then some ⟨lower, exponent⟩
    else if gapAbove < gapBelow then some ⟨lower + 1, exponent⟩
    else some ⟨lower + lower % 2, exponent⟩
  | true, false => some ⟨lower, exponent⟩
  | false, true => some ⟨lower + 1, exponent⟩
  | false, false => none

/-- A decimal without trailing zeros, at most `fuel` of them. -/
def stripZeros : Nat → Decimal → Decimal
  | 0, d => d
  | fuel + 1, d =>
    if d.digits % 10 = 0 then stripZeros fuel ⟨d.digits / 10, d.exponent + 1⟩ else d

/-- The shortest decimal that reads back as a positive count of steps. -/
def shortest (steps : Nat) : Decimal :=
  match (List.range 17).findSome? fun i => onGrid? steps (i + 1) with
  | some d => stripZeros 17 d
  | none => ⟨steps, 0⟩

end Binary64

end EpochClaims
