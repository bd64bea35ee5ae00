/-!
# The Keccak permutation

The state is 25 lanes of 64 bits, lane `(x, y)` at place `x + 5 * y`. Each
layer is written as a function of the lane that it fills, so no layer writes
in place: `theta` adds the parities of two neighbouring columns, `rhoPi`
rotates each lane and moves it, `chi` mixes three lanes of a row, `iota` adds
the constant of the round. The permutation is 24 rounds of the four.
-/

namespace EpochClaims

namespace Keccak

/-- The 25 lanes of the permutation. -/
abbrev State := Vector UInt64 25

/-- The state of zeros. -/
def State.zero : State :=
  Vector.replicate 25 0

/-- The lane in column `x` and row `y`, both modulo five. -/
def State.lane (s : State) (x y : Nat) : UInt64 :=
  s.get ⟨x % 5 + 5 * (y % 5), by omega⟩

/-- The state whose lane in column `x` and row `y` is `f x y`. -/
def State.ofLanes (f : Nat → Nat → UInt64) : State :=
  Vector.ofFn fun i => f (i.val % 5) (i.val / 5)

/-- The rotation of a lane by `n` places towards its high end. -/
def rotate (lane : UInt64) (n : Nat) : UInt64 :=
  (lane <<< UInt64.ofNat n) ||| (lane >>> UInt64.ofNat (64 - n))

/-- The rotation of the lane at each place. -/
def offsets : Vector Nat 25 :=
  #v[0, 1, 62, 28, 27, 36, 44, 6, 55, 20, 3, 10, 43, 25, 39, 41, 45, 15, 21, 8, 18, 2, 61, 56, 14]

/-- The constants of the 24 rounds. -/
def roundConstants : List UInt64 :=
  [0x0000000000000001, 0x0000000000008082, 0x800000000000808a, 0x8000000080008000,
    0x000000000000808b, 0x0000000080000001, 0x8000000080008081, 0x8000000000008009,
    0x000000000000008a, 0x0000000000000088, 0x0000000080008009, 0x000000008000000a,
    0x000000008000808b, 0x800000000000008b, 0x8000000000008089, 0x8000000000008003,
    0x8000000000008002, 0x8000000000000080, 0x000000000000800a, 0x800000008000000a,
    0x8000000080008081, 0x8000000000008080, 0x0000000080000001, 0x8000000080008008]

/-- The parity of each column. -/
def parities (s : State) : Vector UInt64 5 :=
  Vector.ofFn fun x =>
    s.lane x.val 0 ^^^ s.lane x.val 1 ^^^ s.lane x.val 2 ^^^ s.lane x.val 3 ^^^ s.lane x.val 4

/-- Adds to each lane the parity of the column before it and the rotated
parity of the column behind it. -/
def theta (s : State) : State :=
  let c := parities s
  let d : Vector UInt64 5 := Vector.ofFn fun x =>
    c.get ⟨(x.val + 4) % 5, by omega⟩ ^^^ rotate (c.get ⟨(x.val + 1) % 5, by omega⟩) 1
  State.ofLanes fun x y => s.lane x y ^^^ d.get ⟨x % 5, by omega⟩

/-- Rotates each lane by its offset and moves it: the lane that lands in
column `x` and row `y` comes from column `x + 3 * y` and row `x`. -/
def rhoPi (s : State) : State :=
  State.ofLanes fun x y =>
    rotate (s.lane (x + 3 * y) x) (offsets.get ⟨(x + 3 * y) % 5 + 5 * (x % 5), by omega⟩)

/-- Adds to each lane the next lane of its row, inverted, times the one after. -/
def chi (s : State) : State :=
  State.ofLanes fun x y => s.lane x y ^^^ (~~~ s.lane (x + 1) y &&& s.lane (x + 2) y)

/-- Adds a round constant to the first lane. -/
def iota (constant : UInt64) (s : State) : State :=
  s.set 0 (s[0] ^^^ constant)

/-- One round. -/
def round (s : State) (constant : UInt64) : State :=
  iota constant (chi (rhoPi (theta s)))

/-- The permutation of 24 rounds. -/
def permute (s : State) : State :=
  roundConstants.foldl round s

end Keccak

end EpochClaims
