import EpochClaims.Binary64.Text
import EpochClaims.Mask.Word
import EpochClaims.Report

/-!
# Masks addressed by numbers

Callers outside the library name capacities, values and slots by floating-point
numbers, or hand in what is no number at all. Each operation here checks what
it is given and refuses it by its cause. A capacity is an integer from one to
`maxSlots`, a value an unsigned 32-bit integer without bits beyond the capacity,
a slot an integer below the capacity. Capacities are checked before values.

A mask of this kind is one integer, and its operations are those on words of 32
bits. These may give negative integers, so whatever becomes the value of a mask
is read without a sign. That the operations are those on sets of slots is proved
in `EpochClaims.Proofs.Mask.Refinement`.
-/

namespace EpochClaims

/-- The most slots that a mask can hold. -/
def maxSlots : Nat := 32

/-- A mask as an integer, together with its number of slots. -/
structure SizedMask where
  value : Int
  capacity : Nat
  deriving DecidableEq, Repr

namespace SizedMask

/-- Why a value does not fit a mask. -/
inductive Fault where
  | capacity (given : Argument)
  | value (given : Argument)
  | beyond (given : Argument) (capacity : Nat)
  | slot (given : Argument) (capacity : Nat)
  deriving DecidableEq, Repr

/-- The wording of each refusal. -/
def Fault.message : Fault → String
  | capacity given =>
    "Bitmask capacity must be an integer in 1.." ++ toString maxSlots ++ ", got " ++ given.spelled
  | value given => "Bitmask value must be an unsigned 32-bit integer, got " ++ given.spelled
  | beyond given n =>
    "Bitmask value " ++ given.spelled ++ " has bits beyond capacity " ++ toString n
  | slot given n => "Bit index " ++ given.spelled ++ " outside 0.." ++ toString (n - 1)

/-- The report of a value that does not fit. -/
def Fault.report (f : Fault) : Report :=
  Report.plain "RangeError" f.message

/-- The number of slots that a value stands for. -/
def readCapacity (given : Argument) : Except Fault Nat :=
  match given.toNat? with
  | some n => if 1 ≤ n ∧ n ≤ maxSlots then .ok n else .error (.capacity given)
  | none => .error (.capacity given)

/-- The slot that a value stands for. -/
def readSlot (n : Nat) (given : Argument) : Except Fault Nat :=
  match given.toNat? with
  | some i => if i < n then .ok i else .error (.slot given n)
  | none => .error (.slot given n)

/-- The integer with the bit of a slot alone. -/
def bit (slot : Nat) : Int :=
  Word.unsigned (Word.shiftLeft 1 slot)

/-- The greatest value of a mask. -/
def greatestValue : Int := 0xffffffff

/-- The value with the bits of all slots. No shift reaches behind the last bit of
a word, so the widest mask has a value of its own. -/
def fullValue (n : Nat) : Int :=
  Word.unsigned (if n = maxSlots then greatestValue else bit n - 1)

/-- Whether every member of `m` is a member of `k`. -/
def isSubsetOf (m k : SizedMask) : Bool :=
  Word.unsigned (Word.and m.value (Word.not k.value)) == 0

/-- The empty mask of a capacity. -/
def empty (capacity : Argument) : Except Fault SizedMask := do
  let n ← readCapacity capacity
  return ⟨0, n⟩

/-- The full mask of a capacity. -/
def full (capacity : Argument) : Except Fault SizedMask := do
  let n ← readCapacity capacity
  return ⟨fullValue n, n⟩

/-- The mask that a value spells in binary. -/
def ofNumber (value capacity : Argument) : Except Fault SizedMask := do
  let n ← readCapacity capacity
  match value.number?.bind Binary64.toInt? with
  | some v =>
    if v < 0 ∨ greatestValue < v then throw (.value value)
    let m : SizedMask := ⟨Word.unsigned v, n⟩
    if m.isSubsetOf ⟨fullValue n, n⟩ then return m else throw (.beyond value n)
  | none => throw (.value value)

/-- Adds the slot that a value stands for. -/
def insert (m : SizedMask) (slot : Argument) : Except Fault SizedMask := do
  let i ← readSlot m.capacity slot
  return ⟨Word.unsigned (Word.or m.value (bit i)), m.capacity⟩

/-- Removes the slot that a value stands for. -/
def erase (m : SizedMask) (slot : Argument) : Except Fault SizedMask := do
  let i ← readSlot m.capacity slot
  return ⟨Word.unsigned (Word.and m.value (Word.not (bit i))), m.capacity⟩

/-- Whether the bit of a slot is set. -/
def holds (m : SizedMask) (slot : Nat) : Bool :=
  Word.and m.value (bit slot) != 0

/-- Whether the slot that a value stands for is a member. -/
def contains (m : SizedMask) (slot : Argument) : Except Fault Bool := do
  let i ← readSlot m.capacity slot
  return m.holds i

/-- Whether two masks agree in capacity and members. -/
def equals (m k : SizedMask) : Bool :=
  m.capacity == k.capacity && m.value == k.value

/-- Whether a mask has no members. -/
def isEmpty (m : SizedMask) : Bool :=
  m.value == 0

/-- The members in ascending order. -/
def indices (m : SizedMask) : List Nat :=
  (List.range m.capacity).filter m.holds

/-- The number of members. -/
def size (m : SizedMask) : Nat :=
  m.indices.length

/-- The least member. -/
def least? (m : SizedMask) : Option Nat :=
  (List.range m.capacity).find? m.holds

/-- The value in base two, with zeros in front up to the number of slots. -/
def digits (m : SizedMask) : List Char :=
  (Binary64.withSign (m.value < 0) (Nat.toDigits 2 m.value.natAbs)).leftpad m.capacity '0'

/-- A mask in binary, the highest slot first. -/
def text (m : SizedMask) : String :=
  String.ofList ('0' :: 'b' :: m.digits)

end SizedMask

end EpochClaims
