/-!
# Slot masks

A mask is a set of the slots below `n`, one bit for each. The view of a mask
is membership: `mem_insert`, `mem_erase`, `mem_empty` and `mem_full` say what
each operation does to it, `ext` that a mask is its members, and the listing
`toList` and the least member are read off membership. The written form is the
number of the mask in binary, with a digit for each slot.
-/

namespace EpochClaims

/-- A set of the slots below `n`. -/
structure Mask (n : Nat) where
  bits : BitVec n
  deriving DecidableEq, Repr

namespace Mask

variable {n : Nat}

instance : Membership (Fin n) (Mask n) where
  mem m i := m.bits[i] = true

instance (i : Fin n) (m : Mask n) : Decidable (i ∈ m) :=
  inferInstanceAs (Decidable (m.bits[i] = true))

theorem mem_iff {i : Fin n} {m : Mask n} : i ∈ m ↔ m.bits[i] = true := Iff.rfl

/-- A mask is its members. -/
theorem ext {m k : Mask n} (h : ∀ i : Fin n, i ∈ m ↔ i ∈ k) : m = k := by
  cases m with
  | mk b =>
    cases k with
    | mk c =>
      congr 1
      refine BitVec.eq_of_getElem_eq fun i hi => ?_
      exact Bool.eq_iff_iff.2 (h ⟨i, hi⟩)

/-- The mask without members. -/
def empty : Mask n := ⟨0#n⟩

/-- The mask of all slots. -/
def full : Mask n := ⟨BitVec.allOnes n⟩

/-- The mask with one more member. -/
def insert (m : Mask n) (i : Fin n) : Mask n := ⟨m.bits ||| BitVec.twoPow n i⟩

/-- The mask with one member less. -/
def erase (m : Mask n) (i : Fin n) : Mask n := ⟨m.bits &&& ~~~ BitVec.twoPow n i⟩

@[simp] theorem mem_empty {i : Fin n} : i ∉ (empty : Mask n) := by
  simp [mem_iff, empty]

@[simp] theorem mem_full {i : Fin n} : i ∈ (full : Mask n) := by
  simp [mem_iff, full]

@[simp] theorem mem_insert {m : Mask n} {i j : Fin n} : j ∈ m.insert i ↔ j = i ∨ j ∈ m := by
  simp only [mem_iff, insert, Fin.getElem_fin, BitVec.getElem_or, BitVec.getElem_twoPow,
    Bool.or_eq_true, decide_eq_true_iff, Fin.ext_iff]
  exact or_comm

@[simp] theorem mem_erase {m : Mask n} {i j : Fin n} : j ∈ m.erase i ↔ j ≠ i ∧ j ∈ m := by
  simp only [mem_iff, erase, Fin.getElem_fin, BitVec.getElem_and, BitVec.getElem_not,
    BitVec.getElem_twoPow, Bool.and_eq_true, Bool.not_eq_true', decide_eq_false_iff_not,
    ne_eq, Fin.ext_iff]
  exact and_comm

/-- Whether every member of `m` is a member of `k`, also between masks over
different numbers of slots. -/
def isSubsetOf {k : Nat} (m : Mask n) (other : Mask k) : Bool :=
  m.bits.toNat &&& other.bits.toNat == m.bits.toNat

/-- The members in ascending order. -/
def toList (m : Mask n) : List (Fin n) :=
  (List.finRange n).filter fun i => i ∈ m

@[simp] theorem mem_toList {m : Mask n} {i : Fin n} : i ∈ m.toList ↔ i ∈ m := by
  simp [toList]

/-- The number of members. -/
def size (m : Mask n) : Nat := m.toList.length

/-- Whether a mask has no members. -/
def isEmpty (m : Mask n) : Bool := m.bits == 0#n

/-- The least member. -/
def least? (m : Mask n) : Option (Fin n) :=
  (List.finRange n).find? fun i => i ∈ m

/-- A mask as a number, slot `i` worth `2 ^ i`. -/
def toNat (m : Mask n) : Nat := m.bits.toNat

/-- The number of a mask in base two, with zeros in front up to the number of
slots. -/
def digits (m : Mask n) : List Char :=
  (Nat.toDigits 2 m.toNat).leftpad n '0'

/-- A mask in binary, the highest slot first. -/
def chars (m : Mask n) : List Char :=
  '0' :: 'b' :: m.digits

/-- A mask in binary, the highest slot first. -/
def text (m : Mask n) : String :=
  String.ofList m.chars

theorem isEmpty_iff {m : Mask n} : m.isEmpty = true ↔ m = empty := by
  cases m
  simp [isEmpty, empty]

/-- There is a least member unless the mask is empty. -/
theorem least?_eq_none_iff {m : Mask n} : m.least? = none ↔ m = empty := by
  constructor
  · intro h
    refine ext fun i => ?_
    have hi := List.find?_eq_none.1 h i (List.mem_finRange i)
    simpa using hi
  · rintro rfl
    simp [least?]

/-- The least member is a member. -/
theorem mem_of_least? {m : Mask n} {i : Fin n} (h : m.least? = some i) : i ∈ m := by
  have hi := List.find?_some h
  simpa using hi

end Mask

end EpochClaims
