import EpochClaims.Mask.Basic
import Mathlib.Algebra.Group.Nat.Defs

/-!
# Masks as sets

The operations of a mask that do not change it are told by membership: whether
it is empty, what its least member is, and whether it lies inside another mask,
also one of a different number of slots.
-/

namespace EpochClaims

namespace Mask

variable {n k : Nat}

theorem testBit_toNat {m : Mask n} {j : Nat} :
    m.toNat.testBit j = true ↔ ∃ i : Fin n, i.val = j ∧ i ∈ m := by
  rw [toNat, BitVec.testBit_toNat]
  constructor
  · intro h
    have hj : j < n := BitVec.lt_of_getLsbD h
    refine ⟨⟨j, hj⟩, rfl, ?_⟩
    rw [mem_iff, Fin.getElem_fin, ← BitVec.getLsbD_eq_getElem]
    exact h
  · rintro ⟨i, rfl, hi⟩
    rw [mem_iff, Fin.getElem_fin, ← BitVec.getLsbD_eq_getElem] at hi
    exact hi

theorem testBit_toNat_val (m : Mask n) (i : Fin n) : m.toNat.testBit i.val = decide (i ∈ m) := by
  rw [toNat, BitVec.testBit_toNat, BitVec.getLsbD_eq_getElem i.isLt]
  exact Bool.decide_eq_true.symm

theorem isSubsetOf_iff_exists {m : Mask n} {other : Mask k} :
    m.isSubsetOf other = true ↔ ∀ i ∈ m, ∃ j : Fin k, j.val = i.val ∧ j ∈ other := by
  rw [isSubsetOf, beq_iff_eq]
  constructor
  · intro h i hi
    have hbit : m.toNat.testBit i.val = true := testBit_toNat.2 ⟨i, rfl, hi⟩
    rw [toNat, ← h, Nat.testBit_and, Bool.and_eq_true] at hbit
    exact testBit_toNat.1 hbit.2
  · intro h
    apply Nat.eq_of_testBit_eq
    intro j
    rw [Nat.testBit_and, Bool.eq_iff_iff, Bool.and_eq_true]
    constructor
    · exact fun hbits => hbits.1
    · intro hbit
      obtain ⟨i, rfl, hi⟩ := testBit_toNat.1 hbit
      exact ⟨hbit, testBit_toNat.2 (h i hi)⟩

/-- Between masks of the same slots, being a subset is being so member by
member. -/
theorem isSubsetOf_iff {m other : Mask n} :
    m.isSubsetOf other = true ↔ ∀ i ∈ m, i ∈ other := by
  rw [isSubsetOf_iff_exists]
  constructor
  · intro h i hi
    obtain ⟨j, hj, hmem⟩ := h i hi
    rwa [← Fin.ext hj]
  · intro h i hi
    exact ⟨i, rfl, h i hi⟩

/-- The masks inside the mask of the first slots are the small numbers. -/
theorem isSubsetOf_full_iff {m : Mask n} :
    m.isSubsetOf (full : Mask k) = true ↔ m.toNat < 2 ^ k := by
  rw [isSubsetOf, beq_iff_eq, full, BitVec.toNat_allOnes, Nat.and_two_pow_sub_one_eq_mod,
    Nat.mod_eq_iff_lt (Nat.ne_of_gt (Nat.two_pow_pos k)), toNat]

theorem eq_empty_iff {m : Mask n} : m = empty ↔ ∀ i, i ∉ m := by
  constructor
  · rintro rfl i
    exact mem_empty
  · intro h
    apply ext
    intro i
    exact iff_of_false (h i) mem_empty

theorem isEmpty_eq_false_iff {m : Mask n} : m.isEmpty = false ↔ ∃ i, i ∈ m := by
  rw [← Bool.not_eq_true, isEmpty_iff, eq_empty_iff]
  simp

theorem ne_empty_iff {m : Mask n} : m ≠ empty ↔ ∃ i, i ∈ m := by
  rw [← isEmpty_eq_false_iff, ← Bool.not_eq_true, ne_eq, isEmpty_iff]

/-- A mask with a member has a least one. -/
theorem exists_least? {m : Mask n} {i : Fin n} (hi : i ∈ m) : ∃ j, m.least? = some j := by
  cases h : m.least? with
  | none => exact absurd hi (eq_empty_iff.1 (least?_eq_none_iff.1 h) i)
  | some j => exact ⟨j, rfl⟩

/-- In a slot below a member there is no other member if this one is the least. -/
theorem le_of_least? {m : Mask n} {i j : Fin n} (h : m.least? = some i)
    (hj : j ∈ m) : i ≤ j := by
  obtain ⟨-, k, hk, hki, hbefore⟩ := List.find?_eq_some_iff_getElem.1 h
  rw [List.getElem_finRange] at hki
  apply Nat.le_of_not_lt
  intro hlt
  have hjk : j.val < k := by
    rw [← hki] at hlt
    exact hlt
  have hnot := hbefore j.val hjk
  simp [hj] at hnot

theorem insert_of_mem {m : Mask n} {i : Fin n} (hi : i ∈ m) : m.insert i = m := by
  apply ext
  intro j
  rw [mem_insert]
  constructor
  · rintro (rfl | hj)
    · exact hi
    · exact hj
  · exact Or.inr

end Mask

end EpochClaims
