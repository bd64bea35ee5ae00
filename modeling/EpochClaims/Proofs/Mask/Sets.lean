import Mathlib.Combinatorics.Colex
import Mathlib.Data.Finset.Sort
import EpochClaims.Proofs.Mask.Refinement

/-!
# Masks are finite sets

A mask that is addressed by numbers is the finite set of the slots that it
reports, its `members`. Each operation on masks is the operation on finite sets
that its name promises, and what is no slot is refused: `masks_are_finite_sets`.
The integer of a mask is the sum of the powers of two of its members, also where
the highest of 32 slots is one of them, and so it is never negative.

The operations reckon with words of 32 bits. Their masks are looked at as masks
of slots, `ofMask`, where members are members of a set from the start.
-/

namespace EpochClaims

namespace SizedMask

/-- The slots that a mask reports as its members. -/
def members (m : SizedMask) : Finset ℕ :=
  (Finset.range m.capacity).filter fun i => m.contains (.number (Binary64.ofInt i)) = .ok true

variable {m : SizedMask} {value capacity slot : Argument} {n l c i : ℕ}

/-! ### What the arguments stand for -/

/-- Capacities and slots are exact as numbers. -/
theorem le_exactBound (h : i ≤ maxSlots) : i ≤ Binary64.exactBound :=
  Nat.le_trans h (by decide)

theorem readCapacity_of_isNat (hc : 1 ≤ c ∧ c ≤ maxSlots) (h : capacity.IsNat c) :
    readCapacity capacity = .ok c :=
  readCapacity_eq_ok_iff.2 ⟨(Argument.toNat?_eq_some_iff (le_exactBound hc.2)).2 h, hc⟩

theorem le_exactBound_of_lt (hn : n ≤ maxSlots) (hi : i < n) : i ≤ Binary64.exactBound :=
  le_exactBound (Nat.le_of_lt (Nat.lt_of_lt_of_le hi hn))

theorem isNat_of_lt (hn : n ≤ maxSlots) (hi : i < n) :
    (Argument.number (Binary64.ofInt i)).IsNat i :=
  Argument.isNat_ofInt (le_exactBound_of_lt hn hi)

theorem readSlot_of_isNat (hn : n ≤ maxSlots) (j : Fin n) (h : slot.IsNat j) :
    readSlot n slot = .ok j :=
  readSlot_eq_ok_iff.2 ⟨(Argument.toNat?_eq_some_iff (le_exactBound_of_lt hn j.isLt)).2 h, j.isLt⟩

/-! ### Members -/

section Members

variable (hn : n ≤ maxSlots) (k : Mask n)

include hn

theorem contains_of_isNat (j : Fin n) (h : slot.IsNat j) :
    (ofMask k).contains slot = .ok (decide (j ∈ k)) := by
  rw [contains, ← holds_ofMask hn k j]
  change (readSlot n slot >>= _) = _
  rw [readSlot_of_isNat hn j h]
  rfl

theorem mem_members_iff : i ∈ (ofMask k).members ↔ ∃ j : Fin n, j.val = i ∧ j ∈ k := by
  rw [members, Finset.mem_filter, Finset.mem_range]
  constructor
  · rintro ⟨hi, hcontains⟩
    rw [contains_of_isNat hn k ⟨i, hi⟩ (isNat_of_lt hn hi), Except.ok.injEq,
      decide_eq_true_iff] at hcontains
    exact ⟨⟨i, hi⟩, rfl, hcontains⟩
  · rintro ⟨j, rfl, hj⟩
    refine ⟨j.isLt, ?_⟩
    rw [contains_of_isNat hn k j (isNat_of_lt hn j.isLt), decide_eq_true hj]

theorem mem_members (j : Fin n) : j.val ∈ (ofMask k).members ↔ j ∈ k := by
  rw [mem_members_iff hn]
  constructor
  · rintro ⟨l, hl, hmem⟩
    rwa [← Fin.ext hl]
  · exact fun hj => ⟨j, rfl, hj⟩

/-- The members are the places of the bits of the number of a mask. -/
theorem members_eq_bitIndices : (ofMask k).members = k.toNat.bitIndices.toFinset := by
  ext i
  rw [mem_members_iff hn, List.mem_toFinset, Nat.mem_bitIndices, Mask.testBit_toNat]

theorem toNat_eq_sum : k.toNat = ∑ i ∈ (ofMask k).members, 2 ^ i := by
  rw [members_eq_bitIndices hn, Finset.sum_toFinset_bitIndices_two_pow]

theorem value_eq_sum : (ofMask k).value = ∑ i ∈ (ofMask k).members, 2 ^ i := by
  have hsum : (ofMask k).value = ((∑ i ∈ (ofMask k).members, 2 ^ i : ℕ) : ℤ) :=
    congrArg Nat.cast (toNat_eq_sum hn k)
  rw [hsum]
  simp only [Nat.cast_sum, Nat.cast_pow, Nat.cast_ofNat]

theorem indices_eq_sort : (ofMask k).indices = (ofMask k).members.sort := by
  have hlist : (k.toList.map Fin.val).Pairwise (· < ·) := by
    rw [List.pairwise_map]
    exact (List.pairwise_lt_finRange n).filter _
  rw [indices_ofMask hn]
  refine hlist.eq_of_mem_iff (ofMask k).members.sortedLT_sort.pairwise fun i => ?_
  simp only [List.mem_map, Mask.mem_toList, Finset.mem_sort, mem_members_iff hn, and_comm]

theorem size_eq_card : (ofMask k).size = (ofMask k).members.card := by
  rw [size, indices_eq_sort hn, Finset.length_sort]

theorem members_eq_empty_iff : (ofMask k).members = ∅ ↔ k = Mask.empty := by
  rw [Mask.eq_empty_iff, Finset.eq_empty_iff_forall_notMem]
  constructor
  · exact fun h j hj => h j ((mem_members hn k j).2 hj)
  · intro h i hi
    obtain ⟨j, -, hj⟩ := (mem_members_iff hn k).1 hi
    exact h j hj

theorem least?_eq_some_iff :
    (ofMask k).least? = some i ↔ IsLeast ((ofMask k).members : Set ℕ) i := by
  rw [least?_ofMask hn]
  constructor
  · intro h
    obtain ⟨j, hj, rfl⟩ := Option.map_eq_some_iff.1 h
    refine ⟨(mem_members hn k j).2 (Mask.mem_of_least? hj), fun i hi => ?_⟩
    obtain ⟨l, rfl, hl⟩ := (mem_members_iff hn k).1 hi
    exact Mask.le_of_least? hj hl
  · rintro ⟨hi, hleast⟩
    obtain ⟨j, rfl, hj⟩ := (mem_members_iff hn k).1 hi
    obtain ⟨l, hl⟩ := Mask.exists_least? hj
    have hlj : l.val ≤ j.val := Mask.le_of_least? hl hj
    have hjl : j.val ≤ l.val := hleast ((mem_members hn k l).2 (Mask.mem_of_least? hl))
    rw [hl, Option.map_some, Nat.le_antisymm hlj hjl]

/-! ### Operations -/

/-- A slot is added to the members and nothing else changes. -/
theorem exists_insert_of_isNat (hi : i < n) (h : slot.IsNat i) :
    ∃ k', (ofMask k).insert slot = .ok k' ∧ k'.capacity = n ∧
      k'.members = (ofMask k).members ∪ {i} := by
  refine ⟨ofMask (k.insert ⟨i, hi⟩),
    insert_ofMask hn k ⟨i, hi⟩ (readSlot_of_isNat hn ⟨i, hi⟩ h), rfl, ?_⟩
  ext j
  rw [mem_members_iff hn, Finset.mem_union, Finset.mem_singleton, mem_members_iff hn]
  constructor
  · rintro ⟨l, rfl, hl⟩
    rcases Mask.mem_insert.1 hl with rfl | hl
    · exact Or.inr rfl
    · exact Or.inl ⟨l, rfl, hl⟩
  · rintro (⟨l, rfl, hl⟩ | rfl)
    · exact ⟨l, rfl, Mask.mem_insert.2 (Or.inr hl)⟩
    · exact ⟨⟨j, hi⟩, rfl, Mask.mem_insert.2 (Or.inl rfl)⟩

/-- A slot is removed from the members and nothing else changes. -/
theorem exists_erase_of_isNat (hi : i < n) (h : slot.IsNat i) :
    ∃ k', (ofMask k).erase slot = .ok k' ∧ k'.capacity = n ∧
      k'.members = (ofMask k).members \ {i} := by
  refine ⟨ofMask (k.erase ⟨i, hi⟩),
    erase_ofMask hn k ⟨i, hi⟩ (readSlot_of_isNat hn ⟨i, hi⟩ h), rfl, ?_⟩
  ext j
  rw [mem_members_iff hn, Finset.mem_sdiff, Finset.mem_singleton, mem_members_iff hn]
  constructor
  · rintro ⟨l, rfl, hl⟩
    obtain ⟨hne, hl⟩ := Mask.mem_erase.1 hl
    exact ⟨⟨l, rfl, hl⟩, fun h => hne (Fin.ext h)⟩
  · rintro ⟨⟨l, rfl, hl⟩, hne⟩
    exact ⟨l, rfl, Mask.mem_erase.2 ⟨fun h => hne (congrArg Fin.val h), hl⟩⟩

/-- Being a subset is being a subset of the members, whatever the capacities. -/
theorem isSubsetOf_iff (hl : l ≤ maxSlots) (other : Mask l) :
    (ofMask k).isSubsetOf (ofMask other) = true ↔
      (ofMask k).members ⊆ (ofMask other).members := by
  rw [isSubsetOf_ofMask hn hl, Mask.isSubsetOf_iff_exists]
  constructor
  · intro h i hi
    obtain ⟨j, rfl, hj⟩ := (mem_members_iff hn k).1 hi
    exact (mem_members_iff hl other).2 (h j hj)
  · intro h j hj
    exact (mem_members_iff hl other).1 (h ((mem_members hn k j).2 hj))

theorem equals_iff (hl : l ≤ maxSlots) (other : Mask l) :
    (ofMask k).equals (ofMask other) = true ↔
      n = l ∧ (ofMask k).members = (ofMask other).members := by
  rw [equals_ofMask]
  refine and_congr_right fun _ => ?_
  constructor
  · intro h
    rw [members_eq_bitIndices hn, members_eq_bitIndices hl, h]
  · intro h
    rw [toNat_eq_sum hn, toNat_eq_sum hl, h]

end Members

/-- What is no slot is refused by every operation that takes one. -/
theorem refused_of_not_isNat (hm : m.capacity ≤ maxSlots)
    (h : ∀ i < m.capacity, ¬ slot.IsNat i) :
    ∃ f, f.report.kind = "RangeError" ∧ m.contains slot = .error f ∧
      m.insert slot = .error f ∧ m.erase slot = .error f := by
  have hread : readSlot m.capacity slot = .error (.slot slot m.capacity) := by
    refine readSlot_of_ne fun i hi hslot => h i hi ?_
    exact (Argument.toNat?_eq_some_iff (le_exactBound_of_lt hm hi)).1 hslot
  refine ⟨.slot slot m.capacity, rfl, ?_, ?_, ?_⟩
  · rw [contains, hread]
    rfl
  · rw [SizedMask.insert, hread]
    rfl
  · rw [SizedMask.erase, hread]
    rfl

/-! ### New masks -/

section New

variable (hc : 1 ≤ c ∧ c ≤ maxSlots) (h : capacity.IsNat c)

include hc h

theorem exists_empty_of_isNat :
    ∃ m, empty capacity = .ok m ∧ m.capacity = c ∧ m.members = ∅ :=
  ⟨_, empty_of_readCapacity (readCapacity_of_isNat hc h), rfl,
    (members_eq_empty_iff hc.2 _).2 rfl⟩

theorem exists_full_of_isNat :
    ∃ m, full capacity = .ok m ∧ m.capacity = c ∧ m.members = Finset.range c := by
  refine ⟨_, full_of_readCapacity (readCapacity_of_isNat hc h), rfl, ?_⟩
  ext i
  rw [mem_members_iff hc.2, Finset.mem_range]
  constructor
  · rintro ⟨j, rfl, -⟩
    exact j.isLt
  · exact fun hi => ⟨⟨i, hi⟩, rfl, Mask.mem_full⟩

/-- A mask is made of the values that are its number. -/
theorem ofNumber_eq_ok_iff_of_isNat :
    ofNumber value capacity = .ok m ↔ ∃ k : Mask c, value.IsNat k.toNat ∧ m = ofMask k := by
  rw [ofNumber_of_readCapacity (readCapacity_of_isNat hc h)]
  have hpow : 2 ^ c ≤ Binary64.exactBound :=
    Nat.le_trans (Nat.pow_le_pow_right (by decide) hc.2) (by decide)
  refine exists_congr fun k => and_congr_left fun _ => ?_
  exact Argument.toNat?_eq_some_iff (Nat.le_trans (Nat.le_of_lt k.bits.isLt) hpow)

theorem exists_ofNumber_iff :
    (∃ m, ofNumber value capacity = .ok m) ↔ ∃ v < 2 ^ c, value.IsNat v := by
  simp only [ofNumber_eq_ok_iff_of_isNat hc h]
  constructor
  · rintro ⟨m, k, hk, -⟩
    exact ⟨k.toNat, k.bits.isLt, hk⟩
  · rintro ⟨v, hlt, hv⟩
    exact ⟨_, ⟨BitVec.ofNatLT v hlt⟩, hv, rfl⟩

/-- The number of which a mask is made is its integer. -/
theorem isNat_value_of_ofNumber (hm : ofNumber value capacity = .ok m) :
    m.capacity = c ∧ ∃ v : ℕ, m.value = v ∧ value.IsNat v := by
  obtain ⟨k, hk, rfl⟩ := (ofNumber_eq_ok_iff_of_isNat hc h).1 hm
  exact ⟨rfl, k.toNat, rfl, hk⟩

end New

/-! ### The refinement -/

/-- A mask answers as a set of slots below its capacity would. -/
structure Represents (m : SizedMask) (s : Finset ℕ) : Prop where
  value_nonneg : 0 ≤ m.value
  value_lt : m.value < 2 ^ m.capacity
  value_eq : m.value = ∑ i ∈ s, 2 ^ i
  contains : ∀ slot : Argument, ∀ i < m.capacity, slot.IsNat i →
    m.contains slot = .ok (decide (i ∈ s))
  insert : ∀ slot : Argument, ∀ i < m.capacity, slot.IsNat i →
    ∃ k, m.insert slot = .ok k ∧ k.capacity = m.capacity ∧ k.members = s ∪ {i}
  erase : ∀ slot : Argument, ∀ i < m.capacity, slot.IsNat i →
    ∃ k, m.erase slot = .ok k ∧ k.capacity = m.capacity ∧ k.members = s \ {i}
  refused : ∀ slot : Argument, (∀ i < m.capacity, ¬ slot.IsNat i) →
    ∃ f, f.report.kind = "RangeError" ∧ m.contains slot = .error f ∧
      m.insert slot = .error f ∧ m.erase slot = .error f
  indices_eq : m.indices = s.sort
  size_eq : m.size = s.card
  least?_eq_some : ∀ i, m.least? = some i ↔ IsLeast (s : Set ℕ) i
  least?_eq_none : m.least? = none ↔ m.isEmpty = true
  isEmpty_iff : m.isEmpty = true ↔ s = ∅

theorem represents_ofMask (hn : n ≤ maxSlots) (k : Mask n) :
    (ofMask k).Represents (ofMask k).members where
  value_nonneg := Int.natCast_nonneg _
  value_lt := by
    have hlt : (k.toNat : ℤ) < ((2 ^ n : ℕ) : ℤ) := Int.ofNat_lt.2 k.bits.isLt
    rwa [Nat.cast_pow] at hlt
  value_eq := value_eq_sum hn k
  contains _ i hi h := by
    rw [contains_of_isNat hn k ⟨i, hi⟩ h, decide_eq_decide.2 (mem_members hn k ⟨i, hi⟩).symm]
  insert _ _ hi h := exists_insert_of_isNat hn k hi h
  erase _ _ hi h := exists_erase_of_isNat hn k hi h
  refused _ h := refused_of_not_isNat hn h
  indices_eq := indices_eq_sort hn k
  size_eq := size_eq_card hn k
  least?_eq_some _ := least?_eq_some_iff hn k
  least?_eq_none := by
    rw [least?_ofMask hn, isEmpty_ofMask, Option.map_eq_none_iff, Mask.least?_eq_none_iff,
      Mask.isEmpty_iff]
  isEmpty_iff := by rw [isEmpty_ofMask, Mask.isEmpty_iff, members_eq_empty_iff hn]

/-- Masks are the finite sets of the slots below their capacities. Every mask
that is made, at any capacity up to 32, answers as the set of its members; masks
are subsets and equal as these sets are; and a new mask has the members that are
asked for, from a number exactly if that is a natural number without bits beyond
the capacity. -/
theorem masks_are_finite_sets :
    (∀ m k, IsMade m → IsMade k →
      (1 ≤ m.capacity ∧ m.capacity ≤ maxSlots) ∧ m.Represents m.members ∧
      (m.isSubsetOf k = true ↔ m.members ⊆ k.members) ∧
      (m.equals k = true ↔ m.capacity = k.capacity ∧ m.members = k.members)) ∧
    ∀ c, 1 ≤ c → c ≤ maxSlots → ∀ capacity : Argument, capacity.IsNat c →
      (∃ m, empty capacity = .ok m ∧ m.capacity = c ∧ m.members = ∅) ∧
      (∃ m, full capacity = .ok m ∧ m.capacity = c ∧ m.members = Finset.range c) ∧
      ∀ value : Argument,
        ((∃ m, ofNumber value capacity = .ok m) ↔ ∃ v < 2 ^ c, value.IsNat v) ∧
        ∀ m, ofNumber value capacity = .ok m →
          m.capacity = c ∧ ∃ v : ℕ, m.value = v ∧ value.IsNat v := by
  constructor
  · intro m k hm hk
    obtain ⟨n, hn, m, rfl⟩ := isMade_iff.1 hm
    obtain ⟨l, hl, k, rfl⟩ := isMade_iff.1 hk
    exact ⟨hn, represents_ofMask hn.2 m, isSubsetOf_iff hn.2 m hl.2 k, equals_iff hn.2 m hl.2 k⟩
  · intro c h1 hmax capacity h
    refine ⟨exists_empty_of_isNat ⟨h1, hmax⟩ h, exists_full_of_isNat ⟨h1, hmax⟩ h, fun value => ?_⟩
    exact ⟨exists_ofNumber_iff ⟨h1, hmax⟩ h, fun m => isNat_value_of_ofNumber ⟨h1, hmax⟩ h⟩

/-- The highest of 32 slots alone is the integer `2 ^ 31`. -/
theorem masks_are_finite_sets_topSlot :
    ∃ m k, empty (.number (Binary64.ofInt 32)) = .ok m ∧
      m.insert (.number (Binary64.ofInt 31)) = .ok k ∧ k.members = {31} ∧
      k.value = 2147483648 ∧ k.indices = [31] := by
  have h32 : Argument.IsNat (.number (Binary64.ofInt 32)) 32 :=
    Argument.isNat_ofInt (le_exactBound (Nat.le_refl 32))
  have h31 : Argument.IsNat (.number (Binary64.ofInt 31)) 31 :=
    Argument.isNat_ofInt (le_exactBound (Nat.le_succ 31))
  obtain ⟨⟨m, hm, hcap, hnone⟩, -, -⟩ :=
    masks_are_finite_sets.2 32 (by decide) (by decide) _ h32
  have hmade : IsMade m := .empty hm
  obtain ⟨-, hrep, -⟩ := masks_are_finite_sets.1 m m hmade hmade
  obtain ⟨k, hk, -, hmem⟩ := hrep.insert _ 31 (by rw [hcap]; decide) h31
  obtain ⟨-, hrep', -⟩ := masks_are_finite_sets.1 k k (.insert hmade hk) (.insert hmade hk)
  have hk31 : k.members = {31} := by rw [hmem, hnone, Finset.empty_union]
  refine ⟨m, k, hm, hk, hk31, ?_, ?_⟩
  · rw [hrep'.value_eq, hk31, Finset.sum_singleton]
    rfl
  · rw [hrep'.indices_eq, hk31, Finset.sort_singleton]

end SizedMask

end EpochClaims
