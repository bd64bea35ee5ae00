import EpochClaims.Mask.Checked
import EpochClaims.Proofs.Binary64.Natural
import EpochClaims.Proofs.Mask.Membership
import EpochClaims.Proofs.Sequence
import Mathlib.Algebra.Group.Int.Defs

/-!
# Masks of slots as words

Of a mask over at most 32 slots the number is an integer, and so the mask is one
of those that are addressed by numbers, `ofMask`. Each operation on words leads
from the masks of slots to where their own operation leads: the word of a mask
has the bits of its members and no others (`word`), whether the highest bit is
among them or not, and read without a sign it is the number of the mask
(`unsigned_eq_toNat`). What can be made by the operations on words are the masks
of slots and nothing else, `isMade_iff`.
-/

namespace EpochClaims

namespace Mask

variable {n : Nat}

/-- The word that has a bit for each member. -/
def word (k : Mask n) : BitVec Word.width := k.bits.setWidth Word.width

theorem ofInt_toNat (k : Mask n) : Word.ofInt k.toNat = k.word := by
  rw [Word.ofInt_natCast, toNat, BitVec.ofNat_toNat, word]

theorem word_erase (k : Mask n) (i : Fin n) :
    (k.erase i).word = k.word &&& ~~~ BitVec.twoPow Word.width i := by
  refine BitVec.eq_of_getLsbD_eq fun j hj => ?_
  rw [word, erase, word]
  -- Beyond the slots of the mask there are no bits to be cleared.
  by_cases hjn : j < n
  · simp [hj, hjn]
  · simp [BitVec.getLsbD_setWidth, BitVec.getLsbD_of_ge _ j (Nat.le_of_not_lt hjn)]

section

variable (hn : n ≤ Word.width)

include hn

theorem toNat_word (k : Mask n) : k.word.toNat = k.toNat := BitVec.toNat_setWidth_of_le hn

/-- Whatever has the word of a mask is the number of the mask, read without a sign. -/
theorem unsigned_eq_toNat {z : Int} {k : Mask n} (h : Word.ofInt z = k.word) :
    Word.unsigned z = k.toNat := by
  rw [Word.unsigned, h, toNat_word hn]

theorem word_insert (k : Mask n) (i : Fin n) :
    (k.insert i).word = k.word ||| BitVec.twoPow Word.width i := by
  have hi : i.val < Word.width := Nat.lt_of_lt_of_le i.isLt hn
  have hbit : (BitVec.twoPow n i).setWidth Word.width = BitVec.twoPow Word.width i := by
    refine BitVec.eq_of_getLsbD_eq fun j hj => ?_
    simp [BitVec.getLsbD_twoPow, hj, eq_comm]
  rw [word, insert, BitVec.setWidth_or, hbit, word]

theorem and_bit_word_eq_zero_iff (k : Mask n) (i : Fin n) :
    k.word &&& BitVec.twoPow Word.width i = BitVec.ofNat Word.width 0 ↔ i ∉ k := by
  have hi : i.val < Word.width := Nat.lt_of_lt_of_le i.isLt hn
  have hbit : k.word.getLsbD i = decide (i ∈ k) := by
    rw [← testBit_toNat_val, ← toNat_word hn, BitVec.testBit_toNat]
  have hne : BitVec.twoPow Word.width i ≠ BitVec.ofNat Word.width 0 := by
    intro h
    have hset := congrArg (fun w : BitVec Word.width => w.getLsbD i) h
    simp [hi] at hset
  rw [BitVec.and_twoPow, hbit]
  by_cases h : i ∈ k <;> simp [h, hne]

end

/-- A mask lies inside another one if its word has no bit that the other has not. -/
theorem and_not_word_eq_zero_iff {l : Nat} (hn : n ≤ Word.width) (hl : l ≤ Word.width)
    (k : Mask n) (other : Mask l) :
    k.word &&& ~~~ other.word = BitVec.ofNat Word.width 0 ↔ k.isSubsetOf other = true := by
  rw [isSubsetOf_iff_exists]
  simp only [← testBit_toNat, ← toNat_word hl, BitVec.testBit_toNat]
  constructor
  · intro h i hi
    have hlt : i.val < Word.width := Nat.lt_of_lt_of_le i.isLt hn
    have hbit : k.word.getLsbD i = true := by
      rw [← BitVec.testBit_toNat, toNat_word hn, testBit_toNat_val, decide_eq_true hi]
    have hand := congrArg (fun w : BitVec Word.width => w.getLsbD i) h
    simpa [hbit, hlt] using hand
  · intro h
    refine BitVec.eq_of_getLsbD_eq fun j hj => ?_
    rw [BitVec.getLsbD_and, BitVec.getLsbD_not, decide_eq_true hj, Bool.true_and,
      BitVec.getLsbD_zero]
    cases hbit : k.word.getLsbD j with
    | false => rfl
    | true =>
        rw [← BitVec.testBit_toNat, toNat_word hn] at hbit
        obtain ⟨i, rfl, hi⟩ := testBit_toNat.1 hbit
        rw [h i hi]
        rfl

end Mask

namespace SizedMask

/-- A mask of slots as an integer. -/
def ofMask {n : Nat} (k : Mask n) : SizedMask := ⟨k.toNat, n⟩

variable {n : Nat} {slot capacity value : Argument} {i : Nat}

theorem ofInt_bit (hi : i < Word.width) : Word.ofInt (bit i) = BitVec.twoPow Word.width i := by
  have hplaces : (Word.ofInt i).toNat % Word.width = i := by
    rw [Word.ofInt_natCast, BitVec.toNat_ofNat, Nat.mod_mod_of_dvd _ (by decide),
      Nat.mod_eq_of_lt hi]
  rw [bit, Word.ofInt_unsigned, Word.shiftLeft, hplaces, BitVec.twoPow_eq]
  exact BitVec.ofInt_toInt

theorem bit_eq (hi : i < Word.width) : bit i = 2 ^ i := by
  have hpow : 2 ^ i < 2 ^ Word.width := Nat.pow_lt_pow_right (by decide) hi
  rw [bit, Word.unsigned, ← Word.ofInt_unsigned, ← bit, ofInt_bit hi, BitVec.toNat_twoPow,
    Nat.mod_eq_of_lt hpow, Int.natCast_pow]
  rfl

/-- The value with all bits is that of the mask of all slots, at 32 slots as well. -/
theorem fullValue_eq (hn : n ≤ maxSlots) : fullValue n = (Mask.full : Mask n).toNat := by
  rw [fullValue, Mask.toNat, Mask.full, BitVec.toNat_allOnes]
  split
  · next h =>
    subst h
    rfl
  · next h =>
    have hlt : n < Word.width := Nat.lt_of_le_of_ne hn h
    have hpow : 2 ^ n < 2 ^ Word.width := Nat.pow_lt_pow_right (by decide) hlt
    have hvalue : bit n - 1 = ((2 ^ n - 1 : Nat) : Int) := by
      rw [bit_eq hlt, Int.natCast_sub Nat.one_le_two_pow, Int.natCast_pow]
      rfl
    rw [hvalue, Word.unsigned, Word.ofInt_natCast, BitVec.toNat_ofNat,
      Nat.mod_eq_of_lt (Nat.lt_of_le_of_lt (Nat.sub_le _ _) hpow)]

/-! ### The operations -/

section

variable (hn : n ≤ maxSlots)

include hn

theorem insert_ofMask (k : Mask n) (i : Fin n) (h : readSlot n slot = .ok i) :
    (ofMask k).insert slot = .ok (ofMask (k.insert i)) := by
  have hword : Word.ofInt (Word.or k.toNat (bit i)) = (k.insert i).word := by
    rw [Word.ofInt_or, k.ofInt_toNat, ofInt_bit (Nat.lt_of_lt_of_le i.isLt hn),
      Mask.word_insert hn]
  rw [insert, ofMask, h]
  exact congrArg (fun v => Except.ok (SizedMask.mk v n)) (Mask.unsigned_eq_toNat hn hword)

theorem erase_ofMask (k : Mask n) (i : Fin n) (h : readSlot n slot = .ok i) :
    (ofMask k).erase slot = .ok (ofMask (k.erase i)) := by
  have hword : Word.ofInt (Word.and k.toNat (Word.not (bit i))) = (k.erase i).word := by
    rw [Word.ofInt_and, Word.ofInt_not, k.ofInt_toNat, ofInt_bit (Nat.lt_of_lt_of_le i.isLt hn),
      Mask.word_erase]
  rw [erase, ofMask, h]
  exact congrArg (fun v => Except.ok (SizedMask.mk v n)) (Mask.unsigned_eq_toNat hn hword)

theorem holds_ofMask (k : Mask n) (i : Fin n) : (ofMask k).holds i = decide (i ∈ k) := by
  have hzero : Word.and (k.toNat : Int) (bit i) = 0 ↔ i ∉ k := by
    rw [Word.and_eq_zero_iff, k.ofInt_toNat, ofInt_bit (Nat.lt_of_lt_of_le i.isLt hn),
      Mask.and_bit_word_eq_zero_iff hn]
  rw [holds, ofMask, bne, Bool.eq_iff_iff, Bool.not_eq_true', beq_eq_false_iff_ne, ne_eq, hzero,
    not_not, decide_eq_true_iff]

theorem indices_ofMask (k : Mask n) : (ofMask k).indices = k.toList.map Fin.val := by
  have hholds : (ofMask k).holds ∘ Fin.val = fun i : Fin n => decide (i ∈ k) :=
    funext (holds_ofMask hn k)
  change (List.range n).filter (ofMask k).holds = _
  rw [← List.map_coe_finRange_eq_range, List.filter_map, hholds, Mask.toList]

theorem size_ofMask (k : Mask n) : (ofMask k).size = k.size := by
  rw [size, indices_ofMask hn, List.length_map, Mask.size]

theorem least?_ofMask (k : Mask n) : (ofMask k).least? = k.least?.map Fin.val := by
  have hholds : (ofMask k).holds ∘ Fin.val = fun i : Fin n => decide (i ∈ k) :=
    funext (holds_ofMask hn k)
  change (List.range n).find? (ofMask k).holds = _
  rw [← List.map_coe_finRange_eq_range, List.find?_map, hholds, Mask.least?]

theorem isSubsetOf_ofMask {l : Nat} (hl : l ≤ maxSlots) (k : Mask n) (other : Mask l) :
    (ofMask k).isSubsetOf (ofMask other) = k.isSubsetOf other := by
  rw [isSubsetOf, Bool.eq_iff_iff, beq_iff_eq, Word.unsigned_eq_zero_iff, Word.ofInt_and,
    Word.ofInt_not, ofMask, ofMask, k.ofInt_toNat, other.ofInt_toNat,
    Mask.and_not_word_eq_zero_iff hn hl]

end

theorem isEmpty_ofMask (k : Mask n) : (ofMask k).isEmpty = k.isEmpty := by
  rw [isEmpty, ofMask, Mask.isEmpty, Bool.eq_iff_iff, beq_iff_eq, beq_iff_eq, Int.natCast_eq_zero,
    Mask.toNat, ← BitVec.toNat_inj, BitVec.toNat_ofNat, Nat.zero_mod]

theorem equals_ofMask {l : Nat} (k : Mask n) (other : Mask l) :
    (ofMask k).equals (ofMask other) = true ↔ n = l ∧ k.toNat = other.toNat := by
  rw [equals, Bool.and_eq_true, beq_iff_eq, beq_iff_eq, ofMask, ofMask, Int.natCast_inj]

theorem digits_ofMask (k : Mask n) : (ofMask k).digits = k.digits := by
  have hsign : ¬ (k.toNat : Int) < 0 := Int.not_lt.2 (Int.natCast_nonneg _)
  rw [digits, ofMask, decide_eq_false hsign, Int.natAbs_natCast, Mask.digits]
  rfl

theorem text_ofMask (k : Mask n) : (ofMask k).text = k.text := by
  rw [text, digits_ofMask, Mask.text, Mask.chars]

/-! ### What the arguments stand for -/

theorem readCapacity_eq_ok_iff :
    readCapacity capacity = .ok n ↔ capacity.toNat? = some n ∧ 1 ≤ n ∧ n ≤ maxSlots := by
  rw [readCapacity]
  cases capacity.toNat? with
  | none => simp
  | some c =>
      by_cases hc : 1 ≤ c ∧ c ≤ maxSlots
      · simp only [if_pos hc, Except.ok.injEq, Option.some.injEq]
        exact ⟨fun h => ⟨h, h ▸ hc⟩, fun h => h.1⟩
      · simp only [if_neg hc, reduceCtorEq, Option.some.injEq, false_iff]
        rintro ⟨rfl, h⟩
        exact hc h

theorem readSlot_eq_ok_iff : readSlot n slot = .ok i ↔ slot.toNat? = some i ∧ i < n := by
  rw [readSlot]
  cases slot.toNat? with
  | none => simp
  | some j =>
      by_cases hj : j < n
      · simp only [if_pos hj, Except.ok.injEq, Option.some.injEq]
        exact ⟨fun h => ⟨h, h ▸ hj⟩, fun h => h.1⟩
      · simp only [if_neg hj, reduceCtorEq, Option.some.injEq, false_iff]
        rintro ⟨rfl, h⟩
        exact hj h

theorem readSlot_of_ne (h : ∀ i < n, slot.toNat? ≠ some i) :
    readSlot n slot = .error (.slot slot n) := by
  rw [readSlot]
  cases hslot : slot.toNat? with
  | none => rfl
  | some i =>
      have hi : ¬ i < n := fun hi => h i hi hslot
      simp [hi]

/-! ### The masks that are made -/

/-- A mask that is made by the operations on masks. -/
inductive IsMade : SizedMask → Prop
  | empty {m capacity} : SizedMask.empty capacity = .ok m → IsMade m
  | full {m capacity} : SizedMask.full capacity = .ok m → IsMade m
  | ofNumber {m value capacity} : SizedMask.ofNumber value capacity = .ok m → IsMade m
  | insert {m k slot} : IsMade m → m.insert slot = .ok k → IsMade k
  | erase {m k slot} : IsMade m → m.erase slot = .ok k → IsMade k

theorem empty_of_readCapacity (h : readCapacity capacity = .ok n) :
    empty capacity = .ok (ofMask (Mask.empty : Mask n)) := by
  have hzero : (Mask.empty : Mask n).toNat = 0 := BitVec.toNat_zero
  rw [empty, h, ofMask, hzero]
  rfl

theorem full_of_readCapacity (h : readCapacity capacity = .ok n) :
    full capacity = .ok (ofMask (Mask.full : Mask n)) := by
  rw [full, h, ofMask, ← fullValue_eq (readCapacity_eq_ok_iff.1 h).2.2]
  rfl

/-- The test for bits beyond the capacity finds the integers that are too great. -/
theorem isSubsetOf_full_iff (hn : n ≤ maxSlots) {v : Nat} (hv : v < 2 ^ Word.width) (c : Nat) :
    (SizedMask.mk v c).isSubsetOf ⟨fullValue n, n⟩ = true ↔ v < 2 ^ n := by
  -- The test asks for the values alone, so the integer is taken for the number of
  -- a mask with a slot for each bit of a word.
  let k : Mask Word.width := ⟨BitVec.ofNatLT v hv⟩
  have hnumber : k.toNat = v := BitVec.toNat_ofNatLT v hv
  have htest : (SizedMask.mk k.toNat c).isSubsetOf ⟨(Mask.full : Mask n).toNat, n⟩ =
      k.isSubsetOf (Mask.full : Mask n) := isSubsetOf_ofMask (Nat.le_refl maxSlots) hn k Mask.full
  rw [fullValue_eq hn, ← hnumber, htest, Mask.isSubsetOf_full_iff]

/-- A mask is made of the values that are the number of a mask. -/
theorem ofNumber_of_readCapacity (h : readCapacity capacity = .ok n) {m : SizedMask} :
    ofNumber value capacity = .ok m ↔
      ∃ k : Mask n, value.toNat? = some k.toNat ∧ m = ofMask k := by
  have hn := (readCapacity_eq_ok_iff.1 h).2.2
  have hbound (k : Mask n) : k.toNat < 2 ^ Word.width :=
    Nat.lt_of_lt_of_le k.bits.isLt (Nat.pow_le_pow_right (by decide) hn)
  simp only [Argument.toNat?_eq_some_iff_toInt?]
  rw [ofNumber, h]
  simp only [pure, Except.pure, bind, Except.bind, throw, throwThe, MonadExceptOf.throw]
  cases value.number?.bind Binary64.toInt? with
  | none => simp
  | some z =>
      simp only [Option.some.injEq]
      split
      · next hz =>
          refine iff_of_false (by simp) ?_
          rintro ⟨k, rfl, -⟩
          have hk := hbound k
          rw [greatestValue] at hz
          rw [Word.width] at hk
          omega
      · next hz =>
          rw [greatestValue] at hz
          obtain ⟨v, rfl⟩ : ∃ v : Nat, z = v := Int.eq_ofNat_of_zero_le (by omega)
          have hv : v < 2 ^ Word.width := by
            rw [Word.width]
            omega
          have hunsigned : Word.unsigned v = v := by
            rw [Word.unsigned, Word.ofInt_natCast, BitVec.toNat_ofNat, Nat.mod_eq_of_lt hv]
          rw [hunsigned]
          split
          · next hsub =>
              have hlt := (isSubsetOf_full_iff hn hv n).1 hsub
              have hk : (⟨BitVec.ofNatLT v hlt⟩ : Mask n).toNat = v := BitVec.toNat_ofNatLT v hlt
              constructor
              · intro hm
                refine ⟨⟨BitVec.ofNatLT v hlt⟩, by rw [hk], ?_⟩
                rw [ofMask, hk]
                exact (Except.ok.inj hm).symm
              · rintro ⟨k, hvk, rfl⟩
                rw [ofMask, hvk]
          · next hsub =>
              refine iff_of_false (by simp) ?_
              rintro ⟨k, hvk, -⟩
              exact hsub ((isSubsetOf_full_iff hn hv n).2 (Int.ofNat.inj hvk ▸ k.bits.isLt))

/-- The masks of slots are all that is made by the operations on words. -/
theorem isMade_iff {m : SizedMask} :
    m.IsMade ↔ ∃ n, (1 ≤ n ∧ n ≤ maxSlots) ∧ ∃ k : Mask n, m = ofMask k := by
  constructor
  · intro hm
    induction hm with
    | empty h =>
        obtain ⟨n, hread, -⟩ := bind_eq_ok_iff.1 h
        rw [empty_of_readCapacity hread] at h
        exact ⟨n, (readCapacity_eq_ok_iff.1 hread).2, _, (Except.ok.inj h).symm⟩
    | full h =>
        obtain ⟨n, hread, -⟩ := bind_eq_ok_iff.1 h
        rw [full_of_readCapacity hread] at h
        exact ⟨n, (readCapacity_eq_ok_iff.1 hread).2, _, (Except.ok.inj h).symm⟩
    | ofNumber h =>
        obtain ⟨n, hread, -⟩ := bind_eq_ok_iff.1 h
        obtain ⟨k, -, rfl⟩ := (ofNumber_of_readCapacity hread).1 h
        exact ⟨n, (readCapacity_eq_ok_iff.1 hread).2, k, rfl⟩
    | insert _ h ih =>
        obtain ⟨n, hn, k, rfl⟩ := ih
        obtain ⟨i, hread, -⟩ := bind_eq_ok_iff.1 h
        have hi : i < n := (readSlot_eq_ok_iff.1 hread).2
        rw [insert_ofMask hn.2 k ⟨i, hi⟩ hread] at h
        exact ⟨n, hn, _, (Except.ok.inj h).symm⟩
    | erase _ h ih =>
        obtain ⟨n, hn, k, rfl⟩ := ih
        obtain ⟨i, hread, -⟩ := bind_eq_ok_iff.1 h
        have hi : i < n := (readSlot_eq_ok_iff.1 hread).2
        rw [erase_ofMask hn.2 k ⟨i, hi⟩ hread] at h
        exact ⟨n, hn, _, (Except.ok.inj h).symm⟩
  · rintro ⟨n, hn, k, rfl⟩
    -- A mask of slots is made of its number.
    have hnat : n ≤ Binary64.exactBound := Nat.le_trans hn.2 (by decide)
    have hvalue : k.toNat ≤ Binary64.exactBound :=
      Nat.le_trans (Nat.le_of_lt k.bits.isLt)
        (Nat.le_trans (Nat.pow_le_pow_right (by decide) hn.2) (by decide))
    have hread := readCapacity_eq_ok_iff.2
      ⟨(Argument.toNat?_eq_some_iff hnat).2 (Argument.isNat_ofInt hnat), hn⟩
    exact .ofNumber ((ofNumber_of_readCapacity hread).2
      ⟨k, (Argument.toNat?_eq_some_iff hvalue).2 (Argument.isNat_ofInt hvalue), rfl⟩)

end SizedMask

end EpochClaims
