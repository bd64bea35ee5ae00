import EpochClaims.Proofs.Mask.Sets

/-!
# Masks in binary

The text of a mask is the marker `0b` and the number of the mask in base two,
with zeros in front. The number has no bit beyond the slots, so the padding gives
exactly one digit for each slot: `getElem?_reverse_digits`. Text and mask tell the
same: slots, members and number are read off the digits, and masks of one text are
equal, `text_is_faithful`.
-/

namespace EpochClaims

/-! ### Numerals -/

/-- The digits of a numeral, the last one first, with zeros in front of it. -/
theorem getD_reverse_toDigits {base : Nat} (hbase : 1 < base) (v i : Nat) :
    (Nat.toDigits base v).reverse[i]?.getD '0' = (v / base ^ i % base).digitChar := by
  induction i generalizing v with
  | zero =>
      rw [Nat.toDigits_eq_if hbase, Nat.pow_zero, Nat.div_one]
      split
      · next hv => rw [Nat.mod_eq_of_lt hv]; rfl
      · rw [List.reverse_concat]; rfl
  | succ i ih =>
      rw [Nat.toDigits_eq_if hbase]
      split
      · next hv =>
          have hpow : base ≤ base ^ (i + 1) := Nat.le_self_pow (Nat.succ_ne_zero i) base
          rw [Nat.div_eq_of_lt (Nat.lt_of_lt_of_le hv hpow), Nat.zero_mod]
          rfl
      · rw [List.reverse_concat, List.getElem?_cons_succ, ih, Nat.div_div_eq_div_mul,
          ← Nat.pow_succ']

/-- Padding in front changes only where a row ends. -/
theorem getD_reverse_leftpad {α : Type} (n : Nat) (a : α) (l : List α) (i : Nat) :
    (l.leftpad n a).reverse[i]?.getD a = l.reverse[i]?.getD a := by
  rw [List.leftpad, List.reverse_append, List.reverse_replicate, List.getElem?_append]
  split
  · rfl
  · next hi =>
      rw [List.getElem?_eq_none (Nat.le_of_not_lt hi), List.getElem?_replicate]
      split <;> rfl

namespace Mask

variable {n k : Nat}

/-! ### The digits of a mask -/

theorem length_digits (hn : 0 < n) (m : Mask n) : m.digits.length = n := by
  have hlength : (Nat.toDigits 2 m.toNat).length ≤ n :=
    (Nat.length_toDigits_le_iff (by decide) hn).2 m.bits.isLt
  rw [digits, List.length_leftpad, Nat.max_eq_left hlength]

/-- A slot has its digit as far from the end as it is from the first slot. -/
theorem getElem?_reverse_digits (m : Mask n) (i : Fin n) :
    m.digits.reverse[i.val]? = some (if i ∈ m then '1' else '0') := by
  have hlt : i.val < m.digits.reverse.length := by
    rw [List.length_reverse, length_digits (Fin.pos i)]
    exact i.isLt
  have hdigit : m.digits.reverse[i.val]?.getD '0' = (decide (i ∈ m)).toNat.digitChar := by
    rw [digits, getD_reverse_leftpad, getD_reverse_toDigits (by decide), ← Nat.toNat_testBit,
      testBit_toNat_val]
  rw [List.getElem?_eq_getElem hlt, Option.getD_some] at hdigit
  rw [List.getElem?_eq_getElem hlt, hdigit]
  by_cases hi : i ∈ m
  · rw [if_pos hi, decide_eq_true hi]; rfl
  · rw [if_neg hi, decide_eq_false hi]; rfl

example : (⟨0b0110#4⟩ : Mask 4).digits = ['0', '1', '1', '0'] := by decide

theorem getElem?_reverse_digits_eq_one_iff (m : Mask n) (i : Fin n) :
    m.digits.reverse[i.val]? = some '1' ↔ i ∈ m := by
  rw [getElem?_reverse_digits, Option.some.injEq]
  split
  · next hi => exact iff_of_true rfl hi
  · next hi => exact iff_of_false (by decide) hi

theorem eq_zero_or_eq_one_of_mem_digits (hn : 0 < n) {m : Mask n} {d : Char}
    (hd : d ∈ m.digits) : d = '0' ∨ d = '1' := by
  obtain ⟨i, hi, rfl⟩ := List.getElem_of_mem (List.mem_reverse.2 hd)
  have hlt : i < n := by rwa [List.length_reverse, length_digits hn] at hi
  have hdigit := m.getElem?_reverse_digits ⟨i, hlt⟩
  rw [List.getElem?_eq_getElem hi, Option.some.injEq] at hdigit
  rw [hdigit]
  split
  · exact Or.inr rfl
  · exact Or.inl rfl

/-- The digits of a mask read as its number. -/
theorem ofDigitChars_digits (m : Mask n) : Nat.ofDigitChars 2 m.digits 0 = m.toNat := by
  rw [digits, List.leftpad, Nat.ofDigitChars_append, Nat.ofDigitChars_replicate_zero, Nat.mul_zero,
    Nat.ofDigitChars_toDigits (by decide) (by decide)]

theorem text_eq_append (m : Mask n) : m.text = "0b" ++ String.ofList m.digits :=
  @String.ofList_append ['0', 'b'] m.digits

/-- Masks of one text have the same number of slots and are the same number. -/
theorem text_eq_text_iff (hn : 0 < n) (hk : 0 < k) {m : Mask n} {other : Mask k} :
    m.text = other.text ↔ n = k ∧ m.toNat = other.toNat := by
  constructor
  · intro h
    have hchars : m.chars = other.chars := String.ofList_inj.1 h
    have hdigits : m.digits = other.digits := congrArg (List.drop 2) hchars
    constructor
    · rw [← length_digits hn m, hdigits, length_digits hk]
    · rw [← ofDigitChars_digits m, hdigits, ofDigitChars_digits]
  · rintro ⟨rfl, hnumber⟩
    rw [text, text, chars, chars, digits, digits, hnumber]

end Mask

namespace SizedMask

/-- A row of binary digits that shows a mask: there is one for each slot, the first
slot comes last, and read in base two they are the integer of the mask. -/
structure SpelledBy (m : SizedMask) (digits : List Char) : Prop where
  length_eq : digits.length = m.capacity
  binary : ∀ d ∈ digits, d = '0' ∨ d = '1'
  contains : ∀ slot : Argument, ∀ i < m.capacity, slot.IsNat i →
    m.contains slot = .ok (decide (digits.reverse[i]? = some '1'))
  ofDigitChars_eq : (Nat.ofDigitChars 2 digits 0 : ℤ) = m.value

theorem spelledBy_digits {n : ℕ} (hn : 1 ≤ n ∧ n ≤ maxSlots) (k : Mask n) :
    (ofMask k).SpelledBy k.digits where
  length_eq := Mask.length_digits hn.1 k
  binary _ hd := Mask.eq_zero_or_eq_one_of_mem_digits hn.1 hd
  contains slot i hi h := by
    have hone : k.digits.reverse[i]? = some '1' ↔ (⟨i, hi⟩ : Fin n) ∈ k :=
      k.getElem?_reverse_digits_eq_one_iff ⟨i, hi⟩
    rw [contains_of_isNat hn.2 k ⟨i, hi⟩ h, decide_eq_decide.2 hone]
  ofDigitChars_eq := congrArg Nat.cast (Mask.ofDigitChars_digits k)

/-- The text of a mask is faithful. Every mask that is made, at any capacity up to
32, is written as the marker and a digit for each slot that tells whether the slot
is a member; the digits read as the integer of the mask; and two masks have one
text exactly if they are equal. -/
theorem text_is_faithful :
    ∀ m k, IsMade m → IsMade k →
      (∃ digits, m.text = "0b" ++ String.ofList digits ∧ m.SpelledBy digits) ∧
      (m.text = k.text ↔ m.equals k = true) := by
  intro m k hm hk
  obtain ⟨n, hn, m, rfl⟩ := isMade_iff.1 hm
  obtain ⟨l, hl, k, rfl⟩ := isMade_iff.1 hk
  refine ⟨⟨m.digits, ?_, spelledBy_digits hn m⟩, ?_⟩
  · rw [text_ofMask, Mask.text_eq_append]
  · rw [text_ofMask, text_ofMask, Mask.text_eq_text_iff hn.1 hl.1, equals_ofMask]

/-- All 32 slots but the highest one: there are 32 digits, the first one is not `1`
and the others spell `2 ^ 31 - 1`. -/
theorem text_is_faithful_topSlot :
    ∃ m k digits, full (.number (Binary64.ofInt 32)) = .ok m ∧
      m.erase (.number (Binary64.ofInt 31)) = .ok k ∧
      k.text = "0b" ++ String.ofList digits ∧ digits.length = 32 ∧
      digits.reverse[31]? ≠ some '1' ∧ (Nat.ofDigitChars 2 digits 0 : ℤ) = 2147483647 ∧
      k.text ≠ m.text := by
  have h32 : Argument.IsNat (.number (Binary64.ofInt 32)) 32 :=
    Argument.isNat_ofInt (le_exactBound (Nat.le_refl 32))
  have h31 : Argument.IsNat (.number (Binary64.ofInt 31)) 31 :=
    Argument.isNat_ofInt (le_exactBound (Nat.le_succ 31))
  have hread : readCapacity (.number (Binary64.ofInt 32)) = .ok 32 :=
    readCapacity_of_isNat (by decide) h32
  have hslot : readSlot 32 (.number (Binary64.ofInt 31)) = .ok (31 : Fin 32) :=
    readSlot_of_isNat (Nat.le_refl 32) (31 : Fin 32) h31
  have hm := full_of_readCapacity hread
  have hk := erase_ofMask (Nat.le_refl 32) Mask.full (31 : Fin 32) hslot
  have hmade : IsMade (ofMask ((Mask.full : Mask 32).erase 31)) := .erase (.full hm) hk
  obtain ⟨⟨digits, htext, hspelled⟩, hsame⟩ := text_is_faithful _ _ hmade (.full hm)
  have htop := hspelled.contains _ 31 (by decide) h31
  rw [contains_of_isNat (Nat.le_refl 32) _ (31 : Fin 32) h31, Except.ok.injEq,
    decide_eq_decide] at htop
  refine ⟨_, _, digits, hm, hk, htext, hspelled.length_eq, fun hone => ?_,
    hspelled.ofDigitChars_eq, fun h => ?_⟩
  · exact (Mask.mem_erase.1 (htop.2 hone)).1 rfl
  · have hvalue := (equals_ofMask _ _).1 (hsame.1 h)
    exact absurd hvalue.2 (by decide)

end SizedMask

end EpochClaims
