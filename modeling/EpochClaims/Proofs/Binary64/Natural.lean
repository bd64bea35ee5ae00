import EpochClaims.Argument.Basic
import EpochClaims.Binary64.Rounding

/-!
# Natural numbers among the numbers

Slots, capacities and codes are natural numbers that reach the library as
floating-point numbers. Up to `exactBound` the one that `toNat?` reads is the
one whose number is the same: `toNat?_eq_some_iff`. Both zeros are the natural
number zero.
-/

namespace EpochClaims

namespace Binary64

theorem signed_mul (negative : Bool) (m k : Nat) :
    signed negative (m * k) = signed negative m * k := by
  cases negative with
  | false => exact Int.natCast_mul m k
  | true => exact (congrArg Neg.neg (Int.natCast_mul m k)).trans (Int.neg_mul _ _).symm

theorem natAbs_signed (negative : Bool) (m : Nat) : (signed negative m).natAbs = m := by
  cases negative <;> simp [signed]

theorem toInt?_eq_some_iff {x : Binary64} {z : Int} (hz : z.natAbs ≤ exactBound) :
    x.toInt? = some z ↔ x.sameNumber (ofInt z) = true := by
  have hunit : (unit : Int) ≠ 0 := Int.ne_of_gt (Int.natCast_pos.2 unit_pos)
  rw [ofInt_eq_finite hz]
  cases x with
  | nan => simp [toInt?]
  | infinity s => simp [toInt?, sameNumber]
  | finite s m =>
      rw [sameNumber, signed_natAbs, beq_iff_eq, toInt?]
      constructor
      · intro h
        split at h
        · next hmod =>
            have hm : m / unit * unit = m := Nat.div_mul_cancel (Nat.dvd_of_mod_eq_zero hmod)
            rw [← hm, signed_mul, Option.some.inj h]
        · contradiction
      · intro h
        have hm : m = z.natAbs * unit := by
          rw [← natAbs_signed s m, h, Int.natAbs_mul, Int.natAbs_natCast]
        rw [hm, signed_mul] at h
        rw [hm, if_pos (Nat.mul_mod_left _ _), Nat.mul_div_cancel _ unit_pos,
          Int.eq_of_mul_eq_mul_right hunit h]

theorem toNat?_eq_some_iff_toInt? {x : Binary64} {k : Nat} :
    x.toNat? = some k ↔ x.toInt? = some (k : Int) := by
  rw [toNat?]
  cases x.toInt? with
  | none => simp
  | some z =>
      cases z with
      | ofNat n =>
          constructor
          · intro h
            rw [Option.some.inj h]
            rfl
          · intro h
            rw [Int.ofNat.inj (Option.some.inj h)]
      | negSucc n => simp

/-- A natural number up to `exactBound` is read from the numbers that are the
same as its own. -/
theorem toNat?_eq_some_iff {x : Binary64} {k : Nat} (hk : k ≤ exactBound) :
    x.toNat? = some k ↔ x.sameNumber (ofInt k) = true := by
  rw [toNat?_eq_some_iff_toInt?]
  exact toInt?_eq_some_iff hk

end Binary64

namespace Argument

/-- The value is the number of a natural number. -/
def IsNat (v : Argument) (k : Nat) : Prop :=
  v.same (.number (Binary64.ofInt k)) = true

theorem toNat?_eq_some_iff_toInt? {v : Argument} {k : Nat} :
    v.toNat? = some k ↔ v.number?.bind Binary64.toInt? = some (k : Int) := by
  simp only [toNat?, Option.bind_eq_some_iff, Binary64.toNat?_eq_some_iff_toInt?]

theorem toNat?_eq_some_iff {v : Argument} {k : Nat} (hk : k ≤ Binary64.exactBound) :
    v.toNat? = some k ↔ v.IsNat k := by
  rw [IsNat, toNat?, Option.bind_eq_some_iff]
  constructor
  · rintro ⟨x, hx, hk'⟩
    cases v with
    | missing => contradiction
    | given d =>
        cases d with
        | number y =>
            cases hx
            exact (Binary64.toNat?_eq_some_iff hk).1 hk'
        | _ => contradiction
  · intro h
    cases v with
    | missing => contradiction
    | given d =>
        cases d with
        | number x => exact ⟨x, rfl, (Binary64.toNat?_eq_some_iff hk).2 h⟩
        | list items => contradiction
        | object fields => contradiction
        | _ => simp [same] at h

theorem isNat_ofInt {k : Nat} (hk : k ≤ Binary64.exactBound) :
    (number (Binary64.ofInt k)).IsNat k := by
  simp [IsNat, Binary64.sameNumber_ofInt, hk]

end Argument

end EpochClaims
