import EpochClaims.Binary64.Basic

/-!
# Rounding to a floating-point number

`ofRatio` is the nearest number to a quotient of steps: a number holds at most
53 significant bits, so a quotient of `2 ^ 53` steps or more is first measured
in larger steps, and a quotient half way between two goes to the even one.
From `2 ^ reach` up the result is infinite.

An integer of at most `2 ^ 53` in size is held exactly: `ofInt_eq_finite` gives
its count of steps and `succ_ofInt` adds one to it.
-/

namespace EpochClaims

namespace Binary64

/-- A quotient rounded to an integer, a half to the even neighbour. -/
def roundHalfEven (num den : Nat) : Nat :=
  let q := num / den
  let r := num % den
  if 2 * r < den then q else if den < 2 * r then q + 1 else q + q % 2

/-- The power of two by which the steps of a result of `steps` steps are
larger than the least step. -/
def coarseness (steps : Nat) : Nat :=
  steps.log2 - 52

/-- The power of two at which numbers end. -/
@[irreducible] def reach : Nat := 1024

theorem reach_eq : reach = 1024 := by
  rw [reach]

/-- The least number of steps that is out of reach. -/
@[irreducible] def limit : Nat := Nat.pow 2 reach * unit

/-- The number nearest to a quotient of steps. -/
def ofRatio (negative : Bool) (num den : Nat) : Binary64 :=
  let grid := Nat.pow 2 (coarseness (num / den))
  let steps := roundHalfEven num (den * grid) * grid
  if steps < limit then finite negative steps else infinity negative

/-- The number nearest to an integer. -/
def ofInt (z : Int) : Binary64 :=
  ofRatio (decide (z < 0)) (z.natAbs * unit) 1

/-- The number nearest to `mantissa * 10 ^ -places`. -/
def ofDecimal (mantissa : Int) (places : Nat) : Binary64 :=
  ofRatio (decide (mantissa < 0)) (mantissa.natAbs * unit) (Nat.pow 10 places)

/-- The number after adding one. -/
def succ : Binary64 → Binary64
  | finite s m =>
    let sum := signed s m + (unit : Int)
    ofRatio (decide (sum < 0)) sum.natAbs 1
  | x => x

/-- An exact quotient is kept. -/
theorem roundHalfEven_of_dvd {num den : Nat} (hden : 0 < den) (h : den ∣ num) :
    roundHalfEven num den = num / den := by
  simp [roundHalfEven, Nat.mod_eq_zero_of_dvd h, hden]

/-- A count of steps on the grid of its own size is kept. -/
theorem ofRatio_one {negative : Bool} {steps : Nat}
    (hgrid : Nat.pow 2 (coarseness steps) ∣ steps) (htop : steps < limit) :
    ofRatio negative steps 1 = finite negative steps := by
  have hpos : 0 < Nat.pow 2 (coarseness steps) := Nat.two_pow_pos _
  simp only [ofRatio, Nat.div_one, Nat.one_mul, roundHalfEven_of_dvd hpos hgrid,
    Nat.div_mul_cancel hgrid, if_pos htop]

/-- A natural number of at most 53 bits lies on the grid of its size, measured in
any power of two, and so does the least one above them. -/
theorem grid_dvd_mul_two_pow {n : Nat} (h : n ≤ exactBound) (c : Nat) :
    Nat.pow 2 (coarseness (n * Nat.pow 2 c)) ∣ n * Nat.pow 2 c := by
  by_cases hzero : n = 0
  · subst hzero
    simp
  by_cases htop : n = exactBound
  · have hpow : n * Nat.pow 2 c = Nat.pow 2 (53 + c) := by
      rw [htop]
      exact (Nat.pow_add 2 53 c).symm
    have hlog : (Nat.pow 2 (53 + c)).log2 = 53 + c := Nat.log2_two_pow
    rw [hpow, coarseness, hlog]
    exact Nat.pow_dvd_pow 2 (Nat.sub_le ..)
  · have hlt : n < exactBound := Nat.lt_of_le_of_ne h htop
    have hne : n * Nat.pow 2 c ≠ 0 := Nat.mul_ne_zero hzero (Nat.ne_of_gt (Nat.two_pow_pos c))
    have hsteps : n * Nat.pow 2 c < 2 ^ (53 + c) := by
      rw [Nat.pow_add]
      exact Nat.mul_lt_mul_of_pos_right hlt (Nat.two_pow_pos c)
    have hlog : (n * Nat.pow 2 c).log2 < 53 + c := (Nat.log2_lt hne).2 hsteps
    have hle : coarseness (n * Nat.pow 2 c) ≤ c := by
      rw [coarseness]
      omega
    exact Nat.dvd_trans (Nat.pow_dvd_pow 2 hle) (Nat.dvd_mul_left _ n)

theorem grid_dvd_mul_unit {n : Nat} (h : n ≤ exactBound) :
    Nat.pow 2 (coarseness (n * unit)) ∣ n * unit := by
  rw [unit_eq]
  exact grid_dvd_mul_two_pow h scale

theorem mul_unit_lt_limit {n : Nat} (h : n ≤ exactBound) : n * unit < limit := by
  have h53 : exactBound < Nat.pow 2 reach :=
    Nat.pow_lt_pow_right (by decide) (reach_eq ▸ by decide)
  rw [limit]
  exact Nat.mul_lt_mul_of_pos_right (Nat.lt_of_le_of_lt h h53) unit_pos

/-- An integer of at most `2 ^ 53` in size is that many units. -/
theorem ofInt_eq_finite {z : Int} (h : z.natAbs ≤ exactBound) :
    ofInt z = finite (decide (z < 0)) (z.natAbs * unit) :=
  ofRatio_one (grid_dvd_mul_unit h) (mul_unit_lt_limit h)

theorem signed_natAbs (z : Int) (k : Nat) :
    signed (decide (z < 0)) (z.natAbs * k) = z * k := by
  by_cases h : z < 0
  · have hz : (z.natAbs : Int) = -z := by omega
    simp only [signed, h, decide_true, if_true, Int.natCast_mul, hz, Int.neg_mul, Int.neg_neg]
  · have : (z.natAbs : Int) = z := by omega
    simp [signed, h, this]

/-- Adding one to an integer of at most `2 ^ 53` in size gives the number of the
next integer. -/
theorem succ_ofInt {z : Int} (h : z.natAbs ≤ exactBound) : (ofInt z).succ = ofInt (z + 1) := by
  have hsum : z * (unit : Int) + unit = (z + 1) * unit := by
    rw [Int.add_mul, Int.one_mul]
  have hunit : (0 : Int) < unit := Int.natCast_pos.2 unit_pos
  have hneg : decide ((z + 1) * (unit : Int) < 0) = decide (z + 1 < 0) := by
    refine decide_eq_decide.2 ⟨fun hlt => ?_, fun hlt => Int.mul_neg_of_neg_of_pos hlt hunit⟩
    refine Int.not_le.1 fun hle => ?_
    exact absurd (Int.mul_nonneg hle (Int.le_of_lt hunit)) (Int.not_le.2 hlt)
  rw [ofInt_eq_finite h, succ]
  simp only [signed_natAbs, hsum, hneg, Int.natAbs_mul, Int.natAbs_natCast]
  rfl

/-- Integers of at most `2 ^ 53` in size are the same number only if they are equal. -/
theorem sameNumber_ofInt {y z : Int} (hy : y.natAbs ≤ exactBound) (hz : z.natAbs ≤ exactBound) :
    sameNumber (ofInt y) (ofInt z) = decide (y = z) := by
  have hunit : (unit : Int) ≠ 0 := Int.ne_of_gt (Int.natCast_pos.2 unit_pos)
  rw [ofInt_eq_finite hy, ofInt_eq_finite hz]
  simp only [sameNumber, signed_natAbs]
  rw [Bool.eq_iff_iff, beq_iff_eq, decide_eq_true_iff]
  exact ⟨fun e => Int.eq_of_mul_eq_mul_right hunit e, fun e => e ▸ rfl⟩

/-- Integers of at most `2 ^ 53` in size are ordered as their numbers are. -/
theorem atMost_ofInt {y z : Int} (hy : y.natAbs ≤ exactBound) (hz : z.natAbs ≤ exactBound) :
    atMost (ofInt y) (ofInt z) = decide (y ≤ z) := by
  have hunit : (0 : Int) < unit := Int.natCast_pos.2 unit_pos
  rw [ofInt_eq_finite hy, ofInt_eq_finite hz]
  simp only [atMost, signed_natAbs]
  rw [decide_eq_decide]
  exact ⟨fun h => Int.le_of_mul_le_mul_right h hunit,
    fun h => Int.mul_le_mul_of_nonneg_right h (Int.le_of_lt hunit)⟩

end Binary64

end EpochClaims
