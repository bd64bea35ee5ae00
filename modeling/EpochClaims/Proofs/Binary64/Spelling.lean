import EpochClaims.Binary64.Text
import EpochClaims.Proofs.Binary64.Natural
import Mathlib.Data.Rat.Cast.Order
import Mathlib.Algebra.Order.Field.Power
import Mathlib.Tactic.Positivity
import Mathlib.Tactic.Ring

/-!
# Numbers that are spelled as natural numbers

The members of a list are looked up by the spelling of their places, and a number
is spelled by the shortest decimal that reads back. Below 32 the lookup by
spelling is a lookup by number: `text_eq_toString_iff`. A decimal inside the
interval of a number (`covers_of_onGrid?`) may be far from it, but a small natural
number is not, since it lies on the grid of that number too
(`eq_mul_unit_of_interval`).

A count of steps need not be on its own grid. Those that are, and so are numbers
of 64 bits, are those that rounding keeps: `IsRepresentable`.
-/

namespace EpochClaims

namespace Binary64

/-! ### The numbers of 64 bits -/

/-- A number is one of 64 bits if rounding keeps it. -/
def IsRepresentable : Binary64 → Prop
  | finite s m => ofRatio s m 1 = finite s m
  | _ => True

theorem grid_dvd_of_ofRatio {s : Bool} {m : Nat} (h : ofRatio s m 1 = finite s m) :
    Nat.pow 2 (coarseness m) ∣ m := by
  rw [ofRatio] at h
  simp only [Nat.div_one, Nat.one_mul] at h
  split at h
  · exact Dvd.intro_left _ (finite.inj h).2
  · contradiction

theorem roundHalfEven_le (num den : Nat) : roundHalfEven num den ≤ num / den + 1 := by
  rw [roundHalfEven]
  split
  · exact Nat.le_succ _
  · split
    · exact Nat.le_refl _
    · exact Nat.add_le_add_left (Nat.le_of_lt_succ (Nat.mod_lt _ (by decide))) _

/-- Measured on the grid of its size, a number takes at most 53 bits. -/
theorem div_grid_lt (n : Nat) : n / Nat.pow 2 (coarseness n) < exactBound := by
  refine Nat.div_lt_of_lt_mul (Nat.lt_of_lt_of_le Nat.lt_log2_self ?_)
  have hexp : n.log2 + 1 ≤ coarseness n + 53 := by
    rw [coarseness]
    omega
  exact (Nat.pow_le_pow_right (by decide) hexp).trans_eq (Nat.pow_add 2 _ 53)

/-- Whatever is rounded becomes a number of 64 bits. -/
theorem isRepresentable_ofRatio (s : Bool) (num den : Nat) :
    (ofRatio s num den).IsRepresentable := by
  rw [ofRatio]
  split
  · next htop =>
      refine ofRatio_one (grid_dvd_mul_two_pow ?_ _) htop
      refine (roundHalfEven_le _ _).trans (Nat.succ_le_of_lt ?_)
      rw [← Nat.div_div_eq_div_mul]
      exact div_grid_lt (num / den)
  · trivial

theorem isRepresentable_ofInt (z : Int) : (ofInt z).IsRepresentable :=
  isRepresentable_ofRatio ..

/-! ### Decimals -/

/-- The number that a decimal stands for. -/
def Decimal.worth (d : Decimal) : ℚ :=
  d.digits * 10 ^ d.exponent

theorem worth_stripZeros (fuel : Nat) (d : Decimal) : (stripZeros fuel d).worth = d.worth := by
  induction fuel generalizing d with
  | zero => rfl
  | succ fuel ih =>
      rw [stripZeros]
      split
      · next hzero =>
          obtain ⟨n, hn⟩ := Nat.dvd_of_mod_eq_zero hzero
          rw [ih, Decimal.worth, Decimal.worth, hn, Nat.mul_div_cancel_left n (by decide),
            zpow_add_one₀ (by decide)]
          push_cast
          ring
      · rfl

theorem notMem_natText {c : Char} (hc : c.isDigit = false) (n : Nat) : c ∉ natText n := by
  intro hmem
  have := Nat.isDigit_of_mem_toDigits (by decide) (by decide) hmem
  simp [hc] at this

/-- A decimal is written as a natural number only if it is worth it. -/
theorem Decimal.worth_of_text {d : Decimal} {n : Nat} (h : d.text = natText n) :
    d.worth = n := by
  rw [text] at h
  simp only at h
  split at h
  · split at h
    · next hexp =>
        have hvalue := congrArg (Nat.ofDigitChars 10 · 0) h
        simp only [Nat.ofDigitChars_append, zeros, Nat.ofDigitChars_replicate_zero, natText,
          Nat.ofDigitChars_ten_toDigits] at hvalue
        have hpow : (10 : ℚ) ^ d.exponent = 10 ^ d.exponent.toNat := by
          rw [← zpow_natCast, Int.toNat_of_nonneg hexp]
        rw [worth, hpow, ← hvalue]
        push_cast
        ring
    · exact absurd (by rw [← h]; simp) (notMem_natText (c := '.') rfl n)
  · split at h
    · exact absurd (by rw [← h]; simp) (notMem_natText (c := '.') rfl n)
    · exact absurd (by rw [← h]; simp) (notMem_natText (c := 'e') rfl n)

/-! ### The shortest decimal -/

/-- A decimal lies in an interval. -/
structure Interval.Covers (around : Interval) (d : Decimal) : Prop where
  low_le : (around.low : ℚ) ≤ 4 * unit * d.worth
  le_high : 4 * unit * d.worth ≤ around.high

theorem zpow_mul_toNat (e : Int) : (10 : ℚ) ^ e * 10 ^ (-e).toNat = 10 ^ e.toNat := by
  rw [← zpow_natCast, ← zpow_natCast, ← zpow_add₀ (by decide)]
  congr 1
  omega

/-- Measured in the common denominator, a point of a decimal grid lies in an
interval. -/
theorem Interval.covers_of_le {around : Interval} {p : Nat} {e : Int}
    (hlow : around.low * Nat.pow 10 (-e).toNat ≤ p * (4 * unit * Nat.pow 10 e.toNat))
    (hhigh : p * (4 * unit * Nat.pow 10 e.toNat) ≤ around.high * Nat.pow 10 (-e).toNat) :
    around.Covers ⟨p, e⟩ := by
  have hpos : (0 : ℚ) < 10 ^ (-e).toNat := by positivity
  have hpoint : 4 * (unit : ℚ) * (p * 10 ^ e) * 10 ^ (-e).toNat =
      (p * (4 * unit * Nat.pow 10 e.toNat) : Nat) := by
    rw [Nat.pow_eq]
    push_cast
    rw [← zpow_mul_toNat e]
    ring
  constructor
  · refine le_of_mul_le_mul_right ?_ hpos
    rw [Decimal.worth, hpoint]
    exact_mod_cast hlow
  · refine le_of_mul_le_mul_right ?_ hpos
    rw [Decimal.worth, hpoint]
    exact_mod_cast hhigh

theorem covers_of_onGrid? {steps count : Nat} {d : Decimal} (h : onGrid? steps count = some d) :
    (interval steps).Covers d := by
  unfold onGrid? at h
  extract_lets exponent stretch point around target lower within gapBelow gapAbove at h
  have hwithin : ∀ p, within p = true → around.Covers ⟨p, exponent⟩ := by
    intro p hp
    simp only [within] at hp
    split at hp
    · simp only [Bool.and_eq_true, decide_eq_true_iff] at hp
      exact Interval.covers_of_le hp.1 hp.2
    · simp only [Bool.and_eq_true, decide_eq_true_iff] at hp
      exact Interval.covers_of_le (Nat.le_of_lt hp.1) (Nat.le_of_lt hp.2)
  split at h
  · next hlow hhigh =>
      -- Of two points in the interval either may be chosen.
      split at h
      · exact Option.some.inj h ▸ hwithin lower hlow
      · split at h
        · exact Option.some.inj h ▸ hwithin (lower + 1) hhigh
        · rcases Nat.mod_two_eq_zero_or_one lower with heven | hodd
          · rw [heven] at h
            exact Option.some.inj h ▸ hwithin lower hlow
          · rw [hodd] at h
            exact Option.some.inj h ▸ hwithin (lower + 1) hhigh
  · next hlow _ => exact Option.some.inj h ▸ hwithin lower hlow
  · next hhigh => exact Option.some.inj h ▸ hwithin (lower + 1) hhigh
  · contradiction

/-- The shortest decimal lies in the interval of its number, unless no decimal
of seventeen digits does. -/
theorem shortest_cases (steps : Nat) :
    (interval steps).Covers (shortest steps) ∨ shortest steps = ⟨steps, 0⟩ := by
  rw [shortest]
  cases h : (List.range 17).findSome? fun i => onGrid? steps (i + 1) with
  | none => exact Or.inr rfl
  | some d =>
      obtain ⟨count, -, hd⟩ := List.exists_of_findSome?_eq_some h
      have hcovers := covers_of_onGrid? hd
      refine Or.inl ⟨?_, ?_⟩
      · rw [worth_stripZeros]
        exact hcovers.low_le
      · rw [worth_stripZeros]
        exact hcovers.le_high

/-- A small natural number in the interval of a number is that number: both lie
on the grid of the number, and the interval reaches half way to the next point. -/
theorem eq_mul_unit_of_interval {steps k : Nat} (hgrid : Nat.pow 2 (coarseness steps) ∣ steps)
    (hpos : steps ≠ 0) (hk : k < 2 ^ 50) (hlow : (interval steps).low ≤ 4 * unit * k)
    (hhigh : 4 * unit * k ≤ (interval steps).high) : steps = k * unit := by
  have hbelow : 4 * steps ≤ 4 * unit * k + 2 * Nat.pow 2 (coarseness steps) := by
    simp only [interval] at hlow
    split at hlow <;> simp only [coarseness] <;> omega
  have habove : 4 * unit * k ≤ 4 * steps + 2 * Nat.pow 2 (coarseness steps) := hhigh
  have hfine : coarseness steps ≤ scale := by
    by_contra hcoarse
    have hlog : scale + 53 ≤ steps.log2 := by
      rw [coarseness] at hcoarse
      omega
    have h52 : 52 ≤ steps.log2 := by omega
    have hsteps : 2 ^ steps.log2 ≤ steps := Nat.log2_self_le hpos
    have hhuge : unit * 2 ^ 53 ≤ steps := by
      rw [unit_eq]
      exact (Nat.pow_add 2 scale 53 ▸ Nat.pow_le_pow_right (by decide) hlog).trans hsteps
    have hwide : Nat.pow 2 (coarseness steps) * 2 ^ 52 ≤ steps := by
      refine le_trans (le_of_eq ?_) hsteps
      rw [Nat.pow_eq, ← Nat.pow_add, coarseness, Nat.sub_add_cancel h52]
    have hsmall : unit * k ≤ unit * 2 ^ 50 := Nat.mul_le_mul_left unit hk.le
    rw [Nat.mul_assoc] at hbelow
    omega
  have hunit : Nat.pow 2 (coarseness steps) ∣ unit := by
    rw [unit_eq]
    exact Nat.pow_dvd_pow 2 hfine
  have hgridpos : 0 < Nat.pow 2 (coarseness steps) := Nat.two_pow_pos _
  generalize Nat.pow 2 (coarseness steps) = grid at *
  obtain ⟨s, rfl⟩ := hgrid
  obtain ⟨u, hu⟩ := hunit
  rw [hu] at hbelow habove ⊢
  have h1 : 4 * s ≤ 4 * (u * k) + 2 := by
    refine Nat.le_of_mul_le_mul_left ?_ hgridpos
    calc
      grid * (4 * s) = 4 * (grid * s) := by ring
      _ ≤ 4 * (grid * u) * k + 2 * grid := hbelow
      _ = grid * (4 * (u * k) + 2) := by ring
  have h2 : 4 * (u * k) ≤ 4 * s + 2 := by
    refine Nat.le_of_mul_le_mul_left ?_ hgridpos
    calc
      grid * (4 * (u * k)) = 4 * (grid * u) * k := by ring
      _ ≤ 4 * (grid * s) + 2 * grid := habove
      _ = grid * (4 * s + 2) := by ring
  have hs : s = u * k := by omega
  rw [hs]
  ring

/-! ### Spelled as a slot -/

theorem text_shortest_mul_unit : ∀ k < 32, k ≠ 0 → (shortest (k * unit)).text = natText k := by
  decide +kernel

theorem chars_mul_unit {k : Nat} (hk : k < 32) : (finite false (k * unit)).chars = natText k := by
  by_cases hzero : k = 0
  · rw [hzero, Nat.zero_mul]
    rfl
  · obtain ⟨m, hm⟩ := Nat.exists_eq_succ_of_ne_zero (Nat.mul_ne_zero hzero (Nat.ne_of_gt unit_pos))
    rw [← text_shortest_mul_unit k hk hzero, hm]
    rfl

/-- The least numbers of all are spelled with an exponent. -/
theorem mem_text_of_lt : ∀ steps < 32, steps ≠ 0 → 'e' ∈ (shortest steps).text := by
  decide +kernel

theorem toNat?_mul_unit (k : Nat) : (finite false (k * unit)).toNat? = some k := by
  rw [toNat?_eq_some_iff_toInt?, toInt?, if_pos (Nat.mul_mod_left _ _),
    Nat.mul_div_cancel _ unit_pos]
  rfl

theorem toNat?_zero (s : Bool) : (finite s 0).toNat? = some 0 := by
  cases s <;> simp [toNat?, toInt?, signed]

/-- A natural number is a count of whole units, without a sign unless it is zero. -/
theorem eq_finite_of_toNat? {x : Binary64} {k : Nat} (h : x.toNat? = some k) :
    ∃ s, x = finite s (k * unit) ∧ (s = true → k = 0) := by
  rw [toNat?_eq_some_iff_toInt?] at h
  cases x with
  | nan => contradiction
  | infinity s => contradiction
  | finite s m =>
      rw [toInt?] at h
      split at h
      · next hmod =>
          have hm : m / unit * unit = m := Nat.div_mul_cancel (Nat.dvd_of_mod_eq_zero hmod)
          have hk := Option.some.inj h
          have habs : m / unit = k := by rw [← natAbs_signed s (m / unit), hk, Int.natAbs_natCast]
          refine ⟨s, by rw [← hm, habs], ?_⟩
          rintro rfl
          rw [signed, if_pos rfl, habs] at hk
          omega
      · contradiction

theorem steps_eq_of_text {steps k : Nat} (hgrid : Nat.pow 2 (coarseness steps) ∣ steps)
    (hpos : steps ≠ 0) (hk : k < 32) (h : (shortest steps).text = natText k) :
    steps = k * unit := by
  have hworth := Decimal.worth_of_text h
  rcases shortest_cases steps with ⟨hlow, hhigh⟩ | hlast
  · rw [hworth] at hlow hhigh
    refine eq_mul_unit_of_interval hgrid hpos (Nat.lt_trans hk (by decide)) ?_ ?_
    · exact_mod_cast hlow
    · exact_mod_cast hhigh
  · have hsteps : steps = k := by simpa [hlast, Decimal.worth] using hworth
    have hexp := mem_text_of_lt steps (hsteps ▸ hk) hpos
    rw [h] at hexp
    exact absurd hexp (notMem_natText rfl k)

/-- Up to 32, a number of 64 bits is spelled as a natural number exactly if it
is that number. -/
theorem text_eq_toString_iff {x : Binary64} (hx : x.IsRepresentable) {k : Nat} (hk : k < 32) :
    x.text = toString k ↔ x.toNat? = some k := by
  rw [text, Nat.toString_eq_ofList_toDigits, String.ofList_inj]
  constructor
  · intro h
    cases x with
    | nan =>
        have hname : 'N' ∈ chars nan := List.mem_cons_self
        exact absurd (h ▸ hname) (notMem_natText rfl k)
    | infinity s =>
        have hname : 'I' ∈ chars (infinity s) := by cases s <;> simp [chars, withSign]
        exact absurd (h ▸ hname) (notMem_natText rfl k)
    | finite s m =>
        cases m with
        | zero =>
            have hzero : k = 0 := by
              rw [← Nat.ofDigitChars_ten_toDigits (n := k), ← h]
              rfl
            rw [hzero, toNat?_zero]
        | succ m =>
            have hgrid := grid_dvd_of_ofRatio hx
            cases s with
            | true =>
                have hsign : '-' ∈ chars (finite true (m + 1)) := List.mem_cons_self
                exact absurd (h ▸ hsign) (notMem_natText rfl k)
            | false => rw [steps_eq_of_text hgrid (Nat.succ_ne_zero m) hk h, toNat?_mul_unit]
  · intro h
    obtain ⟨s, rfl, hs⟩ := eq_finite_of_toNat? h
    cases s with
    | false => exact chars_mul_unit hk
    | true =>
        obtain rfl := hs rfl
        rw [Nat.zero_mul]
        rfl

theorem isRepresentable_of_toNat? {x : Binary64} {k : Nat} (hk : k ≤ exactBound)
    (h : x.toNat? = some k) : x.IsRepresentable := by
  obtain ⟨s, rfl, -⟩ := eq_finite_of_toNat? h
  exact ofRatio_one (grid_dvd_mul_unit hk) (mul_unit_lt_limit hk)

theorem Decimal.l_notMem_text (d : Decimal) : 'l' ∉ d.text := by
  have hnat : ∀ n, 'l' ∉ natText n := notMem_natText rfl
  have htake : ∀ k, 'l' ∉ (natText d.digits).take k := fun k h => hnat _ (List.mem_of_mem_take h)
  have hdrop : ∀ k, 'l' ∉ (natText d.digits).drop k := fun k h => hnat _ (List.mem_of_mem_drop h)
  rw [text]
  simp only
  split
  · split
    · simp [hnat, zeros]
    · simp [htake, hdrop]
  · split
    · simp [hnat, zeros]
    · rw [List.mem_append, not_or]
      constructor
      · have hdigits := hnat d.digits
        split
        · exact List.not_mem_nil
        · next hone => rwa [hone] at hdigits
        · next hmany =>
            rw [hmany] at hdigits
            simpa using hdigits
      · split <;> simp [hnat]

/-- No number is spelled as the name of the length. -/
theorem text_ne_length (x : Binary64) : x.text ≠ "length" := by
  have h : 'l' ∉ x.chars := by
    cases x with
    | nan => decide
    | infinity s => cases s <;> decide
    | finite s m =>
        cases m with
        | zero => cases s <;> decide
        | succ m =>
            have htext := (shortest (m + 1)).l_notMem_text
            cases s <;> simp [chars, withSign, htext]
  intro hlength
  rw [← String.toList_ofList (l := x.chars), ← text, hlength] at h
  exact h List.mem_cons_self

end Binary64

end EpochClaims
