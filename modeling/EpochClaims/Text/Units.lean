/-!
# Text in 16-bit units

Lengths and cuts of text are counted in 16-bit units: a character below
U+10000 is one unit, any other is a high half followed by a low half. Text
stays a list of characters; `units` and `ofUnits` pass to its units and back,
so that a cut is a plain `take` or `drop` on the units. Reading units back
joins a high half with the low half behind it, and a half that stands alone,
which only a cut through a pair can leave, reads as U+FFFD.

The main statement is `ofUnits_units`: reading the units of a text back gives
the text.
-/

namespace EpochClaims

namespace Text

/-- The units of one character. -/
def charUnits (c : Char) : List Nat :=
  if c.toNat < 0x10000 then [c.toNat]
  else [0xD800 + (c.toNat - 0x10000) / 0x400, 0xDC00 + (c.toNat - 0x10000) % 0x400]

/-- The units of a text, character by character. -/
def units (s : List Char) : List Nat :=
  s.flatMap charUnits

@[simp] theorem units_nil : units [] = [] := rfl

@[simp] theorem units_cons (c : Char) (s : List Char) :
    units (c :: s) = charUnits c ++ units s := rfl

/-- The length of a text in units. -/
def length16 (s : List Char) : Nat :=
  (units s).length

/-- A unit that opens a pair. -/
def isHighHalf (u : Nat) : Bool :=
  0xD800 ≤ u && u < 0xDC00

/-- A unit that closes a pair. -/
def isLowHalf (u : Nat) : Bool :=
  0xDC00 ≤ u && u < 0xE000

/-- The character of a pair of halves. -/
def joinHalves (high low : Nat) : Char :=
  Char.ofNat (0x10000 + (high - 0xD800) * 0x400 + (low - 0xDC00))

/-- The character of a unit on its own. -/
def charOfUnit (u : Nat) : Char :=
  if isHighHalf u || isLowHalf u then '\uFFFD' else Char.ofNat u

/-- The text that a list of units spells. -/
def ofUnits : List Nat → List Char
  | [] => []
  | [u] => [charOfUnit u]
  | u :: v :: rest =>
    if isHighHalf u && isLowHalf v then joinHalves u v :: ofUnits rest
    else charOfUnit u :: ofUnits (v :: rest)

/-- A character below U+10000 reads back from its unit, whatever follows. -/
theorem ofUnits_cons_of_lt {c : Char} (h : c.toNat < 0x10000) (us : List Nat) :
    ofUnits (c.toNat :: us) = c :: ofUnits us := by
  have hv : c.toNat < 0xD800 ∨ 0xE000 ≤ c.toNat := by
    rcases c.valid with h1 | h1 <;> simp only [Char.toNat, UInt32.toNat] at * <;> omega
  have hhigh : isHighHalf c.toNat = false := by
    simp only [isHighHalf, Bool.and_eq_false_iff, decide_eq_false_iff_not]; omega
  have hlow : isLowHalf c.toNat = false := by
    simp only [isLowHalf, Bool.and_eq_false_iff, decide_eq_false_iff_not]; omega
  have hunit : charOfUnit c.toNat = c := by simp [charOfUnit, hhigh, hlow]
  cases us with
  | nil => simp [ofUnits, hunit]
  | cons v us => simp [ofUnits, hhigh, hunit]

/-- Reading the units of a text back gives the text. -/
theorem ofUnits_units (s : List Char) : ofUnits (units s) = s := by
  induction s with
  | nil => rfl
  | cons c s ih =>
    rw [units_cons, charUnits]
    split
    · next h => rw [List.singleton_append, ofUnits_cons_of_lt h, ih]
    · next h =>
      have htop : c.toNat < 0x110000 := by
        rcases c.valid with h1 | h1 <;> simp only [Char.toNat, UInt32.toNat] at * <;> omega
      have hjoin : joinHalves (0xD800 + (c.toNat - 0x10000) / 0x400)
          (0xDC00 + (c.toNat - 0x10000) % 0x400) = c := by
        have hsum : 0x10000 + (0xD800 + (c.toNat - 0x10000) / 0x400 - 0xD800) * 0x400 +
            (0xDC00 + (c.toNat - 0x10000) % 0x400 - 0xDC00) = c.toNat := by omega
        rw [joinHalves, hsum, Char.ofNat_toNat]
      have hhigh : isHighHalf (0xD800 + (c.toNat - 0x10000) / 0x400) = true := by
        simp only [isHighHalf, Bool.and_eq_true, decide_eq_true_eq]; omega
      have hlow : isLowHalf (0xDC00 + (c.toNat - 0x10000) % 0x400) = true := by
        simp only [isLowHalf, Bool.and_eq_true, decide_eq_true_eq]; omega
      simp [ofUnits, hhigh, hlow, hjoin, ih]

/-- The first `n` units of a text. -/
def take16 (n : Nat) (s : List Char) : List Char :=
  ofUnits ((units s).take n)

/-- The text behind its first `n` units. -/
def drop16 (n : Nat) (s : List Char) : List Char :=
  ofUnits ((units s).drop n)

/-- The last `n` units of a text. -/
def takeLast16 (n : Nat) (s : List Char) : List Char :=
  drop16 (length16 s - n) s

end Text

end EpochClaims
