/-!
# Operators on words of 32 bits

The bitwise operators take integers, reckon with their words of 32 bits in two's
complement and give integers back. All but one read the resulting word with its
sign, so that a word with its highest bit set comes back as a negative number;
`unsigned`, a shift to the right by no place that does not keep the sign, reads
the word as it stands. Places to shift by are counted modulo 32.

`ofInt_unsigned` says that nothing is lost by reading a word in either way, so
what a row of operators gives in the end is told by words alone.
-/

namespace EpochClaims

namespace Word

/-- The number of bits of a word. -/
abbrev width : Nat := 32

/-- The word of an integer. -/
def ofInt (z : Int) : BitVec width := BitVec.ofInt width z

/-- Shifts an integer to the left. -/
def shiftLeft (z places : Int) : Int := (ofInt z <<< ((ofInt places).toNat % width)).toInt

/-- The bits of either integer. -/
def or (y z : Int) : Int := (ofInt y ||| ofInt z).toInt

/-- The bits of both integers. -/
def and (y z : Int) : Int := (ofInt y &&& ofInt z).toInt

/-- The bits that an integer has not. -/
def not (z : Int) : Int := (~~~ ofInt z).toInt

/-- The word of an integer, read without a sign. -/
def unsigned (z : Int) : Int := (ofInt z).toNat

variable (y z : Int)

@[simp] theorem ofInt_or : ofInt (or y z) = ofInt y ||| ofInt z := BitVec.ofInt_toInt

@[simp] theorem ofInt_and : ofInt (and y z) = ofInt y &&& ofInt z := BitVec.ofInt_toInt

@[simp] theorem ofInt_not : ofInt (not z) = ~~~ ofInt z := BitVec.ofInt_toInt

theorem ofInt_natCast (n : Nat) : ofInt n = BitVec.ofNat width n := BitVec.ofInt_natCast ..

@[simp] theorem ofInt_unsigned : ofInt (unsigned z) = ofInt z := by
  rw [unsigned, ofInt_natCast, BitVec.ofNat_toNat, BitVec.setWidth_eq]

/-- A word is read as zero, with its sign or without, only if no bit is set. -/
theorem and_eq_zero_iff : and y z = 0 ↔ ofInt y &&& ofInt z = BitVec.ofNat width 0 := by
  rw [and, ← BitVec.toInt_inj, BitVec.toInt_zero]

theorem unsigned_eq_zero_iff : unsigned z = 0 ↔ ofInt z = BitVec.ofNat width 0 := by
  rw [unsigned, ← BitVec.toNat_inj, BitVec.toNat_ofNat, Nat.zero_mod, Int.natCast_eq_zero]

example : or (-1) 0 = -1 ∧ shiftLeft 1 31 = -2147483648 ∧ shiftLeft 1 32 = 1 ∧
    unsigned (shiftLeft 1 31) = 2147483648 := by decide

end Word

end EpochClaims
