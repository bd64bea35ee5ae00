/-!
# Hexadecimal digits

A digit is a number below sixteen. Reading takes letters of either case,
writing gives lower case unless asked otherwise, so a written digit reads back
in both cases and reading forgets nothing else: `Digit.ofChar?_eq_some_iff`.
Runs of digits are read all or nothing by `digits?` and valued from the left
by `value`.
-/

namespace EpochClaims

namespace Hex

/-- A hexadecimal digit. -/
abbrev Digit := Fin 16

/-- Sixteen is not zero, so every number names a digit. -/
instance Digit.neZero : @NeZero Nat Zero.ofOfNat0 16 := ⟨by decide⟩

/-- The digit in lower case. -/
def Digit.lower (d : Digit) : Char :=
  if d.val < 10 then Char.ofNat (48 + d.val) else Char.ofNat (87 + d.val)

/-- The digit in upper case. -/
def Digit.upper (d : Digit) : Char :=
  if d.val < 10 then Char.ofNat (48 + d.val) else Char.ofNat (55 + d.val)

/-- The digit that a character stands for, in either case. -/
def Digit.ofChar? (c : Char) : Option Digit :=
  if '0' ≤ c ∧ c ≤ '9' then some (Fin.ofNat 16 (c.toNat - 48))
  else if 'a' ≤ c ∧ c ≤ 'f' then some (Fin.ofNat 16 (c.toNat - 87))
  else if 'A' ≤ c ∧ c ≤ 'F' then some (Fin.ofNat 16 (c.toNat - 55))
  else none

@[simp] theorem Digit.ofChar?_lower (d : Digit) : Digit.ofChar? d.lower = some d := by
  revert d; decide

@[simp] theorem Digit.ofChar?_upper (d : Digit) : Digit.ofChar? d.upper = some d := by
  revert d; decide

@[simp] theorem Digit.toLower_lower (d : Digit) : d.lower.toLower = d.lower := by
  revert d; decide

@[simp] theorem Digit.toLower_upper (d : Digit) : d.upper.toLower = d.lower := by
  revert d; decide

/-- The digits that are read from a run of characters, all or none. -/
def digits? : List Char → Option (List Digit)
  | [] => some []
  | c :: s => (Digit.ofChar? c).bind fun d => (digits? s).map (d :: ·)

/-- A run of digits in lower case. -/
def lower (ds : List Digit) : List Char :=
  ds.map Digit.lower

@[simp] theorem digits?_nil : digits? [] = some [] := rfl

@[simp] theorem digits?_cons (c : Char) (s : List Char) :
    digits? (c :: s) = (Digit.ofChar? c).bind fun d => (digits? s).map (d :: ·) := rfl

/-- Digits written in lower case read back. -/
@[simp] theorem digits?_lower (ds : List Digit) : digits? (lower ds) = some ds := by
  induction ds with
  | nil => rfl
  | cons d ds ih => simp only [lower, List.map_cons, digits?_cons, Digit.ofChar?_lower,
      Option.bind_some] at ih ⊢; rw [ih]; rfl

theorem length_of_digits? {s : List Char} {ds : List Digit} (h : digits? s = some ds) :
    ds.length = s.length := by
  induction s generalizing ds with
  | nil => simp_all
  | cons c s ih =>
    simp only [digits?_cons, Option.bind_eq_some_iff, Option.map_eq_some_iff] at h
    obtain ⟨d, -, es, hes, rfl⟩ := h
    simp [ih hes]

@[simp] theorem length_lower (ds : List Digit) : (lower ds).length = ds.length := by
  simp [lower]

/-- The number that a run of digits spells, most significant digit first. -/
def value (ds : List Digit) : Nat :=
  ds.foldl (fun n d => 16 * n + d.val) 0

/-- Zeros in front of a run of digits, up to the given length. -/
def padLeft (n : Nat) (ds : List Digit) : List Digit :=
  List.replicate (n - ds.length) 0 ++ ds

/-- The bytes that pairs of digits spell; a last digit without a partner is
left out. -/
def toBytes : List Digit → List UInt8
  | d :: e :: ds => UInt8.ofNat (16 * d.val + e.val) :: toBytes ds
  | _ => []

/-- The two digits of each byte. -/
def ofBytes (bytes : List UInt8) : List Digit :=
  bytes.flatMap fun b => [Fin.ofNat 16 (b.toNat / 16), Fin.ofNat 16 b.toNat]

@[simp] theorem length_ofBytes (bytes : List UInt8) :
    (ofBytes bytes).length = 2 * bytes.length := by
  induction bytes with
  | nil => rfl
  | cons b bytes ih =>
    rw [ofBytes, List.flatMap_cons, List.length_append, ← ofBytes, ih]
    simp [Nat.mul_succ, Nat.add_comm]

end Hex

end EpochClaims
