import EpochClaims.Hex.Text
import EpochClaims.Keccak.Digest

/-!
# Addresses

An address is forty hexadecimal digits, so letter case is no part of it. It is
written in its checksummed spelling, which raises the letters at the places
where the digest of the lower-case digits has a digit of eight or more. Two
readers differ in what they ask of the case: `ofText?` takes any, `ofExact?`
takes lower case and the checksummed spelling only. `ofText?_chars` says that
the written form reads back, so equal texts are equal addresses.
-/

namespace EpochClaims

/-- Forty hexadecimal digits. -/
structure Address where
  digits : List Hex.Digit
  length_digits : digits.length = 40
  deriving DecidableEq, Repr

namespace Address

/-- The address of zeros, which stands for nobody. -/
def zero : Address :=
  ⟨List.replicate 40 0, by simp⟩

instance : Inhabited Address := ⟨zero⟩

/-- The address of a run of digits, if there are forty. -/
def ofDigits? (ds : List Hex.Digit) : Option Address :=
  if h : ds.length = 40 then some ⟨ds, h⟩ else none

/-- The address that a text spells, its digits in any case. -/
def ofText? (s : List Char) : Option Address :=
  (Hex.read? s).bind ofDigits?

/-- The address in lower case, the form that identifies it. -/
def key (a : Address) : List Char :=
  Hex.write a.digits

/-- The digits of the digest that decides the case of each letter. -/
def caseDigits (a : Address) : List Hex.Digit :=
  Hex.ofBytes (Keccak.digest ((Hex.lower a.digits).map fun c => UInt8.ofNat c.toNat))

/-- Each digit in the case that the digit beside it asks for; digits without
one beside them stay in lower case. -/
def spell : List Hex.Digit → List Hex.Digit → List Char
  | [], _ => []
  | d :: ds, [] => d.lower :: spell ds []
  | d :: ds, e :: es => (if 8 ≤ e.val then d.upper else d.lower) :: spell ds es

/-- The checksummed spelling of an address. -/
def chars (a : Address) : List Char :=
  '0' :: 'x' :: spell a.digits a.caseDigits

/-- The checksummed spelling of an address. -/
def text (a : Address) : String :=
  String.ofList a.chars

/-- The address that a text spells in lower case or in its checksummed
spelling. -/
def ofExact? (s : List Char) : Option Address :=
  (ofText? s).bind fun a => if s = a.key ∨ s = a.chars then some a else none

theorem digits?_spell (ds es : List Hex.Digit) : Hex.digits? (spell ds es) = some ds := by
  induction ds generalizing es with
  | nil => rfl
  | cons d ds ih =>
    cases es with
    | nil => simp [spell, ih]
    | cons e es =>
      by_cases h : 8 ≤ e.val <;> simp [spell, h, ih]

theorem toLower_spell (ds es : List Hex.Digit) :
    (spell ds es).map Char.toLower = Hex.lower ds := by
  induction ds generalizing es with
  | nil => rfl
  | cons d ds ih =>
    cases es with
    | nil => simp [spell, Hex.lower, ih]
    | cons e es =>
      by_cases h : 8 ≤ e.val <;> simp [spell, Hex.lower, h, ih]

@[simp] theorem ofDigits?_digits (a : Address) : ofDigits? a.digits = some a := by
  simp [ofDigits?, a.length_digits]

/-- The lower-case form reads back. -/
@[simp] theorem ofText?_key (a : Address) : ofText? a.key = some a := by
  simp [ofText?, key]

/-- The checksummed spelling reads back. -/
@[simp] theorem ofText?_chars (a : Address) : ofText? a.chars = some a := by
  simp [ofText?, chars, Hex.read?, digits?_spell]

/-- The checksummed spelling differs from the lower-case form in case only. -/
theorem toLower_chars (a : Address) : a.chars.map Char.toLower = a.key := by
  simp [chars, key, Hex.write, toLower_spell]

example : (ofText? "0x5aaeb6053f3e94c9b9a09f33669435e7ef1beaed".toList).map text =
    some "0x5aAeb6053F3E94C9b9A09f33669435E7Ef1BeAed" := by
  decide +kernel

/-- Different addresses have different lower-case forms. -/
theorem key_injective {a b : Address} (h : a.key = b.key) : a = b := by
  have hab := congrArg ofText? h
  simpa using hab

end Address

end EpochClaims
