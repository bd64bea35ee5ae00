import EpochClaims.Binary64.Rounding
import EpochClaims.Text.Blank

/-!
# Reading a number

A text is read as a number in decimal, with a sign, a point and an exponent
where it has them, or as a natural number in base sixteen, eight or two behind
a mark. Blank characters around it are ignored, a blank text is zero, and every
text that is no number is NaN. Of a decimal with a great exponent only its size
is looked at, so that no power out of reach is ever computed.
-/

namespace EpochClaims

namespace Binary64

/-- The value of a digit in a base. -/
def digitValue? (base : Nat) (c : Char) : Option Nat :=
  let value :=
    if c.isDigit then c.toNat - '0'.toNat
    else if c.isLower then c.toNat - 'a'.toNat + 10
    else if c.isUpper then c.toNat - 'A'.toNat + 10
    else base
  if value < base then some value else none

/-- The natural number that digits of a base spell. -/
def readNat? (base : Nat) (s : List Char) : Option Nat :=
  if s.isEmpty then none
  else s.foldlM (fun n c => (digitValue? base c).map fun d => n * base + d) 0

/-- The integer that digits with a sign spell. -/
def readInt? : List Char → Option Int
  | '+' :: s => (readNat? 10 s).map Int.ofNat
  | '-' :: s => (readNat? 10 s).map fun n => -(n : Int)
  | s => (readNat? 10 s).map Int.ofNat

/-- The exponent behind the digits of a decimal, zero if there is none. -/
def readExponent? : List Char → Option Int
  | [] => some 0
  | 'e' :: s => readInt? s
  | 'E' :: s => readInt? s
  | _ => none

/-- Decimals of an exponent above this are infinite, and those so far below
their number of digits are zero. -/
def farExponent : Nat := 400

/-- The number nearest to `digits * 10 ^ exponent`, where there are `count`
digits. -/
def ofScientific (negative : Bool) (digits count : Nat) (exponent : Int) : Binary64 :=
  if digits = 0 ∨ exponent < -(count + farExponent : Int) then finite negative 0
  else if (farExponent : Int) < exponent then infinity negative
  else
    ofRatio negative (digits * unit * Nat.pow 10 exponent.toNat) (Nat.pow 10 (-exponent).toNat)

/-- The number that a decimal without a sign spells. -/
def readDecimal? (negative : Bool) (s : List Char) : Option Binary64 :=
  if s = "Infinity".toList then some (infinity negative)
  else
    let whole := s.takeWhile Char.isDigit
    let behind := s.dropWhile Char.isDigit
    let (fraction, rest) := match behind with
      | '.' :: t => (t.takeWhile Char.isDigit, t.dropWhile Char.isDigit)
      | t => ([], t)
    let digits := whole ++ fraction
    match readNat? 10 digits, readExponent? rest with
    | some n, some e => some (ofScientific negative n digits.length (e - fraction.length))
    | _, _ => none

/-- The number that a text without blank characters around it spells. -/
def readTrimmed? : List Char → Option Binary64
  | [] => some 0
  | '0' :: 'x' :: s => (readNat? 16 s).map fun n => ofInt n
  | '0' :: 'X' :: s => (readNat? 16 s).map fun n => ofInt n
  | '0' :: 'o' :: s => (readNat? 8 s).map fun n => ofInt n
  | '0' :: 'O' :: s => (readNat? 8 s).map fun n => ofInt n
  | '0' :: 'b' :: s => (readNat? 2 s).map fun n => ofInt n
  | '0' :: 'B' :: s => (readNat? 2 s).map fun n => ofInt n
  | '+' :: s => readDecimal? false s
  | '-' :: s => readDecimal? true s
  | s => readDecimal? false s

/-- The number that a text spells, NaN if it spells none. -/
def ofText (s : List Char) : Binary64 :=
  (readTrimmed? (Text.trim s)).getD nan

end Binary64

end EpochClaims
