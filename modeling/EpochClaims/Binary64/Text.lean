import EpochClaims.Binary64.Shortest

/-!
# The text of a number

A number is written with the fewest digits that read back. `layout` decides
where the point goes: numbers from `1e-6` up to, but not including, `1e21` are
written in full, all others with an exponent that carries its sign. Zero has
no sign in a message and keeps it in a log line, which is the only difference
between `text` and `logText`.
-/

namespace EpochClaims

namespace Binary64

/-- The bounds of positional notation: the greatest number of places before
the point and the greatest number of zeros behind it. -/
structure Layout where
  integerPlaces : Int
  leadingZeros : Int
  deriving DecidableEq, Repr

/-- Twenty-one places before the point, five zeros behind it. -/
def layout : Layout := ⟨21, 5⟩

/-- `n` zeros. -/
def zeros (n : Nat) : List Char :=
  List.replicate n '0'

/-- The digits of a natural number. -/
def natText (n : Nat) : List Char :=
  Nat.toDigits 10 n

/-- The text of a decimal. The point stands behind the first `point` digits. -/
def Decimal.text (d : Decimal) : List Char :=
  let digits := natText d.digits
  let point : Int := digits.length + d.exponent
  if 0 < point ∧ point ≤ layout.integerPlaces then
    if 0 ≤ d.exponent then digits ++ zeros d.exponent.toNat
    else digits.take point.toNat ++ '.' :: digits.drop point.toNat
  else if point ≤ 0 ∧ -point ≤ layout.leadingZeros then
    '0' :: '.' :: (zeros (-point).toNat ++ digits)
  else
    let exponent := point - 1
    let mantissa := match digits with
      | [] => []
      | [digit] => [digit]
      | digit :: rest => digit :: '.' :: rest
    mantissa ++ 'e' :: (if exponent < 0 then '-' else '+') :: natText exponent.natAbs

/-- A sign in front of a text. -/
def withSign (negative : Bool) (s : List Char) : List Char :=
  if negative then '-' :: s else s

/-- The text of a number in a message. -/
def chars : Binary64 → List Char
  | nan => "NaN".toList
  | infinity s => withSign s "Infinity".toList
  | finite _ 0 => ['0']
  | finite s (m + 1) => withSign s (shortest (m + 1)).text

/-- The text of a number in a message. -/
def text (x : Binary64) : String :=
  String.ofList x.chars

/-- The text of a number in a log line, where zero keeps its sign. -/
def logText : Binary64 → String
  | finite true 0 => "-0"
  | x => x.text

end Binary64

end EpochClaims
