import EpochClaims.Text.Units

/-!
# Quoted texts

A text is quoted by the mark that spares it escapes: the first of three that it
does not hold, where the third also asks that the text holds no dollar sign in
front of a brace. If there is none, the first is used and escaped. Backslashes
and control characters are escaped under any mark.

A text of more than `wideQuote` units is broken behind each end of line, and one
of more than `longQuote` units is cut off with a remark. If the cut goes through
a pair, the half that is left is escaped.
-/

namespace EpochClaims

namespace Text

/-- Whether a text holds a dollar sign in front of a brace. -/
def holdsOpening : List Char → Bool
  | [] => false
  | '$' :: '\x7b' :: _ => true
  | _ :: s => holdsOpening s

/-- The quotation mark for a text. -/
def quotationMark (s : List Char) : Char :=
  if !s.contains '\x27' then '\x27'
  else if !s.contains '\x22' then '\x22'
  else if !s.contains '\x60' && !holdsOpening s then '\x60'
  else '\x27'

/-- A hexadecimal digit in upper case. -/
def upperDigit (n : Nat) : Char :=
  (Nat.digitChar n).toUpper

/-- A character inside a quoted text. -/
def quotedChar (mark c : Char) : List Char :=
  if c = '\n' then ['\\', 'n']
  else if c = '\t' then ['\\', 't']
  else if c = '\r' then ['\\', 'r']
  else if c = '\x08' then ['\\', 'b']
  else if c = '\x0c' then ['\\', 'f']
  else if c = '\\' ∨ c = mark then ['\\', c]
  else if c.toNat < 32 ∨ (127 ≤ c.toNat ∧ c.toNat < 160) then
    ['\\', 'x', upperDigit (c.toNat / 16), upperDigit (c.toNat % 16)]
  else [c]

/-- The escape of half a pair. -/
def escapedHalf (u : Nat) : List Char :=
  '\\' :: 'u' :: Nat.toDigits 16 u

/-- A text in quotation marks, and half a pair behind it if there is one. -/
def quotedWith (half : Option Nat) (s : List Char) : List Char :=
  let mark := quotationMark s
  mark :: s.flatMap (quotedChar mark) ++ half.elim [] escapedHalf ++ [mark]

/-- A text in quotation marks. -/
def quoted (s : List Char) : List Char :=
  quotedWith none s

/-- The pieces of a text, each up to an end of line. -/
def cutLines : List Char → List (List Char)
  | [] => []
  | '\n' :: s => ['\n'] :: cutLines s
  | c :: s =>
    match cutLines s with
    | [] => [[c]]
    | line :: lines => (c :: line) :: lines

/-- The greatest number of units that are quoted on one line. -/
def wideQuote : Nat := 74

/-- The greatest number of units that are quoted. -/
def longQuote : Nat := 10000

/-- A count of things that are left out, with their name. -/
def moreOf (count : Nat) (name : String) : String :=
  "... " ++ toString count ++ " more " ++ name ++ if count = 1 then "" else "s"

/-- The half of a pair that a cut behind `n` units leaves. -/
def cutHalf? (n : Nat) (s : List Char) : Option Nat :=
  ((units s).take n).getLast?.filter isHighHalf

/-- Lines in quotation marks. A half that is left stands at the end of the last
line, in the place of the character that it reads as. -/
def quotedLines (half : Option Nat) (lines : List (List Char)) : List (List Char) :=
  match half, lines.getLast? with
  | some u, some line => lines.dropLast.map quoted ++ [quotedWith (some u) line.dropLast]
  | _, _ => lines.map quoted

/-- A text in quotation marks, broken and cut off where it is long. -/
def quotedParts (s : List Char) : String :=
  let shown := take16 longQuote s
  let lines := if wideQuote < length16 shown then cutLines shown else [shown]
  let left := length16 s - longQuote
  String.intercalate " +\n    "
      ((quotedLines (cutHalf? longQuote s) lines).map String.ofList) ++
    if left = 0 then "" else moreOf left "character"

end Text

end EpochClaims
