import EpochClaims.Text.WidthTables

/-!
# The width of a text

The width of a text is the number of columns that it takes up where all columns
are equal. A character takes up one, two or, if it stands on another one or is
not seen, none. Characters that become one where they meet take up the columns
of that one: the letters of a Korean syllable are as wide as the syllable.

It does not matter whether such characters are written as one or apart, nor
whether a voicing mark stands before or behind other marks on its letter. So a
text is first taken apart, its voicing marks are moved to the letters that they
stand on, and then it is read from the left, each character with the next.
-/

namespace EpochClaims

namespace Text

/-- Whether a character lies in one of the ranges. -/
def inRanges (ranges : List (Nat × Nat)) (c : Char) : Bool :=
  ranges.any fun r => r.1 ≤ c.toNat && c.toNat ≤ r.2

/-- The columns that a character takes up on its own. -/
def charWidth (c : Char) : Nat :=
  if c.toNat < 127 then if c.toNat < 32 then 0 else 1
  else if inRanges wideRanges c then 2
  else if inRanges unseenRanges c then 0
  else if inRanges tripleRanges c then 3
  else 1

/-- The two characters that a character is made of. -/
def halves? (c : Nat) : Option (Nat × Nat) :=
  (meetings.find? fun m => m.2.2 = c).map fun m => (m.1, m.2.1)

/-- The characters that a character is made of: one, two or three. -/
def parts (c : Char) : List Char :=
  if c.toNat < 127 then [c]
  else
    match halves? c.toNat with
    | none => [c]
    | some (a, b) =>
      match halves? a with
      | none => [Char.ofNat a, Char.ofNat b]
      | some (a₁, a₂) => [Char.ofNat a₁, Char.ofNat a₂, Char.ofNat b]

/-- Whether a character is one of the two voicing marks of Japanese letters. -/
def isVoicing (c : Char) : Bool :=
  c = '\u3099' || c = '\u309A'

/-- Whether a character is a mark that lets voicing marks pass to its letter. -/
def isPassed (c : Char) : Bool :=
  !isVoicing c && 127 ≤ c.toNat && inRanges markRanges c

/-- A character in front of a text, behind the voicing marks that pass it. -/
def settle (c : Char) (s : List Char) : List Char :=
  if isPassed c then s.takeWhile isVoicing ++ c :: s.dropWhile isVoicing else c :: s

/-- A text whose voicing marks stand in front of other marks. -/
def settled (s : List Char) : List Char :=
  s.foldr settle []

/-- The Korean syllable of two letters, or of a syllable and a final letter. -/
def syllable? (b c : Nat) : Option Nat :=
  if 0x1100 ≤ b ∧ b < 0x1113 ∧ 0x1161 ≤ c ∧ c < 0x1176 then
    some (0xAC00 + ((b - 0x1100) * 21 + (c - 0x1161)) * 28)
  else if 0xAC00 ≤ b ∧ b < 0xD7A4 ∧ (b - 0xAC00) % 28 = 0 ∧ 0x11A8 ≤ c ∧ c < 0x11C3 then
    some (b + (c - 0x11A7))
  else none

/-- The character that two characters become where they meet. -/
def meet? (b c : Char) : Option Char :=
  if c.toNat < 127 then none
  else
    ((syllable? b.toNat c.toNat).or
      ((meetings.find? fun m => m.1 = b.toNat && m.2.1 = c.toNat).map fun m =>
        m.2.2)).map Char.ofNat

/-- The width of a character and the text behind it. -/
def widthFrom (b : Char) : List Char → Nat
  | [] => charWidth b
  | c :: s =>
    match meet? b c with
    | some d => widthFrom d s
    | none => charWidth b + widthFrom c s

/-- The width of a text. -/
def width (s : List Char) : Nat :=
  match settled (s.flatMap parts) with
  | [] => 0
  | c :: s => widthFrom c s

end Text

end EpochClaims
