/-!
# Blank characters and comma-separated lists

`trim` removes blank characters from both ends of a text, where the blank
characters are the white space and line ends of the table `blanks` and no
others: the byte order mark is one, the zero width space is not. `splitOn`
cuts a text at every occurrence of a separator, so a text without separators
is one piece and empty pieces are kept. The two meet in `entries`, the
non-blank entries of a comma-separated list.
-/

namespace EpochClaims

namespace Text

/-- The ranges of code points that count as blank. -/
def blanks : List (Nat × Nat) :=
  [(0x0009, 0x000D), (0x0020, 0x0020), (0x00A0, 0x00A0), (0x1680, 0x1680), (0x2000, 0x200A),
    (0x2028, 0x2029), (0x202F, 0x202F), (0x205F, 0x205F), (0x3000, 0x3000), (0xFEFF, 0xFEFF)]

/-- A character in one of the ranges of `blanks`. -/
def isBlank (c : Char) : Bool :=
  blanks.any fun r => r.1 ≤ c.toNat && c.toNat ≤ r.2

/-- A text without the blank characters at its two ends. -/
def trim (s : List Char) : List Char :=
  ((s.dropWhile isBlank).reverse.dropWhile isBlank).reverse

/-- The pieces between the separators, empty ones included. -/
def splitOn (separator : Char) : List Char → List (List Char)
  | [] => [[]]
  | c :: s =>
    if c = separator then [] :: splitOn separator s
    else
      match splitOn separator s with
      | [] => [[c]]
      | piece :: pieces => (c :: piece) :: pieces

/-- The trimmed entries of a comma-separated list that are not blank. -/
def entries (s : List Char) : List (List Char) :=
  ((splitOn ',' s).map trim).filter fun piece => !piece.isEmpty

@[simp] theorem splitOn_nil (separator : Char) : splitOn separator [] = [[]] := rfl

/-- A separator ends the piece in front of it. -/
theorem splitOn_append_cons {separator : Char} {s : List Char} (h : separator ∉ s)
    (t : List Char) :
    splitOn separator (s ++ separator :: t) = s :: splitOn separator t := by
  induction s with
  | nil => simp [splitOn]
  | cons c s ih =>
    have hc : c ≠ separator := fun e => h (e ▸ List.mem_cons_self)
    have hs : separator ∉ s := fun hm => h (List.mem_cons_of_mem _ hm)
    rw [List.cons_append, splitOn, if_neg hc, ih hs]

/-- A text without separators is one piece. -/
theorem splitOn_of_notMem {separator : Char} {s : List Char} (h : separator ∉ s) :
    splitOn separator s = [s] := by
  induction s with
  | nil => rfl
  | cons c s ih =>
    have hc : c ≠ separator := fun e => h (e ▸ List.mem_cons_self)
    have hs : separator ∉ s := fun hm => h (List.mem_cons_of_mem _ hm)
    rw [splitOn, if_neg hc, ih hs]

end Text

end EpochClaims
