import EpochClaims.Text.Units
import EpochClaims.Text.Width

/-!
# Entries in brackets

Entries are written between brackets on one line if they fit, else on a line
each. A list of many short entries is laid out as a table instead, in as many
columns as make it about square on a page where a line is two and a half times
as high as a character is wide.

The width of an entry for the table is that of its columns, its length for a
line that of its 16-bit units.
-/

namespace EpochClaims

namespace Text

/-- The length of a line that entries have to fit on. -/
def lineLength : Nat := 80

/-- The number of entries up to which a list is no table. -/
def fewEntries : Nat := 6

/-- The most columns of a table. -/
def mostColumns : Nat := 12

/-- Whether entries fit on one line. Each of them takes two units more, and
the line eleven. -/
def fitOneLine (entries : List String) : Bool :=
  (entries.map fun e => length16 e.toList).foldl (· + ·) 0 + 2 * entries.length + 11 ≤
      lineLength &&
    entries.all fun e => !e.toList.contains '\n'

/-- The entries of a list, with a remark on others that are left out. -/
structure Entries where
  shown : List String
  remark : Option String
  deriving DecidableEq, Repr

namespace Entries

/-- The shown entries and the remark. -/
def toList (e : Entries) : List String :=
  e.shown ++ e.remark.toList

/-- The widths of the shown entries. -/
def widths (e : Entries) : List Nat :=
  e.shown.map fun s => width s.toList

/-- The columns that each entry is given, a separator included. -/
def slot (e : Entries) : Nat :=
  e.widths.foldl max 0 + 2

/-- The columns that all entries take up, separators included. -/
def total (e : Entries) : Nat :=
  e.widths.foldl (· + ·) 0 + 2 * e.widths.length

/-- Whether entries are short and alike enough for a table. -/
def isTable (e : Entries) : Bool :=
  fewEntries < e.toList.length && e.slot * 3 < lineLength &&
    (5 * e.slot < e.total || e.slot ≤ 8)

/-- Whether `k` columns make a table about square or less wide: `k - 1 / 2` is
at most the root of `5 * n / (2 * b)`, where `n` entries are shown and `b` is
their typical width. This is the slot less three and less the root of what an
entry falls short of it on average, but at least one. All is squared out, so
the comparison is exact. -/
def allows (e : Entries) (k : Nat) : Bool :=
  let square : Nat := (2 * k - 1) * (2 * k - 1)
  let goal : Nat := 10 * e.shown.length
  let excess : Int := (e.slot - 3 : Int) * square - goal
  let shortfall : Nat := e.slot * e.toList.length - e.total
  square ≤ goal &&
    (excess ≤ 0 || excess * excess * e.toList.length ≤ shortfall * (square * square : Int))

/-- The number of columns of a table. -/
def columnCount (e : Entries) : Nat :=
  ((List.range (min mostColumns (lineLength / e.slot) + 1)).filter e.allows).getLastD 1

/-- The rows of a table of `k` columns. -/
def rows {α : Type} (k : Nat) (l : List α) : List (List α) :=
  (List.range ((l.length + k - 1) / k)).map fun i => (l.drop (i * k)).take k

/-- The width of each of the `k` columns of a table. -/
def columnWidths (k : Nat) (widths : List Nat) : List Nat :=
  (List.range k).map fun i => ((rows k widths).filterMap fun row => row[i]?).foldl max 0

/-- A row whose entries stand at the ends of their columns. -/
def rightRow (widths : List Nat) (row : List String) : String :=
  String.intercalate ", " (List.zipWith
    (fun w s => String.ofList (List.replicate (w - width s.toList) ' ') ++ s) widths row)

/-- A row whose entries stand at the starts of their columns. -/
def leftRow : List Nat → List String → String
  | _, [s] => s
  | w :: ws, s :: row =>
    s ++ ", " ++ String.ofList (List.replicate (w - width s.toList) ' ') ++ leftRow ws row
  | _, _ => ""

/-- The lines of a table, or none if it has one column only. -/
def table? (e : Entries) (toRight : Bool) : Option (List String) :=
  let k := e.columnCount
  if e.isTable && 1 < k then
    let widths := columnWidths k e.widths
    let line := if toRight then rightRow widths else leftRow widths
    some ((rows k e.shown).map line ++ e.remark.toList)
  else none

end Entries

/-- Lines between two brackets, each on its own. -/
def stacked (left right : String) (lines : List String) : String :=
  left ++ "\n  " ++ String.intercalate ",\n  " lines ++ "\n" ++ right

/-- Entries between two brackets, on one line if they fit. -/
def bracketed (left right : String) (entries : List String) : String :=
  if entries.isEmpty then left ++ right
  else if fitOneLine entries then
    left ++ " " ++ String.intercalate ", " entries ++ " " ++ right
  else stacked left right entries

/-- The entries of a list in brackets, as a table if they are many. The entries
of a table of numbers stand at the ends of their columns. -/
def tabulated (numbers : Bool) (e : Entries) : String :=
  match e.table? numbers with
  | some lines => stacked "[" "]" lines
  | none => bracketed "[" "]" e.toList

end Text

end EpochClaims
