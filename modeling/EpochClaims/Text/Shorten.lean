import EpochClaims.Argument.Size
import EpochClaims.Text.Units

/-!
# Shortened text

A text that is too long to show keeps equal parts of its beginning and its end,
with three dots between them, so that all fits into the length allowed. Lengths
are counted in 16-bit units. If no unit fits beside the dots, only the dots are
left.

The length allowed is a number of any kind. Under NaN every text is too long,
nothing of its beginning is kept and all of its end.

A list is shortened in the same way by its members, and what is left of it is
spelled. Of all other documents only the dots are left.
-/

namespace EpochClaims

namespace Text

/-- What stands for the part left out. -/
def ellipsis : List Char := ['.', '.', '.']

/-- The units of each part that is kept, if `limit` is finite. -/
def keptUnits? (limit : Binary64) : Option Int :=
  limit.floor?.map fun n => (n - 3).fdiv 2

/-- How many of `length` units are kept at the beginning and at the end of what
is too long; none if only the dots are left. -/
def keptParts? (limit : Binary64) (length : Nat) : Option (Nat × Nat) :=
  if limit = .nan then some (0, length)
  else
    match keptUnits? limit with
    | some (.ofNat (n + 1)) => some (n + 1, n + 1)
    | _ => none

/-- A text with its middle left out. -/
def abridge (limit : Binary64) (s : List Char) : List Char :=
  match keptParts? limit (length16 s) with
  | some (front, back) => take16 front s ++ ellipsis ++ takeLast16 back s
  | none => ellipsis

/-- The length allowed by default. -/
def defaultLimit : Argument := .number (Binary64.ofInt 18)

end Text

namespace Document

/-- The spelling of a list with its middle left out. -/
def abridgeItems (limit : Binary64) (items : List Document) : String :=
  let dots := String.ofList Text.ellipsis
  match Text.keptParts? limit items.length with
  | some (front, back) =>
    (list (items.take front)).spelled ++ dots ++ (list (items.drop (items.length - back))).spelled
  | none => dots

/-- A document with its middle left out. -/
def abridge (limit : Binary64) : Document → String
  | text s => String.ofList (Text.abridge limit s.toList)
  | list items => abridgeItems limit items
  | _ => String.ofList Text.ellipsis

/-- A document with its middle left out, if it is longer than allowed. -/
def shorten (limit : Argument) (d : Document) : Document :=
  let limit := limit.orElse Text.defaultLimit
  if (Argument.given d).length.atMost limit then d else text (d.abridge limit.asNumber)

end Document

end EpochClaims
