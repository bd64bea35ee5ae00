import EpochClaims.Binary64.Reading
import EpochClaims.Document.Spelling
import EpochClaims.Text.Layout
import EpochClaims.Text.Quoted

/-!
# How documents are displayed

A line of the journal displays a document where it expects a name. Plain values
read as in a message, but zero keeps its sign. A list or an object is displayed
with its members in brackets; texts among them are quoted, and of lists and
objects among them only the kind is shown, unless they are empty. At most
`mostMembers` members of a list are shown.
-/

namespace EpochClaims

namespace Document

/-- The name that is reserved and shown in brackets. -/
def reservedName : String := "__proto__"

/-- Whether a name needs no quotation marks. -/
def isPlainName (s : List Char) : Bool :=
  let isLetter (c : Char) : Bool := c.isAlpha || c = '_'
  match s with
  | [] => false
  | c :: s => isLetter c && s.all fun c => isLetter c || c.isDigit

/-- The name of a field. -/
def displayedName (name : String) : String :=
  if name = reservedName then "['" ++ name ++ "']"
  else if isPlainName name.toList then name
  else String.ofList (Text.quoted name.toList)

/-- The number that a name is, if it could be the place of a member. -/
def place? (name : String) : Option Nat :=
  (Binary64.readNat? 10 name.toList).filter fun n => toString n = name && n < Nat.pow 2 32 - 1

/-- Fields in the order of their display: those whose names are places come
first, in the order of these. -/
def inPlaces (fields : List (String × Document)) : List (String × Document) :=
  let placed := fields.filterMap fun f => (place? f.1).map fun n => (n, f)
  (placed.mergeSort fun p q => p.1 ≤ q.1).map Prod.snd ++
    fields.filter fun f => (place? f.1).isNone

/-- A member of a list or an object. -/
def displayedMember : Document → String
  | text s => Text.quotedParts s.toList
  | number x => x.logText
  | list [] => "[]"
  | list _ => "[Array]"
  | object [] => "\x7b\x7d"
  | object _ => "[Object]"
  | d => d.spelled

/-- Whether a document is a number. -/
def isNumber : Document → Bool
  | number _ => true
  | _ => false

/-- The most members of a list that are shown. -/
def mostMembers : Nat := 100

/-- The members of a list as they are shown. -/
def displayedMembers (items : List Document) : Text.Entries :=
  let left := items.length - mostMembers
  ⟨(items.take mostMembers).map displayedMember,
    if left = 0 then none else some (Text.moreOf left "item")⟩

/-- How a document is displayed where a name is expected. -/
def displayed : Document → String
  | number x => x.logText
  | list items =>
    Text.tabulated ((items.take (mostMembers + 1)).all isNumber) (displayedMembers items)
  | object fields =>
    Text.bracketed "\x7b" "\x7d"
      ((inPlaces fields).map fun f => displayedName f.1 ++ ": " ++ displayedMember f.2)
  | d => d.spelled

end Document

end EpochClaims
