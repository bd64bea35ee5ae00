import EpochClaims.Argument.Basic
import EpochClaims.Binary64.Reading

/-!
# Arguments that are used as numbers

Where a call reckons with an argument it takes it for a number: null and false
count as zero, true as one, a missing argument as NaN, and everything else is
read from its spelling. Only `next` treats text in another way.
-/

namespace EpochClaims

/-- The number that a document counts as. -/
def Document.asNumber : Document → Binary64
  | null => 0
  | bool b => if b then Binary64.ofInt 1 else 0
  | number x => x
  | d => Binary64.ofText d.spelled.toList

namespace Argument

/-- The number that a value counts as. -/
def asNumber : Argument → Binary64
  | missing => .nan
  | given d => d.asNumber

/-- The value that is one more: a one is put behind the spelling of a text, a
list or an object, and added to everything else. -/
def next : Argument → Argument
  | text s => text (s ++ "1")
  | list items => text ((list items).spelled ++ "1")
  | object fields => text ((object fields).spelled ++ "1")
  | v => number v.asNumber.succ

@[simp] theorem asNumber_number (x : Binary64) : (number x).asNumber = x := rfl

@[simp] theorem next_number (x : Binary64) : (number x).next = number x.succ := rfl

end Argument

end EpochClaims
