import EpochClaims.Argument.Number
import EpochClaims.Text.Units

/-!
# Lengths and members

A call that expects a text or a list may ask any value how long it is, whether
that is at most some other value, and what it names in a list. Lengths are
numbers, but an object says its length itself and so can say anything.
-/

namespace EpochClaims

namespace Argument

/-- The length of a value: a text has as many 16-bit units, a list as many
members, and an object says it in a field. -/
def length : Argument → Argument
  | text s => number (Binary64.ofInt (Text.length16 s.toList))
  | list items => number (Binary64.ofInt items.length)
  | v => v.field "length"

/-- A value as it is compared: a list or an object by its spelling. -/
def compared : Argument → Argument
  | list items => text (list items).spelled
  | object fields => text (object fields).spelled
  | v => v

/-- Whether a value is at most another one: texts by their units, everything
else as numbers. -/
def atMost (v w : Argument) : Bool :=
  match v.compared, w.compared with
  | text s, text t => !(Text.units t.toList).lex (Text.units s.toList) fun x y => decide (x < y)
  | v, w => v.asNumber.atMost w.asNumber

/-- What a value names in a list: a member by its place, as a number or spelled,
and the number of members by the name of the length. -/
def memberOf? (index : Argument) (items : List Document) : Option Document :=
  if index.spelled = "length" then some (.number (Binary64.ofInt items.length))
  else (items.zipIdx.find? fun m => toString m.2 = index.spelled).map Prod.fst

@[simp] theorem length_text (s : String) :
    (text s).length = number (Binary64.ofInt (Text.length16 s.toList)) := rfl

@[simp] theorem length_list (items : List Document) :
    (list items).length = number (Binary64.ofInt items.length) := rfl

@[simp] theorem atMost_number (x y : Binary64) : (number x).atMost (number y) = x.atMost y := rfl

end Argument

end EpochClaims
