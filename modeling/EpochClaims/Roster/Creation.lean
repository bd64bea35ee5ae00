import EpochClaims.Argument.Size
import EpochClaims.Mask.Checked
import EpochClaims.Roster.Basic

/-!
# Making a roster

A roster is made from a list of one to `maxSlots` addresses, none of them the
zero address and no two of them the same. The size of the list is checked
first, then its entries in order, and the first entry that cannot be used is
the one that is named.

Whatever is handed in for a list, `read` makes a roster of it or refuses it: a
text is the list of its characters, and all other values have no members, so
that only their length can be told.

A slot may be named by its number or by the spelling of its number, but only
the number itself makes a slot vacant.
-/

namespace EpochClaims

/-- A roster together with its number of slots. -/
structure SizedRoster where
  capacity : Nat
  roster : Roster capacity

namespace SizedRoster

/-- Why a list of addresses makes no roster. -/
inductive Fault where
  | empty
  | tooMany (count : Argument)
  | notAddress (given : Argument)
  | zeroAddress
  | duplicate (validator : Address)
  deriving DecidableEq, Repr

/-- The wording of each refusal. -/
def Fault.message : Fault → String
  | empty => "Validator roster must not be empty"
  | tooMany count =>
    "Validator roster holds at most " ++ toString maxSlots ++ " validators, got " ++
      count.spelled
  | notAddress given => "Invalid validator address " ++ given.spelled
  | zeroAddress => "Validator roster must not contain the zero address"
  | duplicate validator => "Duplicate validator " ++ validator.text

/-- The report of a list that makes no roster. -/
def Fault.report (f : Fault) : Report :=
  Report.invalidConfig (.text f.message) .missing

/-- The address of an entry that may follow the entries before it. -/
def accept (before : List Address) (given : Argument) : Except Fault Address :=
  match Address.ofText? given.spelled.toList with
  | none => .error (.notAddress given)
  | some a =>
    if a = Address.zero then .error .zeroAddress
    else if a ∈ before then .error (.duplicate a)
    else .ok a

/-- The addresses of the entries in order, given those before them. -/
def acceptAll : List Address → List Argument → Except Fault (List Address)
  | before, [] => .ok before
  | before, given :: rest =>
    match accept before given with
    | .ok a => acceptAll (before ++ [a]) rest
    | .error f => .error f

/-- The roster whose slots hold the given addresses in order. -/
def ofAddresses (addresses : List Address) : SizedRoster :=
  ⟨addresses.length, ⟨⟨(addresses.map some).toArray, by simp⟩⟩⟩

/-- Makes a roster from a list of validators. -/
def create (given : List Argument) : Except Fault SizedRoster :=
  if given.isEmpty then .error .empty
  else if maxSlots < given.length then .error (.tooMany (.number (Binary64.ofInt given.length)))
  else (acceptAll [] given).map ofAddresses

/-- Makes a roster from what was handed in for a list of validators. -/
def read (given : Argument) : Except Fault SizedRoster :=
  match given with
  | .list items => create (items.map .given)
  | .text s =>
    if maxSlots < Text.length16 s.toList then .error (.tooMany given.length)
    else create (s.toList.map fun c => .text (String.singleton c))
  | _ => .error (if given.length.same (.number 0) then .empty else .tooMany given.length)

/-- The slot of a number. -/
def slotOfNumber? (r : SizedRoster) (index : Binary64) : Option (Fin r.capacity) :=
  match index.toNat? with
  | some i => if h : i < r.capacity then some ⟨i, h⟩ else none
  | none => none

/-- The slots as a list, null where they are vacant. -/
def documents (r : SizedRoster) : List Document :=
  r.roster.slots.toList.map fun s => match s with
    | some a => .text a.text
    | none => .null

/-- What a value names among the slots, if that is not null. -/
def at? (r : SizedRoster) (index : Argument) : Option Document :=
  (index.memberOf? r.documents).filter fun d => d ≠ .null

/-- The roster after a slot is made vacant, or `none` if nothing is named. Only
a number makes a slot vacant, anything else that names something leaves the
roster as it is. -/
def remove? (r : SizedRoster) (index : Argument) : Option SizedRoster :=
  if (r.at? index).isNone then none
  else
    match index.number?.bind r.slotOfNumber? with
    | some i => some ⟨r.capacity, r.roster.remove i⟩
    | none => some r

end SizedRoster

end EpochClaims
