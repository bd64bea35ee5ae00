import EpochClaims.Document.Spelling

/-!
# What a caller hands in

Where a call expects text or a number, a caller may hand in any document, or
leave the argument out. Such a value is never accepted in place of what is
expected, but it is named in the refusal as it was given, so it is kept. A
table may have any of them for a key.

`same` is equality of values and `sameKey` equality of keys. A list or an
object is told apart from every other one by where it comes from, not by what
it holds, so it is the same as nothing that is handed in elsewhere. NaN is not
the same as itself, but it is one key. The two zeros are the same number and
the same key.
-/

namespace EpochClaims

/-- A document, or nothing where an argument was left out. -/
inductive Argument where
  | missing
  | given (document : Document)
  deriving DecidableEq, Repr, Inhabited

namespace Argument

/-- Null, handed in as such. -/
@[match_pattern] abbrev null : Argument := given .null

/-- A truth value. -/
@[match_pattern] abbrev bool (b : Bool) : Argument := given (.bool b)

/-- A number. -/
@[match_pattern] abbrev number (x : Binary64) : Argument := given (.number x)

/-- A text. -/
@[match_pattern] abbrev text (s : String) : Argument := given (.text s)

/-- A list. -/
@[match_pattern] abbrev list (items : List Document) : Argument := given (.list items)

/-- An object. -/
@[match_pattern] abbrev object (fields : List (String × Document)) : Argument :=
  given (.object fields)

/-- An argument that may be absent. -/
def ofOption : Option Document → Argument
  | none => missing
  | some d => given d

/-- The document of an argument. -/
def toOption : Argument → Option Document
  | missing => none
  | given d => some d

/-- What a caller handed in, or something else if it left that out. -/
def orElse : Argument → Argument → Argument
  | missing, default => default
  | given d, _ => given d

/-- The characters of a text, and `none` for all other values. -/
def chars? : Argument → Option (List Char)
  | text s => some s.toList
  | _ => none

/-- The number that a value is, and `none` for all other values. -/
def number? : Argument → Option Binary64
  | number x => some x
  | _ => none

/-- The natural number that a value is, if it is one. -/
def toNat? (v : Argument) : Option Nat :=
  v.number?.bind Binary64.toNat?

/-- The field of an object under a name; missing in all other values. -/
def field (name : String) : Argument → Argument
  | object fields => ofOption (Document.field? fields name)
  | _ => missing

/-- What stands first in a value: the first member of a list, the first
character of a text, or the field of an object that is named zero. -/
def first : Argument → Argument
  | list items => ofOption items.head?
  | text s => ofOption (s.toList.head?.map fun c => .text (String.singleton c))
  | object fields => ofOption (Document.field? fields "0")
  | _ => missing

/-- Whether a value counts as nothing. -/
def isVoid : Argument → Bool
  | missing => true
  | given d => d.isVoid

/-- Equality of values. -/
def same : Argument → Argument → Bool
  | number x, number y => x.sameNumber y
  | list _, _ => false
  | object _, _ => false
  | v, w => v == w

/-- The representative of a value among those that are the same key. Lists and
objects have none, since each of them is a key that is found nowhere else. -/
def key? : Argument → Option Argument
  | number x => some (number x.key)
  | list _ => none
  | object _ => none
  | v => some v

/-- The same key of a table. -/
def sameKey (v w : Argument) : Bool :=
  match v.key?, w.key? with
  | some k, some l => k == l
  | _, _ => false

/-- How a value reads inside a message. -/
def spelled : Argument → String
  | missing => "undefined"
  | given d => d.spelled

@[simp] theorem spelled_text (s : String) : (text s).spelled = s := rfl

@[simp] theorem chars?_text (s : String) : (text s).chars? = some s.toList := rfl

@[simp] theorem toNat?_number (x : Binary64) : (number x).toNat? = x.toNat? := rfl

@[simp] theorem same_number (x y : Binary64) :
    same (number x) (number y) = x.sameNumber y := rfl

/-- Numbers are the same key as values if they are so as numbers. -/
@[simp] theorem sameKey_number (x y : Binary64) :
    sameKey (number x) (number y) = x.sameKey y := by
  rw [Bool.eq_iff_iff]
  simp [sameKey, key?, Binary64.sameKey]

/-- Texts are the same key if they are equal. -/
@[simp] theorem sameKey_text (s t : String) : sameKey (text s) (text t) = (s == t) := by
  rw [Bool.eq_iff_iff]
  simp [sameKey, key?]

/-- Two values are the same key if they have a representative in common. -/
theorem sameKey_iff {v w : Argument} :
    sameKey v w = true ↔ ∃ k, v.key? = some k ∧ w.key? = some k := by
  rw [sameKey]
  cases v.key? with
  | none => simp
  | some k =>
    cases w.key? with
    | none => simp
    | some l => exact ⟨fun h => ⟨k, rfl, by rw [beq_iff_eq.1 h]⟩, fun ⟨_, hk, hl⟩ => by simp_all⟩

end Argument

end EpochClaims
