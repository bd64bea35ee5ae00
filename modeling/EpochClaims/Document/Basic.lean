import EpochClaims.Binary64.Basic

/-!
# Documents

A document is a tree of lists and named fields over truth values, numbers and
text. Configurations arrive as documents, a cache holds them, and so is
whatever a caller hands in. Only the outermost layer of a document may be
absent, which is written as an `Option` where it can happen.

`beq` compares documents part by part, and `beq_iff` says that it decides
equality.
-/

namespace EpochClaims

/-- A tree of lists and named fields. -/
inductive Document where
  | null
  | bool (b : Bool)
  | number (x : Binary64)
  | text (s : String)
  | list (items : List Document)
  | object (fields : List (String × Document))
  deriving Inhabited

namespace Document

mutual

/-- Equality of documents. -/
def beq : Document → Document → Bool
  | null, null => true
  | bool b, bool c => b == c
  | number x, number y => x == y
  | text s, text t => s == t
  | list l, list m => beqItems l m
  | object l, object m => beqFields l m
  | _, _ => false

/-- Equality of lists of documents. -/
def beqItems : List Document → List Document → Bool
  | [], [] => true
  | d :: l, e :: m => beq d e && beqItems l m
  | _, _ => false

/-- Equality of lists of fields. -/
def beqFields : List (String × Document) → List (String × Document) → Bool
  | [], [] => true
  | (k, d) :: l, (n, e) :: m => k == n && beq d e && beqFields l m
  | _, _ => false

end

mutual

theorem beq_iff : ∀ d e : Document, beq d e = true ↔ d = e
  | null, e => by cases e <;> simp [beq]
  | bool _, e => by cases e <;> simp [beq]
  | number _, e => by cases e <;> simp [beq]
  | text _, e => by cases e <;> simp [beq]
  | list l, e => by cases e <;> simp [beq, beqItems_iff l]
  | object l, e => by cases e <;> simp [beq, beqFields_iff l]

theorem beqItems_iff : ∀ l m : List Document, beqItems l m = true ↔ l = m
  | [], m => by cases m <;> simp [beqItems]
  | d :: l, m => by cases m <;> simp [beqItems, beq_iff d, beqItems_iff l]

theorem beqFields_iff : ∀ l m : List (String × Document), beqFields l m = true ↔ l = m
  | [], m => by cases m <;> simp [beqFields]
  | (_, d) :: l, m => by cases m <;> simp [beqFields, beq_iff d, beqFields_iff l, Prod.ext_iff]

end

instance : DecidableEq Document := fun d e => decidable_of_iff _ (beq_iff d e)

/-- The word for the kind of a document. -/
def kind : Document → String
  | null => "null"
  | bool _ => "boolean"
  | number _ => "number"
  | text _ => "string"
  | list _ => "array"
  | object _ => "object"

/-- Whether a document counts as nothing: null, the truth value false, zero,
NaN and the empty text do. -/
def isVoid : Document → Bool
  | null => true
  | bool b => !b
  | number x => x = .nan || x.key = 0
  | text s => s.isEmpty
  | list _ => false
  | object _ => false

/-- The field of an object under a name. -/
def field? (fields : List (String × Document)) (name : String) : Option Document :=
  fields.lookup name

end Document

end EpochClaims
