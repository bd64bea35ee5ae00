import EpochClaims.Document.Basic
import EpochClaims.Raised

/-!
# The cache

A cache keeps documents under an epoch and a name. Each epoch has a shelf,
made when the first entry is put there and dropped as a whole by `clear`.
Epochs and names are told apart as keys: negative zero is zero, NaN is one key,
and a value that is no number is a key like any other. An entry under a list or
an object could not be found again and is not kept. The view of a cache is
`get`; `get_set`, `get_delete` and `get_clear` say what the operations do to
it.

A cache may be faulty. Its faults are listed; an operation is refused by the
first fault for it that names no epoch or one that is the same as the epoch
asked for.
-/

namespace EpochClaims

/-- The entries of one epoch by their names as keys, the latest in front. -/
abbrev Shelf := List (Argument × Document)

/-- The shelves of a cache by their epochs as keys. -/
structure Shelves where
  shelves : List (Argument × Shelf)

namespace Shelves

/-- A cache without entries. -/
def empty : Shelves := ⟨[]⟩

/-- The shelf of a key, empty if there is none. -/
def shelf (c : Shelves) (key : Argument) : Shelf :=
  (c.shelves.lookup key).getD []

/-- The cache with another shelf for a key. -/
def withShelf (c : Shelves) (key : Argument) (s : Shelf) : Shelves :=
  ⟨(key, s) :: c.shelves.filter fun e => e.1 != key⟩

/-- A document that is not null. -/
def present? (d : Document) : Option Document :=
  match d with
  | .null => none
  | d => some d

/-- The document of an entry; none if there is no entry or it holds null. -/
def get (c : Shelves) (epoch name : Argument) : Option Document :=
  match epoch.key?, name.key? with
  | some e, some n => ((c.shelf e).lookup n).bind present?
  | _, _ => none

/-- Puts a document under an epoch and a name. -/
def set (c : Shelves) (epoch name : Argument) (d : Document) : Shelves :=
  match epoch.key?, name.key? with
  | some e, some n => c.withShelf e ((n, d) :: (c.shelf e).filter fun x => x.1 != n)
  | _, _ => c

/-- Removes an entry. Where there is no shelf, none is made. -/
def delete (c : Shelves) (epoch name : Argument) : Shelves :=
  match epoch.key?, name.key? with
  | some e, some n =>
    match c.shelves.lookup e with
    | some s => c.withShelf e (s.filter fun x => x.1 != n)
    | none => c
  | _, _ => c

/-- Removes all entries of an epoch. -/
def clear (c : Shelves) (epoch : Argument) : Shelves :=
  match epoch.key? with
  | some e => ⟨c.shelves.filter fun x => x.1 != e⟩
  | none => c

theorem lookup_filter_ne {α β : Type} [BEq α] [LawfulBEq α] (l : List (α × β)) (a b : α) :
    (l.filter fun e => e.1 != a).lookup b = if b == a then none else l.lookup b := by
  induction l with
  | nil => simp
  | cons e l ih =>
    obtain ⟨k, v⟩ := e
    by_cases hk : k = a
    · subst hk
      simp only [List.filter_cons, bne_self_eq_false, Bool.false_eq_true, if_false, ih]
      by_cases hb : b = k
      · subst hb; simp
      · have hbk : (b == k) = false := by simpa using hb
        simp [List.lookup_cons, hbk]
    · have hka : (k != a) = true := by simpa using hk
      simp only [List.filter_cons, hka, if_true, List.lookup_cons, ih]
      by_cases hb : b = k
      · subst hb
        have : (b == a) = false := by simpa using hk
        simp [this]
      · have hbk : (b == k) = false := by simpa using hb
        simp [hbk]

/-- Another shelf for one key leaves those of the others. -/
theorem shelf_withShelf (c : Shelves) (e f : Argument) (s : Shelf) :
    (c.withShelf e s).shelf f = if f = e then s else c.shelf f := by
  simp only [shelf, withShelf, List.lookup_cons]
  by_cases h : f = e
  · simp [h]
  · have hfe : (f == e) = false := by simpa using h
    simp [h, hfe, lookup_filter_ne]

/-- An entry that was put reads back, all others read as before. -/
theorem get_set (c : Shelves) (e f name other : Argument) (d : Document) :
    (c.set e name d).get f other =
      if f.sameKey e ∧ other.sameKey name then present? d else c.get f other := by
  rcases hf : f.key? with _ | k <;> rcases ho : other.key? with _ | m <;>
    rcases he : e.key? with _ | l <;> rcases hn : name.key? with _ | n <;>
    simp only [get, set, Argument.sameKey, hf, ho, he, hn, Bool.false_eq_true, and_false,
      false_and, if_false]
  by_cases hkl : k = l
  · by_cases hmn : m = n
    · simp [shelf_withShelf, hkl, hmn]
    · have hb : (m == n) = false := by simpa using hmn
      simp [shelf_withShelf, hkl, hb, List.lookup_cons, lookup_filter_ne]
  · simp [shelf_withShelf, hkl]

/-- A removal takes its entry from one shelf, whether or not there is one. -/
theorem shelf_delete (c : Shelves) {epoch name e n : Argument} (he : epoch.key? = some e)
    (hn : name.key? = some n) (f : Argument) :
    (c.delete epoch name).shelf f =
      if f = e then (c.shelf e).filter fun x => x.1 != n else c.shelf f := by
  simp only [delete, he, hn]
  cases hs : c.shelves.lookup e with
  | none =>
    by_cases hf : f = e
    · subst hf
      simp [shelf, hs]
    · rw [if_neg hf]
  | some s =>
    have hshelf : c.shelf e = s := by rw [shelf, hs, Option.getD_some]
    rw [shelf_withShelf, hshelf]

/-- A removed entry reads as none, all others as before. -/
theorem get_delete (c : Shelves) (e f name other : Argument) :
    (c.delete e name).get f other =
      if f.sameKey e ∧ other.sameKey name then none else c.get f other := by
  rcases hf : f.key? with _ | k <;> rcases ho : other.key? with _ | m <;>
    rcases he : e.key? with _ | l <;> rcases hn : name.key? with _ | n <;>
    simp only [get, delete, Argument.sameKey, hf, ho, he, hn, Bool.false_eq_true, and_false,
      false_and, if_false]
  have hshelf := c.shelf_delete he hn k
  simp only [delete, he, hn] at hshelf
  rw [hshelf]
  by_cases hkl : k = l
  · by_cases hmn : m = n <;> simp [hkl, hmn, lookup_filter_ne]
  · simp [hkl]

/-- The entries of a cleared epoch read as none, all others as before. -/
theorem get_clear (c : Shelves) (e f name : Argument) :
    (c.clear e).get f name = if f.sameKey e then none else c.get f name := by
  rcases hf : f.key? with _ | k <;> rcases hn : name.key? with _ | n <;>
    rcases he : e.key? with _ | l <;>
    simp only [get, clear, Argument.sameKey, hf, hn, he, Bool.false_eq_true, if_false, ite_self]
  by_cases hkl : k = l <;> simp [shelf, lookup_filter_ne, hkl]

end Shelves

/-- The operations of a cache that can be faulty. -/
inductive CacheOperation where
  | get
  | set
  deriving DecidableEq, Repr

/-- A fault: the operation it concerns, the epoch if it concerns one only, and
what is raised. -/
structure CacheFault where
  operation : CacheOperation
  epoch : Option Argument
  raised : Raised
  deriving DecidableEq, Repr

/-- A cache with its faults. -/
structure Cache where
  content : Shelves
  faults : List CacheFault

namespace Cache

/-- An empty cache with the given faults. -/
def empty (faults : List CacheFault) : Cache := ⟨Shelves.empty, faults⟩

/-- Whether a fault concerns an operation on an epoch. -/
def concerns (operation : CacheOperation) (epoch : Argument) (f : CacheFault) : Bool :=
  f.operation == operation &&
    match f.epoch with
    | none => true
    | some e => e.same epoch

/-- What an operation on an epoch raises, if it is refused. -/
def refusal? (c : Cache) (operation : CacheOperation) (epoch : Argument) : Option Raised :=
  (c.faults.find? (concerns operation epoch)).map CacheFault.raised

/-- Reads an entry. -/
def get (c : Cache) (epoch name : Argument) : Except Raised (Option Document) :=
  match c.refusal? .get epoch with
  | some r => .error r
  | none => .ok (c.content.get epoch name)

/-- Writes an entry. -/
def set (c : Cache) (epoch name : Argument) (d : Document) : Except Raised Cache :=
  match c.refusal? .set epoch with
  | some r => .error r
  | none => .ok { c with content := c.content.set epoch name d }

/-- Removes an entry. -/
def delete (c : Cache) (epoch name : Argument) : Cache :=
  { c with content := c.content.delete epoch name }

/-- Removes all entries of an epoch. -/
def clear (c : Cache) (epoch : Argument) : Cache :=
  { c with content := c.content.clear epoch }

end Cache

end EpochClaims
