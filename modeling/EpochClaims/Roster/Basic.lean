import EpochClaims.Address
import EpochClaims.Mask.Basic

/-!
# Rosters

A roster has `n` slots. A slot holds a validator until that validator is
removed, and stays vacant from then on, so a validator's slot number never
changes. Slots are looked up in a table, which `lookup` builds from them: a
validator is found by any spelling that agrees with its address in lower case.

`slot_remove` says what removal does to the slots and `mem_occupied` what the
occupied mask holds; all else about rosters follows from the two.
-/

namespace EpochClaims

/-- The `n` slots of the validators. -/
structure Roster (n : Nat) where
  slots : Vector (Option Address) n
  deriving DecidableEq

namespace Roster

variable {n : Nat}

/-- The validator in a slot, or `none` if the slot is vacant. -/
def slot (r : Roster n) (i : Fin n) : Option Address :=
  r.slots.get i

/-- The form of a spelling that lookups compare. -/
def lookupKey (s : String) : List Char :=
  s.toList.map Char.toLower

/-- A lookup table with the validator of a slot entered, in place of what stood
under the same form. -/
def enter (r : Roster n) (table : List Char → Option (Fin n)) (i : Fin n) :
    List Char → Option (Fin n) :=
  match r.slot i with
  | some a => fun key => if a.key = key then some i else table key
  | none => table

/-- The lookup table of the slots, entered in order. -/
def lookup (r : Roster n) : List Char → Option (Fin n) :=
  (List.finRange n).foldl r.enter fun _ => none

/-- The slot of the validator that a text spells. -/
def indexOf (r : Roster n) (s : String) : Option (Fin n) :=
  r.lookup (lookupKey s)

/-- The roster with one slot vacant. -/
def remove (r : Roster n) (i : Fin n) : Roster n :=
  ⟨r.slots.set i none i.isLt⟩

/-- The mask of the occupied slots. -/
def occupied (r : Roster n) : Mask n :=
  (List.finRange n).foldl (fun m i => if (r.slot i).isSome then m.insert i else m) Mask.empty

theorem slot_eq_getElem (r : Roster n) (i : Fin n) :
    r.slot i = getElem r.slots i.val i.isLt := rfl

/-- Removal makes its slot vacant and no other. -/
theorem slot_remove (r : Roster n) (i j : Fin n) :
    (r.remove i).slot j = if i = j then none else r.slot j := by
  simp [slot_eq_getElem, remove, Vector.getElem_set, Fin.ext_iff]

/-- A roster is what its slots hold. -/
theorem ext {r s : Roster n} (h : ∀ i, r.slot i = s.slot i) : r = s := by
  cases r
  cases s
  congr 1
  exact Vector.ext fun i hi => h ⟨i, hi⟩

/-- The occupied mask holds the slots that are not vacant. -/
@[simp] theorem mem_occupied {r : Roster n} {i : Fin n} :
    i ∈ r.occupied ↔ (r.slot i).isSome = true := by
  have general : ∀ (l : List (Fin n)) (m : Mask n),
      i ∈ l.foldl (fun m i => if (r.slot i).isSome then m.insert i else m) m ↔
        i ∈ m ∨ (i ∈ l ∧ (r.slot i).isSome = true) := by
    intro l
    induction l with
    | nil => simp
    | cons j l ih =>
      intro m
      rw [List.foldl_cons, ih]
      by_cases hj : (r.slot j).isSome <;> by_cases hij : i = j <;> simp_all
  simpa [occupied] using general (List.finRange n) Mask.empty

end Roster

end EpochClaims
