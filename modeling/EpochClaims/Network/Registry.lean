/-!
# Registries

A registry holds objects in the order in which they were made. An object is
known by its handle, the number of objects made before it, and may be found by
a name. Adding an object under a name that is in use gives the name to the new
object; the old one stays where it is, and whoever holds its handle goes on
with it.
-/

namespace EpochClaims

/-- Objects in the order in which they were made, and the names they go by. -/
structure Registry (α : Type) where
  objects : List α
  names : List (String × Nat)

namespace Registry

variable {α : Type}

/-- A registry without objects. -/
def empty : Registry α := ⟨[], []⟩

/-- The number of objects, which is the handle of the next one. -/
def size (r : Registry α) : Nat := r.objects.length

/-- The object of a handle. -/
def get? (r : Registry α) (handle : Nat) : Option α := r.objects[handle]?

/-- The handle of a name. -/
def handle? (r : Registry α) (name : String) : Option Nat := r.names.lookup name

/-- The object of a name. -/
def find? (r : Registry α) (name : String) : Option α := (r.handle? name).bind r.get?

/-- Adds an object under a name. -/
def add (r : Registry α) (name : String) (a : α) : Registry α :=
  ⟨r.objects ++ [a], (name, r.size) :: r.names⟩

/-- Adds an object under a name unless the name is in use. -/
def ensure (r : Registry α) (name : String) (a : α) : Registry α :=
  match r.handle? name with
  | some _ => r
  | none => r.add name a

/-- Changes the object of a handle. -/
def modify (r : Registry α) (handle : Nat) (f : α → α) : Registry α :=
  { r with objects := r.objects.modify handle f }

/-- Changes the object of a name. -/
def update (r : Registry α) (name : String) (f : α → α) : Registry α :=
  match r.handle? name with
  | some handle => r.modify handle f
  | none => r

/-- The sum of a measure over a list. -/
def sumOf (measure : α → Nat) : List α → Nat
  | [] => 0
  | a :: l => measure a + sumOf measure l

/-- The sum of a measure over all objects. -/
def total (r : Registry α) (measure : α → Nat) : Nat :=
  sumOf measure r.objects

@[simp] theorem handle?_modify (r : Registry α) (handle : Nat) (f : α → α) (name : String) :
    (r.modify handle f).handle? name = r.handle? name := rfl

theorem get?_modify (r : Registry α) (i j : Nat) (f : α → α) :
    (r.modify i f).get? j = (fun a => if i = j then f a else a) <$> r.get? j := by
  simp [get?, modify, List.getElem?_modify]

@[simp] theorem get?_modify_self (r : Registry α) (i : Nat) (f : α → α) :
    (r.modify i f).get? i = (r.get? i).map f := by
  simp [get?_modify]

theorem get?_modify_of_ne (r : Registry α) {i j : Nat} (h : i ≠ j) (f : α → α) :
    (r.modify i f).get? j = r.get? j := by
  simp [get?_modify, h]

/-- A name that was just given to an object finds it. -/
@[simp] theorem find?_add_self (r : Registry α) (name : String) (a : α) :
    (r.add name a).find? name = some a := by
  simp [find?, handle?, get?, add, size]

/-- An object is added under the next handle. -/
@[simp] theorem get?_add_size (r : Registry α) (name : String) (a : α) :
    (r.add name a).get? r.size = some a := by
  simp [get?, add, size]

/-- Handles go on to name the same objects when another one is added. -/
theorem get?_add (r : Registry α) (name : String) (a : α) {i : Nat} {b : α}
    (h : r.get? i = some b) : (r.add name a).get? i = some b := by
  have hi : i < r.objects.length := (List.getElem?_eq_some_iff.1 h).1
  simpa [get?, add, List.getElem?_append_left hi] using h

theorem sumOf_concat (measure : α → Nat) (l : List α) (a : α) :
    sumOf measure (l ++ [a]) = sumOf measure l + measure a := by
  induction l with
  | nil => simp [sumOf]
  | cons b l ih =>
    simp only [List.cons_append, sumOf, ih]
    omega

theorem sumOf_modify (measure : α → Nat) (f : α → α) :
    ∀ (l : List α) (i : Nat) {a : α}, l[i]? = some a →
      sumOf measure (l.modify i f) + measure a = sumOf measure l + measure (f a)
  | [], _, _, h => by simp at h
  | b :: l, 0, a, h => by
    obtain rfl : b = a := by simpa using h
    simp only [List.modify_zero_cons, sumOf]
    omega
  | b :: l, i + 1, a, h => by
    have ih := sumOf_modify measure f l i (a := a) (by simpa using h)
    simp only [List.modify_succ_cons, sumOf]
    omega

/-- Changing one object changes the sum by what it changes there. -/
theorem total_modify (r : Registry α) (measure : α → Nat) (f : α → α) {i : Nat} {a : α}
    (h : r.get? i = some a) :
    (r.modify i f).total measure + measure a = r.total measure + measure (f a) :=
  sumOf_modify measure f r.objects i h

@[simp] theorem total_add (r : Registry α) (measure : α → Nat) (name : String) (a : α) :
    (r.add name a).total measure = r.total measure + measure a := by
  simp [total, add, sumOf_concat]

/-- A change that keeps the measure of every object keeps the sum. -/
theorem total_modify_of_eq (r : Registry α) (measure : α → Nat) (f : α → α) (i : Nat)
    (h : ∀ a, measure (f a) = measure a) : (r.modify i f).total measure = r.total measure := by
  cases ha : r.get? i with
  | some a =>
    have htotal := r.total_modify measure f ha
    rw [h a] at htotal
    exact Nat.add_right_cancel htotal
  | none =>
    have hlen : r.objects.length ≤ i := List.getElem?_eq_none_iff.1 ha
    simp [total, modify, List.modify_eq_self hlen]

theorem total_update_of_eq (r : Registry α) (measure : α → Nat) (f : α → α) (name : String)
    (h : ∀ a, measure (f a) = measure a) : (r.update name f).total measure = r.total measure := by
  rw [update]
  split
  · exact r.total_modify_of_eq measure f _ h
  · rfl

theorem total_ensure_le (r : Registry α) (measure : α → Nat) (name : String) (a : α) :
    (r.ensure name a).total measure ≤ r.total measure + measure a := by
  rw [ensure]
  split
  · exact Nat.le_add_right ..
  · exact Nat.le_of_eq (r.total_add measure name a)

/-- Changing the object of a name changes the sum by what it changes there. -/
theorem total_update (r : Registry α) (measure : α → Nat) (f : α → α) {name : String} {a : α}
    (h : r.find? name = some a) :
    (r.update name f).total measure + measure a = r.total measure + measure (f a) := by
  obtain ⟨i, hi, ha⟩ := Option.bind_eq_some_iff.1 h
  rw [update, hi]
  exact r.total_modify measure f ha

end Registry

end EpochClaims
