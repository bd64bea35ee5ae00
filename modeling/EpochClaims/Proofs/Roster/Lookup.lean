import EpochClaims.Proofs.Hex.Spelling
import EpochClaims.Roster.Basic

/-!
# Looking validators up

A lookup compares lower-case forms and asks for nothing else, while a reader
of addresses insists on the marker `0x`. The two agree on texts that begin
with the marker: `ofText?_eq_some_iff_of_isMarked`.

The table keeps the last slot that was entered under a form (`lookup_eq_find?`).
In a roster that holds no address twice this is also the first and the only one
(`lookup_eq_find?_of_distinct`), and `indexOf_eq_some_iff` says what a lookup
finds.
-/

namespace EpochClaims

namespace Address

/-- A text spells an address if it has its lower-case form. -/
def IsSpelledBy (a : Address) (s : String) : Prop :=
  Roster.lookupKey s = a.key

/-- The lower-case form of a text that reads as an address identifies it. -/
theorem lookupKey_of_ofText? {s : String} {a : Address} (h : ofText? s.toList = some a) :
    Roster.lookupKey s = a.key := by
  rw [ofText?, Option.bind_eq_some_iff] at h
  obtain ⟨ds, hds, ha⟩ := h
  obtain ⟨body, hbody, hdigits⟩ := Hex.read?_eq_some_iff.1 hds
  rw [ofDigits?] at ha
  split at ha
  · cases ha
    have hlower := Hex.digits?_eq_some_iff.1 hdigits
    rw [Roster.lookupKey, hbody, List.map_cons, List.map_cons, hlower]
    rfl
  · contradiction

/-- Behind the marker a text reads as the address that its lower-case form
identifies. -/
theorem ofText?_eq_some_iff_of_isMarked {s : String} (hs : Hex.IsMarked s) {a : Address} :
    ofText? s.toList = some a ↔ Roster.lookupKey s = a.key := by
  constructor
  · exact lookupKey_of_ofText?
  · intro h
    obtain ⟨body, hbody⟩ := Hex.isMarked_iff.1 hs
    rw [Roster.lookupKey, hbody, key, Hex.write, List.map_cons, List.map_cons] at h
    have hlower := (List.cons.inj (List.cons.inj h).2).2
    have hdigits := Hex.digits?_eq_some_iff.2 hlower
    rw [ofText?, hbody, Hex.read?, Hex.unmark?_cons, Option.bind_some, hdigits,
      Option.bind_some, ofDigits?_digits]

end Address

namespace Roster

theorem lookupKey_text (a : Address) : lookupKey a.text = a.key := by
  rw [lookupKey, Address.text, String.toList_ofList, Address.toLower_chars]

variable {n : Nat}

/-- No address is held by two slots. -/
def Distinct (r : Roster n) : Prop :=
  ∀ i j a, r.slot i = some a → r.slot j = some a → i = j

theorem distinct_remove {r : Roster n} (hr : r.Distinct) (i : Fin n) :
    (r.remove i).Distinct := by
  intro j k a hj hk
  rw [slot_remove] at hj hk
  split at hj
  · contradiction
  · split at hk
    · contradiction
    · exact hr j k a hj hk

/-! ### Slots by number -/

section Number

variable {r : Roster n} {a : Address} {k l : Nat}

/-- The validator in slot `k`; none if the slot is vacant or there is no such
slot. -/
def slot? (r : Roster n) (k : Nat) : Option Address :=
  if h : k < n then r.slot ⟨k, h⟩ else none

theorem slot?_val (r : Roster n) (i : Fin n) : r.slot? i.val = r.slot i :=
  dif_pos i.isLt

theorem slot?_of_le (h : n ≤ k) : r.slot? k = none :=
  dif_neg (Nat.not_lt_of_le h)

theorem slot?_eq_some_iff : r.slot? k = some a ↔ ∃ i : Fin n, i.val = k ∧ r.slot i = some a := by
  constructor
  · intro h
    by_cases hk : k < n
    · exact ⟨⟨k, hk⟩, rfl, by rw [← slot?_val, h]⟩
    · rw [slot?_of_le (Nat.le_of_not_lt hk)] at h
      contradiction
  · rintro ⟨i, rfl, hi⟩
    rw [slot?_val, hi]

theorem distinct_iff_slot? : r.Distinct ↔
    ∀ k l a, r.slot? k = some a → r.slot? l = some a → k = l := by
  constructor
  · intro h k l a hk hl
    obtain ⟨i, rfl, hi⟩ := slot?_eq_some_iff.1 hk
    obtain ⟨j, rfl, hj⟩ := slot?_eq_some_iff.1 hl
    rw [h i j a hi hj]
  · intro h i j a hi hj
    exact Fin.ext (h i j a (by rw [slot?_val, hi]) (by rw [slot?_val, hj]))

theorem slot?_remove (r : Roster n) (i : Fin n) (k : Nat) :
    (r.remove i).slot? k = if i.val = k then none else r.slot? k := by
  by_cases hk : k < n
  · rw [slot?, dif_pos hk, slot?, dif_pos hk, slot_remove]
    simp only [Fin.ext_iff]
  · rw [slot?_of_le (Nat.le_of_not_lt hk), slot?_of_le (Nat.le_of_not_lt hk), ite_self]

end Number

/-! ### The lookup table -/

/-- Whether a slot is held by the validator of a lower-case spelling. -/
def holds (r : Roster n) (key : List Char) (i : Fin n) : Bool :=
  match r.slot i with
  | some a => a.key == key
  | none => false

theorem holds_eq_true_iff {r : Roster n} {key : List Char} {i : Fin n} :
    r.holds key i = true ↔ ∃ a, r.slot i = some a ∧ a.key = key := by
  rw [holds]
  cases r.slot i with
  | none => simp
  | some a => simp

theorem enter_apply (r : Roster n) (table : List Char → Option (Fin n)) (i : Fin n)
    (key : List Char) : r.enter table i key = if r.holds key i then some i else table key := by
  rw [enter, holds]
  cases r.slot i with
  | none => simp
  | some a => simp

/-- Once slots are entered, a form stands for the last one that its validator
holds. -/
theorem foldl_enter (r : Roster n) (key : List Char) (l : List (Fin n))
    (table : List Char → Option (Fin n)) :
    l.foldl r.enter table key = (l.reverse.find? (r.holds key)).or (table key) := by
  induction l generalizing table with
  | nil => rfl
  | cons i l ih =>
      rw [List.foldl_cons, ih, enter_apply, List.reverse_cons, List.find?_append, Option.or_assoc]
      cases hheld : r.holds key i <;> simp [hheld]

/-- A lookup finds the last slot that the validator holds. -/
theorem lookup_eq_find? (r : Roster n) (key : List Char) :
    r.lookup key = (List.finRange n).reverse.find? (r.holds key) := by
  rw [lookup, foldl_enter, Option.or_none]

theorem lookup_eq_none_iff {r : Roster n} {key : List Char} :
    r.lookup key = none ↔ ∀ i, r.holds key i = false := by
  simp [lookup_eq_find?]

theorem holds_of_lookup {r : Roster n} {key : List Char} {i : Fin n}
    (h : r.lookup key = some i) : r.holds key i = true :=
  List.find?_some (lookup_eq_find? r key ▸ h)

theorem holds_unique {r : Roster n} (hr : r.Distinct) {key : List Char} {i j : Fin n}
    (hi : r.holds key i = true) (hj : r.holds key j = true) : i = j := by
  obtain ⟨a, ha, hkey⟩ := holds_eq_true_iff.1 hi
  obtain ⟨b, hb, hkey'⟩ := holds_eq_true_iff.1 hj
  obtain rfl : a = b := Address.key_injective (hkey.trans hkey'.symm)
  exact hr i j a ha hb

theorem lookup_eq_some_iff {r : Roster n} (hr : r.Distinct) {key : List Char} {i : Fin n} :
    r.lookup key = some i ↔ r.holds key i = true := by
  constructor
  · exact holds_of_lookup
  · intro hi
    cases hfind : r.lookup key with
    | none =>
        rw [lookup_eq_none_iff.1 hfind i] at hi
        contradiction
    | some j => rw [holds_unique hr (holds_of_lookup hfind) hi]

/-- In a roster that holds no address twice, the table finds what a search from
the first slot on finds. -/
theorem lookup_eq_find?_of_distinct {r : Roster n} (hr : r.Distinct) (key : List Char) :
    r.lookup key = (List.finRange n).find? (r.holds key) := by
  cases hfind : (List.finRange n).find? (r.holds key) with
  | none =>
      refine lookup_eq_none_iff.2 fun i => ?_
      simpa using List.find?_eq_none.1 hfind i (List.mem_finRange i)
  | some i => exact (lookup_eq_some_iff hr).2 (List.find?_some hfind)

/-- A slot that a lookup finds is held by the validator looked up. -/
theorem slot_of_indexOf {r : Roster n} {s : String} {i : Fin n} (h : r.indexOf s = some i) :
    ∃ a, r.slot i = some a ∧ a.key = lookupKey s :=
  holds_eq_true_iff.1 (holds_of_lookup h)

/-- A lookup finds the slot whose address has the lower-case form of the text. -/
theorem indexOf_eq_some_iff {r : Roster n} (hr : r.Distinct) {s : String} {i : Fin n} :
    r.indexOf s = some i ↔ ∃ a, r.slot i = some a ∧ a.key = lookupKey s :=
  (lookup_eq_some_iff hr).trans holds_eq_true_iff

/-- A lookup finds nothing if the text spells nobody who holds a slot. -/
theorem indexOf_eq_none_iff {r : Roster n} {s : String} :
    r.indexOf s = none ↔ ∀ i a, r.slot i = some a → ¬ a.IsSpelledBy s := by
  rw [indexOf, lookup_eq_none_iff]
  constructor
  · intro h i a ha hs
    exact Bool.false_ne_true ((h i).symm.trans (holds_eq_true_iff.2 ⟨a, ha, hs.symm⟩))
  · intro h i
    rw [← Bool.not_eq_true]
    intro hi
    obtain ⟨a, ha, hkey⟩ := holds_eq_true_iff.1 hi
    exact h i a ha hkey.symm

/-- A lookup of a text that reads as an address finds the slot of the address. -/
theorem indexOf_of_ofText? {r : Roster n} (hr : r.Distinct) {s : String} {a : Address}
    {i : Fin n} (hs : Address.ofText? s.toList = some a) (hi : r.slot i = some a) :
    r.indexOf s = some i :=
  (indexOf_eq_some_iff hr).2 ⟨a, hi, (Address.lookupKey_of_ofText? hs).symm⟩

/-- Behind the marker, a text that a lookup finds reads as the address found. -/
theorem ofText?_of_indexOf {r : Roster n} {s : String} {a : Address} {i : Fin n}
    (hs : Hex.IsMarked s) (h : r.indexOf s = some i) (hi : r.slot i = some a) :
    Address.ofText? s.toList = some a := by
  obtain ⟨b, hb, hkey⟩ := slot_of_indexOf h
  have hab : b = a := Option.some.inj (hb.symm.trans hi)
  rw [hab] at hkey
  exact (Address.ofText?_eq_some_iff_of_isMarked hs).2 hkey.symm

end Roster

end EpochClaims
