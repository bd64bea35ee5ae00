import EpochClaims.Proofs.Binary64.Spelling
import EpochClaims.Proofs.Mask.Sets
import EpochClaims.Proofs.Roster.Creation
import Mathlib.Data.List.Find

/-!
# Vacating slots one after another

A roster is looked at through its slots, by number. Removing a number vacates
the slot of that number and nothing else, so that after any removals a slot is
vacant if its number is among those removed. What is removed twice, or in
another order, makes no difference, and lookups find exactly what the slots
hold: `lookups_invert_slots`.

What a slot holds does not depend on whether a number has 64 bits. Whether
anything is found under it does, as it is found by its spelling.
-/

namespace EpochClaims

namespace SizedRoster

variable {r s : SizedRoster} {a b : Address} {x y : Binary64} {i j : ℕ}

/-- The roster after the removal of a number. -/
def without (r : SizedRoster) (x : Binary64) : SizedRoster :=
  (r.remove? (.number x)).getD r

/-- The roster after the removal of numbers in order. -/
def withoutAll (r : SizedRoster) (removed : List Binary64) : SizedRoster :=
  removed.foldl without r

/-- The occupied slots as a mask that is addressed by numbers. -/
def occupiedMask (r : SizedRoster) : SizedMask :=
  .ofMask r.roster.occupied

/-- A roster is its capacity and what its slots hold. -/
theorem eq_of_slot? (hcap : r.capacity = s.capacity)
    (h : ∀ i, r.roster.slot? i = s.roster.slot? i) : r = s := by
  obtain ⟨n, roster⟩ := r
  obtain ⟨k, other⟩ := s
  obtain rfl : n = k := hcap
  congr 1
  apply Roster.ext
  intro i
  rw [← Roster.slot?_val, ← Roster.slot?_val]
  exact h i

/-! ### What a number names -/

theorem find?_zipIdx {α : Type} (l : List α) (n i : ℕ) :
    ((l.zipIdx n).find? fun m => n + i = m.2).map Prod.fst = l[i]? := by
  induction l generalizing n i with
  | nil => rfl
  | cons a l ih =>
      rw [List.zipIdx_cons, List.find?_cons]
      cases i with
      | zero => simp
      | succ i =>
          have hne : ¬ n + (i + 1) = n := by omega
          have hstep : n + (i + 1) = n + 1 + i := by omega
          simp only [hne, decide_false]
          rw [List.getElem?_cons_succ, ← ih (n + 1) i, hstep]

theorem getElem?_documents (r : SizedRoster) (i : ℕ) :
    (r.documents[i]?.filter fun d => d ≠ .null) = (r.roster.slot? i).map fun a => .text a.text := by
  rw [documents, List.getElem?_map]
  by_cases hi : i < r.capacity
  · rw [Roster.slot?, dif_pos hi, Roster.slot_eq_getElem]
    have hget : r.roster.slots.toList[i]? = some r.roster.slots[i] := by simp [hi]
    rw [hget]
    cases r.roster.slots[i] <;> simp
  · rw [Roster.slot?_of_le (Nat.le_of_not_lt hi)]
    simp [hi]

/-- A number names the validator in the slot of that number, if it is a slot. -/
theorem at?_number (hr : r.capacity ≤ maxSlots) (hx : x.IsRepresentable) :
    r.at? (.number x) = (x.toNat?.bind r.roster.slot?).map fun a => .text a.text := by
  have hspelled : (Argument.number x).spelled = x.text := rfl
  rw [at?, Argument.memberOf?, hspelled, if_neg x.text_ne_length]
  have hlength : r.documents.length = r.capacity := by simp [documents]
  -- Of the slots that there are, the one that is spelled alike is the one of that number.
  have hfind : (r.documents.zipIdx.find? fun m => toString m.2 = x.text) =
      r.documents.zipIdx.find? fun m => x.toNat? = some m.2 := by
    refine List.find?_congr fun m hm => decide_eq_decide.2 (eq_comm.trans ?_)
    have hlt : m.2 < r.capacity := hlength ▸ List.snd_lt_of_mem_zipIdx hm
    exact Binary64.text_eq_toString_iff hx (Nat.lt_of_lt_of_le hlt hr)
  rw [hfind]
  cases hnat : x.toNat? with
  | none => simp [List.find?_eq_none.2]
  | some i =>
      have hplace := find?_zipIdx r.documents 0 i
      simp only [Nat.zero_add] at hplace
      simp only [Option.some.injEq, hplace, Option.bind_some]
      exact getElem?_documents r i

/-! ### One removal -/

/-- Nothing is removed exactly if the number names no validator. -/
theorem remove?_eq_none_iff (hr : r.capacity ≤ maxSlots) (hx : x.IsRepresentable) :
    r.remove? (.number x) = none ↔ ∀ i, x.toNat? = some i → r.roster.slot? i = none := by
  have hnone : r.remove? (.number x) = none ↔ r.at? (.number x) = none := by
    rw [remove?]
    cases r.at? (.number x) with
    | none => simp
    | some d =>
        simp only [Option.isNone_some, Bool.false_eq_true, if_false, reduceCtorEq, iff_false]
        split <;> exact Option.some_ne_none _
  rw [hnone, at?_number hr hx, Option.map_eq_none_iff, Option.bind_eq_none_iff]

theorem slotOfNumber?_eq_some_iff {l : Fin r.capacity} :
    r.slotOfNumber? x = some l ↔ x.toNat? = some l.val := by
  rw [slotOfNumber?]
  cases x.toNat? with
  | none => simp
  | some i =>
      by_cases hi : i < r.capacity
      · simp [hi, Fin.ext_iff]
      · have hne : i ≠ l.val := fun h => hi (h ▸ l.isLt)
        simp [hi, hne]

theorem isRepresentable_of_lt (hr : r.capacity ≤ maxSlots) (h : x.toNat? = some i)
    (hi : i < r.capacity) : x.IsRepresentable :=
  Binary64.isRepresentable_of_toNat?
    (SizedMask.le_exactBound (Nat.le_of_lt (Nat.lt_of_lt_of_le hi hr))) h

theorem without_of_slotOfNumber?_eq_none (h : r.slotOfNumber? x = none) : r.without x = r := by
  have hnone : (Argument.number x).number?.bind r.slotOfNumber? = none := h
  rw [without, remove?, hnone]
  split <;> rfl

/-- The removal of a slot vacates it. Where nobody is in it, this is the roster
that was there. -/
theorem without_of_toNat? (hr : r.capacity ≤ maxSlots) (l : Fin r.capacity)
    (h : x.toNat? = some l.val) : r.without x = ⟨r.capacity, r.roster.remove l⟩ := by
  have hslot : (Argument.number x).number?.bind r.slotOfNumber? = some l :=
    slotOfNumber?_eq_some_iff.2 h
  cases hremove : r.remove? (.number x) with
  | none =>
      have hvacant := (remove?_eq_none_iff hr (isRepresentable_of_lt hr h l.isLt)).1 hremove l.val h
      rw [without, hremove, Option.getD_none]
      refine eq_of_slot? rfl fun i => ?_
      rw [Roster.slot?_remove]
      split
      · next hli => rw [← hli, hvacant]
      · rfl
  | some s =>
      rw [without, hremove, Option.getD_some]
      rw [remove?, hslot] at hremove
      split at hremove
      · contradiction
      · exact (Option.some.inj hremove).symm

/-- A removal vacates the slot of its number and nothing else. -/
theorem slot?_without (hr : r.capacity ≤ maxSlots) (x : Binary64) (i : ℕ) :
    (r.without x).roster.slot? i = if x.toNat? = some i then none else r.roster.slot? i := by
  cases hslot : r.slotOfNumber? x with
  | none =>
      rw [without_of_slotOfNumber?_eq_none hslot]
      split
      · next hi =>
          refine Roster.slot?_of_le (Nat.le_of_not_lt fun hlt => ?_)
          have hsome := (slotOfNumber?_eq_some_iff (l := ⟨i, hlt⟩)).2 hi
          rw [hslot] at hsome
          contradiction
      · rfl
  | some l =>
      have hl := slotOfNumber?_eq_some_iff.1 hslot
      rw [without_of_toNat? hr l hl, Roster.slot?_remove, hl]
      simp only [Option.some.injEq]

@[simp] theorem capacity_without (r : SizedRoster) (x : Binary64) :
    (r.without x).capacity = r.capacity := by
  rw [without, remove?]
  split
  · rfl
  · split <;> rfl

/-! ### All removals -/

@[simp] theorem capacity_withoutAll (r : SizedRoster) (removed : List Binary64) :
    (r.withoutAll removed).capacity = r.capacity := by
  induction removed generalizing r with
  | nil => rfl
  | cons x removed ih => rw [withoutAll, List.foldl_cons, ← withoutAll, ih, capacity_without]

/-- A slot is vacant if its number is among the removed ones. -/
theorem slot?_withoutAll (hr : r.capacity ≤ maxSlots) (removed : List Binary64) (i : ℕ) :
    (r.withoutAll removed).roster.slot? i =
      if i ∈ removed.filterMap Binary64.toNat? then none else r.roster.slot? i := by
  induction removed generalizing r with
  | nil => rfl
  | cons x removed ih =>
      have hcap : (r.without x).capacity ≤ maxSlots := (capacity_without r x).symm ▸ hr
      rw [withoutAll, List.foldl_cons, ← withoutAll, ih hcap, slot?_without hr]
      cases hx : x.toNat? with
      | none => simp [hx]
      | some k =>
          simp only [List.filterMap_cons, hx, List.mem_cons, Option.some.injEq, eq_comm (a := k)]
          by_cases hi : i = k
          · simp [hi]
          · simp [hi]

theorem withoutAll_congr (hr : r.capacity ≤ maxSlots) {removed others : List Binary64}
    (h : ∀ i, i ∈ removed.filterMap Binary64.toNat? ↔ i ∈ others.filterMap Binary64.toNat?) :
    r.withoutAll removed = r.withoutAll others := by
  refine eq_of_slot? (by simp) fun i => ?_
  simp only [slot?_withoutAll hr, h i]

/-! ### Lookups -/

/-- Removals leave no address in two slots. -/
theorem distinct_withoutAll (hr : r.capacity ≤ maxSlots) (hd : r.roster.Distinct)
    (removed : List Binary64) : (r.withoutAll removed).roster.Distinct := by
  rw [Roster.distinct_iff_slot?] at hd ⊢
  intro i j a hi hj
  rw [slot?_withoutAll hr, Option.ite_none_left_eq_some] at hi hj
  exact hd i j a hi.2 hj.2

/-- A lookup finds the slot that holds the text, up to letter case. -/
theorem indexOf_eq_some_iff_slot? (hd : r.roster.Distinct) {t : String} :
    (r.roster.indexOf t).map Fin.val = some i ↔
      ∃ a, r.roster.slot? i = some a ∧ Roster.lookupKey t = Roster.lookupKey a.text := by
  simp only [Option.map_eq_some_iff, Roster.indexOf_eq_some_iff hd, Roster.lookupKey_text]
  constructor
  · rintro ⟨l, ⟨a, hl, hkey⟩, rfl⟩
    exact ⟨a, by rw [Roster.slot?_val, hl], hkey.symm⟩
  · rintro ⟨a, hi, hkey⟩
    obtain ⟨l, rfl, hl⟩ := Roster.slot?_eq_some_iff.1 hi
    exact ⟨l, ⟨a, hl, hkey.symm⟩, rfl⟩

/-! ### Occupied slots -/

theorem mem_members_occupiedMask (hr : r.capacity ≤ maxSlots) :
    i ∈ r.occupiedMask.members ↔ ∃ a, r.roster.slot? i = some a := by
  rw [occupiedMask, SizedMask.mem_members_iff hr]
  constructor
  · rintro ⟨l, rfl, hl⟩
    obtain ⟨a, ha⟩ := Option.isSome_iff_exists.1 (Roster.mem_occupied.1 hl)
    exact ⟨a, by rw [Roster.slot?_val, ha]⟩
  · rintro ⟨a, hi⟩
    obtain ⟨l, rfl, hl⟩ := Roster.slot?_eq_some_iff.1 hi
    exact ⟨l, rfl, Roster.mem_occupied.2 (by rw [hl]; rfl)⟩

theorem occupied_remove {n : ℕ} (r : Roster n) (l : Fin n) :
    (r.remove l).occupied = r.occupied.erase l := by
  apply Mask.ext
  intro k
  rw [Roster.mem_occupied, Roster.slot_remove, Mask.mem_erase, Roster.mem_occupied]
  by_cases hk : l = k
  · simp [hk]
  · simp [hk, Ne.symm hk]

/-- Vacating a slot clears its bit. -/
theorem erase_occupiedMask (hr : r.capacity ≤ maxSlots) (hx : x.toNat? = some i)
    (hi : i < r.capacity) :
    r.occupiedMask.erase (.number x) = .ok (r.without x).occupiedMask := by
  have hread : SizedMask.readSlot r.capacity (.number x) = .ok i :=
    SizedMask.readSlot_eq_ok_iff.2 ⟨hx, hi⟩
  rw [without_of_toNat? hr ⟨i, hi⟩ hx, occupiedMask, occupiedMask, occupied_remove]
  exact SizedMask.erase_ofMask hr r.roster.occupied ⟨i, hi⟩ hread

/-! ### The inverse law -/

/-- Lookups and slots are mutual inverses. -/
structure Inverse (r : SizedRoster) : Prop where
  indexOf_iff : ∀ (t : String) (i : ℕ), (r.roster.indexOf t).map Fin.val = some i ↔
    ∃ a, r.roster.slot? i = some a ∧ Roster.lookupKey t = Roster.lookupKey a.text
  at?_eq : ∀ x : Binary64, x.IsRepresentable →
    r.at? (.number x) = (x.toNat?.bind r.roster.slot?).map fun a => .text a.text
  indexOf_at? : ∀ (x : Binary64) (t : String), x.IsRepresentable →
    r.at? (.number x) = some (.text t) →
      ∃ i, x.toNat? = some i ∧ (r.roster.indexOf t).map Fin.val = some i
  lookupKey_injective : ∀ i j a b, r.roster.slot? i = some a → r.roster.slot? j = some b →
    Roster.lookupKey a.text = Roster.lookupKey b.text → i = j

theorem inverse_of_distinct (hr : r.capacity ≤ maxSlots) (hd : r.roster.Distinct) : r.Inverse where
  indexOf_iff _ _ := indexOf_eq_some_iff_slot? hd
  at?_eq _ hx := at?_number hr hx
  indexOf_at? x t hx h := by
    rw [at?_number hr hx, Option.map_eq_some_iff] at h
    obtain ⟨a, ha, htext⟩ := h
    obtain ⟨i, hi, hslot⟩ := Option.bind_eq_some_iff.1 ha
    cases htext
    exact ⟨i, hi, (indexOf_eq_some_iff_slot? hd).2 ⟨a, hslot, rfl⟩⟩
  lookupKey_injective i j a b hi hj hkey := by
    rw [Roster.lookupKey_text, Roster.lookupKey_text] at hkey
    obtain rfl := Address.key_injective hkey
    exact Roster.distinct_iff_slot?.1 hd i j a hi hj

/-- The removal of a number vacates the slot of that number and clears its bit,
and keeps the roster itself if there is nobody in that slot. -/
structure Removes (r : SizedRoster) (x : Binary64) : Prop where
  capacity_eq : (r.without x).capacity = r.capacity
  slot?_eq : ∀ i, (r.without x).roster.slot? i =
    if x.toNat? = some i then none else r.roster.slot? i
  same_iff : x.IsRepresentable →
    (r.remove? (.number x) = none ↔ ∀ i, x.toNat? = some i → r.roster.slot? i = none)
  idem : (r.without x).without x = r.without x
  comm : ∀ y, (r.without x).without y = (r.without y).without x
  occupied : ∀ i < r.capacity, x.toNat? = some i →
    r.occupiedMask.erase (.number x) = .ok (r.without x).occupiedMask

theorem removes (hr : r.capacity ≤ maxSlots) (x : Binary64) : r.Removes x where
  capacity_eq := capacity_without r x
  slot?_eq := slot?_without hr x
  same_iff := remove?_eq_none_iff hr
  idem := show r.withoutAll [x, x] = r.withoutAll [x] from withoutAll_congr hr (by simp)
  comm y := show r.withoutAll [x, y] = r.withoutAll [y, x] from
    withoutAll_congr hr (by simp [or_comm])
  occupied _ hi hx := erase_occupiedMask hr hx hi

/-- Whatever is removed from a roster that was created, its lookups and its slots
stay mutual inverses and the occupied mask holds the slots that are not vacant;
these are the slots whose numbers were not removed, so that only the set of the
removed numbers matters. -/
theorem lookups_invert_slots {given : List Argument} {r₀ r : SizedRoster}
    {removed : List Binary64} (hcreate : create given = .ok r₀)
    (hr : r₀.withoutAll removed = r) :
    r.capacity = r₀.capacity ∧ r.Inverse ∧ (∀ x, r.Removes x) ∧
      (∀ i, r.roster.slot? i =
        if i ∈ removed.filterMap Binary64.toNat? then none else r₀.roster.slot? i) ∧
      (∀ others : List Binary64,
        (∀ i, i ∈ removed.filterMap Binary64.toNat? ↔ i ∈ others.filterMap Binary64.toNat?) →
          r₀.withoutAll others = r) ∧
      ∀ i, i ∈ r.occupiedMask.members ↔ ∃ a, r.roster.slot? i = some a := by
  obtain ⟨addresses, hadmissible, rfl⟩ := exists_admissible_of_create hcreate
  subst hr
  have hcap : (ofAddresses addresses).capacity ≤ maxSlots := hadmissible.length_le
  have hcap' : ((ofAddresses addresses).withoutAll removed).capacity ≤ maxSlots :=
    (capacity_withoutAll _ removed).symm ▸ hcap
  have hdistinct := distinct_withoutAll hcap (distinct_ofAddresses hadmissible.nodup) removed
  exact ⟨capacity_withoutAll _ removed, inverse_of_distinct hcap' hdistinct, removes hcap',
    slot?_withoutAll hcap removed, fun others h => (withoutAll_congr hcap h).symm,
    fun i => mem_members_occupiedMask hcap'⟩

/-- Of two validators the second one is removed, among numbers that are no slots.
The first one is still found, and to remove the second one again changes nothing. -/
theorem lookups_invert_slots_duo :
    ∃ r₀ r, create (texts Config.duo.validators) = .ok r₀ ∧
      r₀.withoutAll [.nan, Binary64.ofInt (-1), Binary64.ofInt 1, .infinity false] = r ∧
      r.roster.slot? 0 = some (.ofDigit 1) ∧ r.roster.slot? 1 = none ∧
      (r.roster.indexOf (Address.ofDigit 1).text).map Fin.val = some 0 ∧
      r.remove? (.number (Binary64.ofInt 1)) = none := by
  have hcreate := create_texts_eq_ok_iff.2 ⟨admissible_duo, rfl⟩
  obtain ⟨-, hinverse, hremoves, hslots, -⟩ := @lookups_invert_slots _ _ _
    [.nan, Binary64.ofInt (-1), Binary64.ofInt 1, .infinity false] hcreate rfl
  have hone : (Binary64.ofInt 1).toNat? = some 1 := by decide +kernel
  have hnumbers : List.filterMap Binary64.toNat?
      [.nan, Binary64.ofInt (-1), Binary64.ofInt 1, .infinity false] = [1] := by decide +kernel
  rw [hnumbers] at hslots
  have hfirst := (hslots 0).trans (if_neg (by decide))
  have hsecond := (hslots 1).trans (if_pos (by decide))
  have hheld : (ofAddresses Config.duo.validators).roster.slot? 0 = some (.ofDigit 1) := rfl
  refine ⟨_, _, hcreate, rfl, hfirst.trans hheld, hsecond, ?_, ?_⟩
  · exact (hinverse.indexOf_iff _ 0).2 ⟨_, hfirst.trans hheld, rfl⟩
  · refine ((hremoves _).same_iff (Binary64.isRepresentable_ofInt 1)).2 fun i hi => ?_
    obtain rfl : 1 = i := Option.some.inj (hone.symm.trans hi)
    exact hsecond

end SizedRoster

end EpochClaims
