import EpochClaims.Address
import EpochClaims.Argument.Basic
import EpochClaims.Proofs.Hex.Spelling

/-!
# Texts up to letter case

`lowered` puts the letters behind the marker `0x` in lower case, so two texts
are the same up to the case of these letters if and only if their lowered forms
are equal. A text reads as the same digits as its lowered form
(`read?_lowered`), and a hexadecimal text is lowered to the one in which its
digits are written (`lowered_of_read?`). `mapText` changes the texts among the
values that a caller may hand in.
-/

namespace EpochClaims

namespace Hex

theorem toLower_toLower_of_lt : ∀ n < 128,
    (Char.ofNat n).toLower.toLower = (Char.ofNat n).toLower := by
  decide

theorem toLower_toLower (c : Char) : c.toLower.toLower = c.toLower := by
  by_cases h : c.toNat < 128
  · have hc := toLower_toLower_of_lt c.toNat h
    rwa [Char.ofNat_toNat] at hc
  · rw [Digit.toLower_of_le (Nat.le_of_not_lt h), Digit.toLower_of_le (Nat.le_of_not_lt h)]

theorem map_toLower_map_toLower (s : List Char) :
    (s.map Char.toLower).map Char.toLower = s.map Char.toLower := by
  rw [List.map_map]
  exact List.map_congr_left fun c _ => toLower_toLower c

/-- A text with the letters behind its marker in lower case. -/
def lowered (s : String) : String :=
  match unmark? s.toList with
  | some body => String.ofList ('0' :: 'x' :: body.map Char.toLower)
  | none => s

theorem lowered_of_marked {s : String} {body : List Char} (h : s.toList = '0' :: 'x' :: body) :
    lowered s = String.ofList ('0' :: 'x' :: body.map Char.toLower) := by
  rw [lowered, unmark?_eq_some_iff.2 h]

theorem lowered_of_not_marked {s : String} (h : ¬ IsMarked s) : lowered s = s := by
  rw [IsMarked, Bool.not_eq_true, Option.isSome_eq_false_iff, Option.isNone_iff_eq_none] at h
  rw [lowered, h]

theorem digits?_map_toLower (s : List Char) : digits? (s.map Char.toLower) = digits? s := by
  induction s with
  | nil => rfl
  | cons c s ih => rw [List.map_cons, digits?_cons, digits?_cons, Digit.ofChar?_toLower, ih]

/-- Reading a text forgets the case of its letters. -/
@[simp] theorem read?_lowered (s : String) : read? (lowered s).toList = read? s.toList := by
  by_cases h : IsMarked s
  · obtain ⟨body, hbody⟩ := isMarked_iff.1 h
    rw [lowered_of_marked hbody, String.toList_ofList, hbody, read?, read?, unmark?_cons,
      unmark?_cons, Option.bind_some, Option.bind_some, digits?_map_toLower]
  · rw [lowered_of_not_marked h]

theorem lowered_of_read? {s : String} {ds : List Digit} (h : read? s.toList = some ds) :
    lowered s = String.ofList (write ds) := by
  obtain ⟨body, hbody, hdigits⟩ := read?_eq_some_iff.1 h
  rw [lowered_of_marked hbody, digits?_eq_some_iff.1 hdigits, write]

@[simp] theorem lowered_lowered (s : String) : lowered (lowered s) = lowered s := by
  by_cases h : IsMarked s
  · obtain ⟨body, hbody⟩ := isMarked_iff.1 h
    rw [lowered_of_marked hbody, lowered_of_marked String.toList_ofList, map_toLower_map_toLower]
  · rw [lowered_of_not_marked h, lowered_of_not_marked h]

theorem lowered_comp_lowered : lowered ∘ lowered = lowered :=
  funext lowered_lowered

@[simp] theorem lowered_write (ds : List Digit) :
    lowered (String.ofList (write ds)) = String.ofList (write ds) :=
  lowered_of_read? (by rw [String.toList_ofList, read?_write])

end Hex

namespace Address

theorem ofText?_lowered (s : String) : ofText? (Hex.lowered s).toList = ofText? s.toList := by
  rw [ofText?, ofText?, Hex.read?_lowered]

/-- A text that spells an address in its checksummed spelling. -/
def checksummed (s : String) : String :=
  match ofText? s.toList with
  | some a => a.text
  | none => s

theorem checksummed_of_ofText? {s : String} {a : Address} (h : ofText? s.toList = some a) :
    checksummed s = a.text := by
  rw [checksummed, h]

theorem read?_of_ofText? {s : List Char} {a : Address} (h : ofText? s = some a) :
    Hex.read? s = some a.digits := by
  obtain ⟨ds, hds, ha⟩ := Option.bind_eq_some_iff.1 h
  rw [ofDigits?] at ha
  split at ha
  · cases ha
    exact hds
  · contradiction

theorem ofText?_of_ofExact? {s : List Char} {a : Address} (h : ofExact? s = some a) :
    ofText? s = some a := by
  obtain ⟨b, hb, hab⟩ := Option.bind_eq_some_iff.1 h
  split at hab
  · cases hab
    exact hb
  · contradiction

theorem lowered_checksummed (s : String) : Hex.lowered (checksummed s) = Hex.lowered s := by
  cases h : ofText? s.toList with
  | none => rw [checksummed, h]
  | some a =>
      rw [checksummed_of_ofText? h, Hex.lowered_of_read? (read?_of_ofText? (ofText?_text a)),
        Hex.lowered_of_read? (read?_of_ofText? h)]

end Address

/-- A document whose text, if it is one, is changed. -/
def Document.mapText (f : String → String) : Document → Document
  | .text s => .text (f s)
  | d => d

theorem Document.mapText_mapText (f g : String → String) (d : Document) :
    (d.mapText f).mapText g = d.mapText (g ∘ f) := by
  cases d <;> rfl

/-- A value whose text, if it is one, is changed. -/
def Argument.mapText (f : String → String) : Argument → Argument
  | .given d => .given (d.mapText f)
  | .missing => .missing

/-- A document whose members, if it is a list, are changed where they are
texts. -/
def Document.mapMembers (f : String → String) : Document → Document
  | .list items => .list (items.map (mapText f))
  | d => d

theorem Document.mapMembers_mapMembers (f g : String → String) (d : Document) :
    (d.mapMembers f).mapMembers g = d.mapMembers (g ∘ f) := by
  cases d with
  | list items =>
      rw [mapMembers, mapMembers, mapMembers, List.map_map]
      exact congrArg list (List.map_congr_left fun d _ => d.mapText_mapText f g)
  | null => rfl
  | bool _ => rfl
  | number _ => rfl
  | text _ => rfl
  | object _ => rfl

/-- A value whose members, if it is a list, are changed where they are texts. -/
def Argument.mapMembers (f : String → String) : Argument → Argument
  | .given d => .given (d.mapMembers f)
  | .missing => .missing

namespace Argument

theorem mapText_mapText (f g : String → String) (v : Argument) :
    (v.mapText f).mapText g = v.mapText (g ∘ f) := by
  cases v with
  | missing => rfl
  | given d => exact congrArg given (d.mapText_mapText f g)

theorem mapMembers_mapMembers (f g : String → String) (v : Argument) :
    (v.mapMembers f).mapMembers g = v.mapMembers (g ∘ f) := by
  cases v with
  | missing => rfl
  | given d => exact congrArg given (d.mapMembers_mapMembers f g)

end Argument

end EpochClaims
