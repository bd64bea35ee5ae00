import EpochClaims.Config.Reading
import EpochClaims.Proofs.Hex.Spelling

/-!
# A configuration reads back

A configuration written as a document holds its addresses in their checksummed
spelling, which reads back, so it is read as itself if the number of its
validators is in bounds.
-/

namespace EpochClaims

namespace Config

theorem readAddress_text (place : Place) (a : Address) :
    readAddress place (some (.text a.text)) = .ok a := by
  rw [readAddress, Address.ofText?_text]

theorem readEntries_texts (index : Nat) (addresses : List Address) :
    readEntries index (addresses.map fun a => .text a.text) = .ok addresses := by
  induction addresses generalizing index with
  | nil => rfl
  | cons a addresses ih =>
      rw [List.map_cons, readEntries, readAddress_text, ih]

theorem lengthIssues_eq_nil_iff {count : Nat} :
    lengthIssues count = [] ↔ 1 ≤ count ∧ count ≤ maxSlots := by
  rw [lengthIssues]
  by_cases hfew : count < 1
  · rw [if_pos hfew]
    exact iff_of_false (List.cons_ne_nil _ _) fun h => Nat.not_le_of_lt hfew h.1
  · rw [if_neg hfew]
    by_cases hmany : maxSlots < count
    · rw [if_pos hmany]
      exact iff_of_false (List.cons_ne_nil _ _) fun h => Nat.not_le_of_lt hmany h.2
    · rw [if_neg hmany]
      exact iff_of_true rfl ⟨Nat.le_of_not_lt hfew, Nat.le_of_not_lt hmany⟩

theorem readValidators_texts {addresses : List Address} (hpos : 1 ≤ addresses.length)
    (hle : addresses.length ≤ maxSlots) :
    readValidators (some (.list (addresses.map fun a => .text a.text))) = .ok addresses := by
  rw [readValidators, List.length_map, lengthIssues_eq_nil_iff.2 ⟨hpos, hle⟩, readEntries_texts]

theorem readPolicy_text (p : UnknownLoserPolicy) : readPolicy (some (.text p.text)) = .ok p := by
  rw [readPolicy, UnknownLoserPolicy.ofText?_text]

theorem read_toDocument {c : Config} (hpos : 1 ≤ c.validators.length)
    (hle : c.validators.length ≤ maxSlots) : read (some c.toDocument) = .ok c := by
  have hfields : readFields (some (.text c.orchestrator.text))
      (some (.list (c.validators.map fun a => .text a.text)))
      (some (.text c.unknownLoserPolicy.text)) = .ok c := by
    rw [readFields, readAddress_text, readValidators_texts hpos hle, readPolicy_text]
  exact hfields

end Config

end EpochClaims
