import EpochClaims.Proofs.Hex.Lowering
import EpochClaims.Proofs.Hex.Number
import EpochClaims.Proofs.Manager.Conflict

/-!
# Claims as numbers

A claim is written in lower case, and reading forgets letter case, so that two
texts of one length are read as one claim if and only if they spell the same
number. The size of a claim is counted in bytes, and 63 digits have the size of
32 bytes too. So a number below `16 ^ 63` can be claimed in two ways, with and
without the zero in front, and the two are different claims:
`short_text_is_claim` is a conflict between two texts of one number.
-/

namespace EpochClaims

namespace Claim

/-- Hexadecimal text of the size of 32 bytes is read as its digits. -/
theorem sized?_text_eq_some_iff {s : String}
    {ds : { ds : List Hex.Digit // ds.length = 63 ∨ ds.length = 64 }} :
    sized? (.text s) = some ds ↔ Hex.read? s.toList = some ds.val := by
  obtain ⟨ds, hsize⟩ := ds
  rw [sized?, Argument.chars?_text, Option.bind_some]
  cases Hex.read? s.toList with
  | none => simp
  | some es =>
      by_cases hes : es.length = 63 ∨ es.length = 64
      · simp only [dif_pos hes, Option.some.injEq, Subtype.mk.injEq]
      · simp only [dif_neg hes, reduceCtorEq, Option.some.injEq, false_iff]
        rintro rfl
        exact hes hsize

theorem ofArgument_text_eq_ok_iff {s : String} {x : Claim} :
    ofArgument (.text s) = .ok x ↔ Hex.read? s.toList = some x.digits := by
  rw [← @sized?_text_eq_some_iff s ⟨x.digits, x.size⟩, ofArgument]
  cases sized? (.text s) with
  | none => simp
  | some ds =>
      obtain ⟨ds, hsize⟩ := ds
      by_cases hne : ds ≠ noneDigits
      · simp only [dif_pos hne, Except.ok.injEq, Option.some.injEq, Subtype.mk.injEq]
        exact ⟨fun h => congrArg digits h, fun h => ext_digits h⟩
      · simp only [dif_neg hne, reduceCtorEq, Option.some.injEq, Subtype.mk.injEq, false_iff]
        exact fun h => hne (h ▸ x.isSome)

/-- A claim of 64 digits is not zero. -/
theorem value_digits_ne_zero {x : Claim} (h : x.digits.length = 64) :
    Hex.value x.digits ≠ 0 := by
  intro hzero
  rw [Hex.value_eq_zero_iff, h] at hzero
  exact x.isSome hzero

theorem exists_ofArgument_text_iff {s : String} :
    (∃ x, ofArgument (.text s) = .ok x) ↔
      Hex.HasDigits 63 s ∨ (Hex.HasDigits 64 s ∧ Hex.number? s ≠ some 0) := by
  rw [Hex.hasDigits_iff, Hex.hasDigits_iff]
  constructor
  · rintro ⟨x, hx⟩
    have hread := ofArgument_text_eq_ok_iff.1 hx
    rcases x.size with hsize | hsize
    · exact .inl ⟨x.digits, hread, hsize⟩
    · refine .inr ⟨⟨x.digits, hread, hsize⟩, ?_⟩
      rw [Hex.number?_of_read? hread, Ne, Option.some.injEq]
      exact value_digits_ne_zero hsize
  · rintro (⟨ds, hread, hsize⟩ | ⟨⟨ds, hread, hsize⟩, hnonzero⟩)
    · have hne : ds ≠ noneDigits := by
        rintro rfl
        contradiction
      exact ⟨⟨ds, .inl hsize, hne⟩, ofArgument_text_eq_ok_iff.2 hread⟩
    · have hne : ds ≠ noneDigits := by
        rintro rfl
        exact hnonzero (by rw [Hex.number?_of_read? hread, noneDigits, Hex.value_replicate_zero])
      exact ⟨⟨ds, .inr hsize, hne⟩, ofArgument_text_eq_ok_iff.2 hread⟩

theorem kind_report (f : Fault) : f.report.kind = "InvalidClaimError" := by
  cases f <;> rfl

theorem text_of_ofArgument {s : String} {x : Claim} (h : ofArgument (.text s) = .ok x) :
    x.text = Hex.lowered s :=
  (Hex.lowered_of_read? (ofArgument_text_eq_ok_iff.1 h)).symm

/-- Texts are read as one claim if they have the same length and spell the same
number. -/
theorem eq_iff_number?_eq {s t : String} {x y : Claim} (hx : ofArgument (.text s) = .ok x)
    (hy : ofArgument (.text t) = .ok y) :
    x = y ↔ s.length = t.length ∧ Hex.number? s = Hex.number? t := by
  have hs := ofArgument_text_eq_ok_iff.1 hx
  have ht := ofArgument_text_eq_ok_iff.1 hy
  rw [Hex.length_of_read? hs, Hex.length_of_read? ht, Hex.number?_of_read? hs,
    Hex.number?_of_read? ht, Nat.add_right_cancel_iff, Option.some.injEq]
  constructor
  · rintro rfl
    exact ⟨rfl, rfl⟩
  · rintro ⟨hlength, hvalue⟩
    exact ext_digits (Hex.value_injective hlength hvalue)

end Claim

namespace Manager

theorem rival_ne_of_conflict {m m' : Manager} {c : Call} {r : Reply} {x y : Claim}
    {e o : Address} (hperform : m.perform c = .ok (m', r))
    (hverdict : r.verdict? = some (.conflict (some x) y e o)) : x ≠ y := by
  obtain ⟨s, -, hcommit⟩ := perform_eq_ok_iff.1 hperform
  rintro rfl
  exact (hcommit.conflicting hverdict).1.current_ne rfl

end Manager

namespace Claim

/-- A text is read as a claim if and only if it is the marker and 63 digits, or
64 digits that are not all zeros; every other text is reported as an invalid
claim. The claim is written as the text in lower case, which reads back as the
same claim. Two such texts are read as one claim if and only if they have the
same length and spell the same number. So claims of one length that are in
conflict are different numbers, and no claim of 64 digits is zero. -/
theorem reading_is_canonical_per_length (s : String) :
    ((∃ x, ofArgument (.text s) = .ok x) ↔
        Hex.HasDigits 63 s ∨ (Hex.HasDigits 64 s ∧ Hex.number? s ≠ some 0)) ∧
      (∀ f, ofArgument (.text s) = .error f → f.report.kind = "InvalidClaimError") ∧
      (∀ x, ofArgument (.text s) = .ok x →
        x.text = Hex.lowered s ∧ ofArgument (.text x.text) = .ok x) ∧
      (∀ t x y, ofArgument (.text s) = .ok x → ofArgument (.text t) = .ok y →
        (x = y ↔ s.length = t.length ∧ Hex.number? s = Hex.number? t)) ∧
      (∀ (m m' : Manager) c r x y e o, m.perform c = .ok (m', r) →
        r.verdict? = some (.conflict (some x) y e o) →
          x.digits.length = y.digits.length → Hex.value x.digits ≠ Hex.value y.digits) ∧
      ∀ x : Claim, x.digits.length = 64 → Hex.value x.digits ≠ 0 := by
  refine ⟨exists_ofArgument_text_iff, fun f _ => kind_report f, fun x hx => ?_,
    fun t x y hx hy => eq_iff_number?_eq hx hy, ?_, fun x hx => value_digits_ne_zero hx⟩
  · exact ⟨text_of_ofArgument hx, ofArgument_text x⟩
  · intro m m' c r x y e o hperform hverdict hlength hvalue
    exact Manager.rival_ne_of_conflict hperform hverdict
      (ext_digits (Hex.value_injective hlength hvalue))

/-- The claim that repeats the digit one, without the last one. -/
def shortOnes : Claim :=
  ⟨List.replicate 63 1, .inl List.length_replicate, by decide⟩

/-- The same number behind a zero. -/
def paddedOnes : Claim :=
  ⟨0 :: List.replicate 63 1, .inr (by decide), by decide⟩

/-- Of 63 digits, a number is read as a claim, and so is zero. Two validators
that claim one number, with and without a zero in front, are in conflict. -/
theorem short_text_is_claim :
    ¬ Hex.HasDigits 64 "0x111111111111111111111111111111111111111111111111111111111111111" ∧
      ofArgument (.text "0x111111111111111111111111111111111111111111111111111111111111111") =
        .ok shortOnes ∧
      ofArgument (.text "0x0111111111111111111111111111111111111111111111111111111111111111") =
        .ok paddedOnes ∧
      Hex.number? "0x111111111111111111111111111111111111111111111111111111111111111" =
        Hex.number? "0x0111111111111111111111111111111111111111111111111111111111111111" ∧
      (∃ m', (Manager.duo.run [.sent 1 shortOnes]).perform (.sent 2 paddedOnes) =
        .ok (m', .claimed (.conflict (some shortOnes) paddedOnes (.ofDigit 1) (.ofDigit 2)))) ∧
      ∃ x, ofArgument (.text "0x000000000000000000000000000000000000000000000000000000000000000") =
        .ok x ∧ Hex.value x.digits = 0 := by
  have hshort : Hex.read?
      "0x111111111111111111111111111111111111111111111111111111111111111".toList =
      some shortOnes.digits := by
    decide +kernel
  have hpadded : Hex.read?
      "0x0111111111111111111111111111111111111111111111111111111111111111".toList =
      some paddedOnes.digits := by
    decide +kernel
  have hreply : ((Manager.duo.run [.sent 1 shortOnes]).perform (.sent 2 paddedOnes)).map
      Prod.snd =
      .ok (.claimed (.conflict (some shortOnes) paddedOnes (.ofDigit 1) (.ofDigit 2))) := by
    decide +kernel
  refine ⟨?_, ofArgument_text_eq_ok_iff.2 hshort, ofArgument_text_eq_ok_iff.2 hpadded, ?_, ?_, ?_⟩
  · rw [Hex.hasDigits_iff]
    rintro ⟨ds, hread, hlength⟩
    rw [← Option.some.inj (hshort.symm.trans hread)] at hlength
    exact absurd hlength (by decide)
  · rw [Hex.number?_of_read? hshort, Hex.number?_of_read? hpadded]
    decide +kernel
  · obtain ⟨⟨m', r⟩, hperform, rfl⟩ := map_eq_ok_iff.1 hreply
    exact ⟨m', hperform⟩
  · exact ⟨⟨List.replicate 63 0, .inl List.length_replicate, by decide⟩,
      ofArgument_text_eq_ok_iff.2 (by decide +kernel), Hex.value_replicate_zero 63⟩

end Claim

end EpochClaims
