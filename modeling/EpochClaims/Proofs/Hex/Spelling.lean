import EpochClaims.Address

/-!
# Letter case of hexadecimal text

A digit has one spelling in each case, so reading a run of digits and lowering
its letters tell the same of a text: `digits?_eq_some_iff`. Texts that begin
with the marker `0x` are therefore looked up by their lower-case form and read
as addresses alike. `IsMarked` singles these texts out.
-/

namespace EpochClaims

namespace Hex

/-- A text that begins with the marker. -/
def IsMarked (s : String) : Prop :=
  (unmark? s.toList).isSome = true

instance (s : String) : Decidable (IsMarked s) :=
  inferInstanceAs (Decidable ((unmark? s.toList).isSome = true))

theorem isMarked_iff {s : String} :
    IsMarked s ↔ ∃ body, s.toList = '0' :: 'x' :: body := by
  rw [IsMarked, Option.isSome_iff_exists]
  exact exists_congr fun body => unmark?_eq_some_iff

namespace Digit

/-! Digits and letters are all below 128, so the two facts about single
characters are checked there and hold trivially above. -/

theorem ofChar?_toLower_of_lt : ∀ n < 128,
    ofChar? (Char.ofNat n).toLower = ofChar? (Char.ofNat n) := by
  decide

theorem toLower_of_le {c : Char} (h : 128 ≤ c.toNat) : c.toLower = c := by
  have hc : ¬ (c.val ≥ 'A'.val ∧ c.val ≤ 'Z'.val) := by
    rintro ⟨-, hz⟩
    have hn : c.toNat ≤ 90 := hz
    omega
  exact dif_neg hc

@[simp] theorem ofChar?_toLower (c : Char) : ofChar? c.toLower = ofChar? c := by
  by_cases h : c.toNat < 128
  · have hc := ofChar?_toLower_of_lt c.toNat h
    rwa [Char.ofNat_toNat] at hc
  · rw [toLower_of_le (Nat.le_of_not_lt h)]

theorem lower_or_upper_of_lt : ∀ n < 128, ∀ d,
    ofChar? (Char.ofNat n) = some d →
      Char.ofNat n = d.lower ∨ Char.ofNat n = d.upper := by
  decide +kernel

theorem lt_of_ofChar? {c : Char} {d : Digit} (h : ofChar? c = some d) : c.toNat < 128 := by
  unfold ofChar? at h
  split at h
  · next hc => exact Nat.lt_of_le_of_lt (show c.toNat ≤ 57 from hc.2) (by decide)
  · split at h
    · next hc => exact Nat.lt_of_le_of_lt (show c.toNat ≤ 102 from hc.2) (by decide)
    · split at h
      · next hc => exact Nat.lt_of_le_of_lt (show c.toNat ≤ 70 from hc.2) (by decide)
      · contradiction

/-- A digit is read from its two spellings and from nothing else. -/
theorem ofChar?_eq_some_iff {c : Char} {d : Digit} :
    ofChar? c = some d ↔ c = d.lower ∨ c = d.upper := by
  constructor
  · intro h
    have hc := lower_or_upper_of_lt c.toNat (lt_of_ofChar? h) d
    rw [Char.ofNat_toNat] at hc
    exact hc h
  · rintro (rfl | rfl)
    · exact ofChar?_lower d
    · exact ofChar?_upper d

/-- A character is read as a digit exactly if its lower case spells it. -/
theorem toLower_eq_lower_iff {c : Char} {d : Digit} :
    c.toLower = d.lower ↔ ofChar? c = some d := by
  constructor
  · intro h
    rw [← ofChar?_toLower, h]
    exact ofChar?_lower d
  · intro h
    rcases ofChar?_eq_some_iff.1 h with rfl | rfl
    · exact toLower_lower d
    · exact toLower_upper d

end Digit

/-- A run of characters is read as digits exactly if its lower case spells
them. -/
theorem digits?_eq_some_iff {s : List Char} {ds : List Digit} :
    digits? s = some ds ↔ s.map Char.toLower = lower ds := by
  induction s generalizing ds with
  | nil =>
      cases ds with
      | nil => simp [lower]
      | cons d ds => simp [lower]
  | cons c s ih =>
      cases ds with
      | nil => simp [lower, Option.bind_eq_some_iff]
      | cons d ds =>
          have htail := @ih ds
          simp only [lower, List.map_cons, List.cons.injEq] at htail ⊢
          rw [digits?_cons, ← htail, Digit.toLower_eq_lower_iff]
          cases Digit.ofChar? c with
          | none => simp
          | some e => cases digits? s <;> simp

theorem digits?_append (s t : List Char) :
    digits? (s ++ t) = (digits? s).bind fun ds => (digits? t).map (ds ++ ·) := by
  induction s with
  | nil => simp
  | cons c s ih =>
      rw [List.cons_append, digits?_cons, digits?_cons, ih]
      cases Digit.ofChar? c with
      | none => rfl
      | some d => cases digits? s <;> cases digits? t <;> rfl

/-- The digits of a hexadecimal text stand behind its marker. -/
theorem digits?_drop {s : List Char} {ds : List Digit} (h : read? s = some ds) :
    digits? (s.drop 2) = some ds := by
  obtain ⟨body, rfl, hdigits⟩ := read?_eq_some_iff.1 h
  exact hdigits

end Hex

namespace Address

/-- The checksummed spelling of an address reads back. -/
theorem ofText?_text (a : Address) : ofText? a.text.toList = some a := by
  rw [text, String.toList_ofList, ofText?_chars]

theorem text_injective {a b : Address} (h : a.text = b.text) : a = b := by
  have hread := congrArg (fun s : String => ofText? s.toList) h
  simpa [ofText?_text] using hread

end Address

end EpochClaims
