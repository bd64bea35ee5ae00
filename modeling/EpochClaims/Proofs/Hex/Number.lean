import EpochClaims.Proofs.Hex.Spelling
import Mathlib.Algebra.Group.Nat.Defs
import Mathlib.Data.List.Induction

/-!
# The number that a hexadecimal text spells

`HasDigits n s` says of a text that it is the marker and `n` digits, and
`number? s` is the number that these digits spell. A zero in front changes the
text and not the number, so a number has a text of every sufficient length.
Among texts of one length it has one up to letter case: `value_injective`.
-/

namespace EpochClaims

namespace Hex

/-- The number that a row of digits to a base spells, most significant digit first. -/
def placeValue (base : Nat) (digits : List Nat) : Nat :=
  digits.foldl (fun n d => base * n + d) 0

theorem placeValue_concat (base : Nat) (digits : List Nat) (d : Nat) :
    placeValue base (digits ++ [d]) = base * placeValue base digits + d :=
  List.foldl_append ..

/-- Rows of digits of one length are told apart by the numbers that they spell. -/
theorem placeValue_injective {base : Nat} {digits other : List Nat}
    (hdigits : ∀ d ∈ digits, d < base) (hother : ∀ d ∈ other, d < base)
    (hlength : digits.length = other.length)
    (hvalue : placeValue base digits = placeValue base other) : digits = other := by
  induction digits using List.reverseRecOn generalizing other with
  | nil => exact (List.length_eq_zero_iff.1 hlength.symm).symm
  | append_singleton digits d ih =>
      cases other using List.reverseRecOn with
      | nil => simp at hlength
      | append_singleton other e =>
          rw [List.forall_mem_append, List.forall_mem_singleton] at hdigits hother
          rw [placeValue_concat, placeValue_concat] at hvalue
          have hbase : 0 < base := Nat.zero_lt_of_lt hdigits.2
          have hlast : d = e := by
            have hmod := congrArg (· % base) hvalue
            simp only [Nat.mul_add_mod] at hmod
            rwa [Nat.mod_eq_of_lt hdigits.2, Nat.mod_eq_of_lt hother.2] at hmod
          rw [hlast, Nat.add_right_cancel_iff, Nat.mul_right_inj (Nat.ne_of_gt hbase)] at hvalue
          rw [hlast, ih hdigits.1 hother.1 (by simpa using hlength) hvalue]

theorem placeValue_lt {base : Nat} {digits : List Nat} (h : ∀ d ∈ digits, d < base) :
    placeValue base digits < base ^ digits.length := by
  induction digits using List.reverseRecOn with
  | nil => exact Nat.one_pos
  | append_singleton digits d ih =>
      rw [List.forall_mem_append, List.forall_mem_singleton] at h
      have hrest := Nat.mul_le_mul_left base (Nat.succ_le_of_lt (ih h.1))
      rw [Nat.mul_succ] at hrest
      rw [placeValue_concat, List.length_append, List.length_singleton, Nat.pow_succ']
      exact Nat.lt_of_lt_of_le (Nat.add_lt_add_left h.2 _) hrest

theorem value_eq_placeValue (ds : List Digit) : value ds = placeValue 16 (ds.map Fin.val) :=
  List.foldl_map.symm

theorem value_concat (ds : List Digit) (d : Digit) :
    value (ds ++ [d]) = 16 * value ds + d.val := by
  rw [value, List.foldl_append]
  rfl

/-- Runs of digits of one length are told apart by their values. -/
theorem value_injective {ds es : List Digit} (hlength : ds.length = es.length)
    (hvalue : value ds = value es) : ds = es := by
  rw [value_eq_placeValue, value_eq_placeValue] at hvalue
  refine (List.map_inj_right fun _ _ => Fin.ext).1 (placeValue_injective ?_ ?_ ?_ hvalue)
  · exact List.forall_mem_map.2 fun d _ => d.isLt
  · exact List.forall_mem_map.2 fun d _ => d.isLt
  · rw [List.length_map, List.length_map, hlength]

theorem value_replicate_zero (n : Nat) : value (List.replicate n 0) = 0 := by
  induction n with
  | zero => rfl
  | succ n ih => rw [List.replicate_succ', value_concat, ih]; rfl

/-- Zeros in front of a run of digits do not change the number. -/
theorem value_padLeft (n : Nat) (ds : List Digit) : value (padLeft n ds) = value ds := by
  rw [padLeft]
  generalize n - ds.length = k
  induction ds using List.reverseRecOn with
  | nil => rw [List.append_nil, value_replicate_zero]; rfl
  | append_singleton ds d ih => rw [← List.append_assoc, value_concat, value_concat, ih]

/-- A run of digits spells zero if all of them are zeros. -/
theorem value_eq_zero_iff {ds : List Digit} :
    value ds = 0 ↔ ds = List.replicate ds.length 0 := by
  constructor
  · intro h
    refine value_injective List.length_replicate.symm ?_
    rw [h, value_replicate_zero]
  · intro h
    rw [h, value_replicate_zero]

/-- A run of characters is read if each of them is a digit. -/
theorem exists_digits?_iff {s : List Char} :
    (∃ ds, digits? s = some ds) ↔ ∀ c ∈ s, (Digit.ofChar? c).isSome = true := by
  induction s with
  | nil => simp
  | cons c s ih =>
      rw [List.forall_mem_cons, ← ih, Option.isSome_iff_exists]
      simp only [digits?_cons, Option.bind_eq_some_iff, Option.map_eq_some_iff]
      constructor
      · rintro ⟨_, d, hd, ds, hds, -⟩
        exact ⟨⟨d, hd⟩, ds, hds⟩
      · rintro ⟨⟨d, hd⟩, ds, hds⟩
        exact ⟨d :: ds, d, hd, ds, hds, rfl⟩

/-- A text that is the marker and `n` digits, in any case. -/
def HasDigits (n : Nat) (s : String) : Prop :=
  ∃ body, s.toList = '0' :: 'x' :: body ∧ body.length = n ∧
    ∀ c ∈ body, (Digit.ofChar? c).isSome = true

theorem hasDigits_iff {n : Nat} {s : String} :
    HasDigits n s ↔ ∃ ds, read? s.toList = some ds ∧ ds.length = n := by
  constructor
  · rintro ⟨body, hbody, hlength, hall⟩
    obtain ⟨ds, hds⟩ := exists_digits?_iff.2 hall
    exact ⟨ds, read?_eq_some_iff.2 ⟨body, hbody, hds⟩, (length_of_digits? hds).trans hlength⟩
  · rintro ⟨ds, hread, hlength⟩
    obtain ⟨body, hbody, hds⟩ := read?_eq_some_iff.1 hread
    exact ⟨body, hbody, (length_of_digits? hds).symm.trans hlength, exists_digits?_iff.1 ⟨ds, hds⟩⟩

instance (n : Nat) (s : String) : Decidable (HasDigits n s) :=
  decidable_of_iff (∃ ds ∈ read? s.toList, ds.length = n) hasDigits_iff.symm

/-- The marker and one character, again and again. -/
def uniform (n : Nat) (c : Char) : String :=
  String.ofList ('0' :: 'x' :: List.replicate n c)

/-- The number that a text spells behind the marker. -/
def number? (s : String) : Option Nat :=
  (read? s.toList).map value

theorem number?_of_read? {s : String} {ds : List Digit} (h : read? s.toList = some ds) :
    number? s = some (value ds) := by
  rw [number?, h, Option.map_some]

theorem length_of_read? {s : String} {ds : List Digit} (h : read? s.toList = some ds) :
    s.length = ds.length + 2 := by
  obtain ⟨body, hbody, hds⟩ := read?_eq_some_iff.1 h
  rw [← String.length_toList, hbody, length_of_digits? hds]
  rfl

end Hex

end EpochClaims
