import EpochClaims.Proofs.Hex.Number

/-!
# Bytes behind hexadecimal text

A text claims a size in bytes, which for hexadecimal text is half the number of
its digits, rounded up: `IsSized`. The digits themselves are bytes two by two, and
these spell the same number as the digits do (`bigEndian_toBytes`), so that zeros
in front change the bytes and not the number.
-/

namespace EpochClaims

namespace Text

theorem units_of_digits? {s : List Char} {ds : List Hex.Digit} (h : Hex.digits? s = some ds) :
    units s = s.map Char.toNat := by
  induction s generalizing ds with
  | nil => rfl
  | cons c s ih =>
      rw [Hex.digits?_cons, Option.bind_eq_some_iff] at h
      obtain ⟨d, hd, hrest⟩ := h
      obtain ⟨es, hes, -⟩ := Option.map_eq_some_iff.1 hrest
      have hc : c.toNat < 0x10000 := Nat.lt_trans (Hex.Digit.lt_of_ofChar? hd) (by decide)
      rw [units_cons, charUnits, if_pos hc, ih hes]
      rfl

theorem length16_of_digits? {s : List Char} {ds : List Hex.Digit} (h : Hex.digits? s = some ds) :
    length16 s = ds.length := by
  rw [length16, units_of_digits? h, List.length_map, Hex.length_of_digits? h]

end Text

namespace Hex

theorem byteSize_of_read? {s : List Char} {ds : List Digit} (h : read? s = some ds) :
    byteSize s = (ds.length + 1) / 2 := by
  obtain ⟨body, rfl, hdigits⟩ := read?_eq_some_iff.1 h
  rw [byteSize, unmark?_cons]
  exact congrArg (fun n => (n + 1) / 2) (Text.length16_of_digits? hdigits)

/-- A hexadecimal text that claims to hold `n` bytes. -/
def IsSized (n : Nat) (s : String) : Prop :=
  (∃ k, HasDigits k s) ∧ byteSize s.toList = n

theorem isSized_iff {n : Nat} {s : String} :
    IsSized n s ↔ ∃ ds, read? s.toList = some ds ∧ (ds.length + 1) / 2 = n := by
  constructor
  · rintro ⟨⟨k, hk⟩, hsize⟩
    obtain ⟨ds, hread, -⟩ := hasDigits_iff.1 hk
    exact ⟨ds, hread, (byteSize_of_read? hread).symm.trans hsize⟩
  · rintro ⟨ds, hread, hsize⟩
    exact ⟨⟨ds.length, hasDigits_iff.2 ⟨ds, hread, rfl⟩⟩, (byteSize_of_read? hread).trans hsize⟩

/-- The number that bytes spell, most significant byte first. -/
def bigEndian (bytes : List UInt8) : Nat :=
  bytes.foldl (fun n b => 256 * n + b.toNat) 0

theorem bigEndian_eq_placeValue (bytes : List UInt8) :
    bigEndian bytes = placeValue 256 (bytes.map UInt8.toNat) :=
  List.foldl_map.symm

/-- Rows of bytes of one length are told apart by the numbers that they spell. -/
theorem bigEndian_injective {bytes other : List UInt8} (hlength : bytes.length = other.length)
    (h : bigEndian bytes = bigEndian other) : bytes = other := by
  rw [bigEndian_eq_placeValue, bigEndian_eq_placeValue] at h
  refine (List.map_inj_right fun _ _ => UInt8.toNat_inj.1).1 (placeValue_injective ?_ ?_ ?_ h)
  · exact List.forall_mem_map.2 fun b _ => b.toNat_lt
  · exact List.forall_mem_map.2 fun b _ => b.toNat_lt
  · rw [List.length_map, List.length_map, hlength]

theorem bigEndian_lt (bytes : List UInt8) : bigEndian bytes < 256 ^ bytes.length := by
  rw [bigEndian_eq_placeValue, ← List.length_map UInt8.toNat]
  exact placeValue_lt (List.forall_mem_map.2 fun b _ => b.toNat_lt)

/-! ### Digits two by two -/

theorem length_toBytes : ∀ ds : List Digit, (toBytes ds).length = ds.length / 2
  | [] => rfl
  | [_] => by simp [toBytes]
  | d :: e :: ds => by
      rw [toBytes, List.length_cons, length_toBytes ds, List.length_cons, List.length_cons]
      omega

theorem toBytes_append : ∀ {ds : List Digit}, ds.length % 2 = 0 → ∀ es : List Digit,
    toBytes (ds ++ es) = toBytes ds ++ toBytes es
  | [], _, _ => rfl
  | [_], h, _ => by contradiction
  | d :: e :: ds, h, es => by
      have hrest : ds.length % 2 = 0 := by
        rwa [List.length_cons, List.length_cons, Nat.add_assoc, Nat.add_mod_right] at h
      rw [List.cons_append, List.cons_append, toBytes, toBytes, toBytes_append hrest,
        List.cons_append]

theorem foldl_toBytes : ∀ {ds : List Digit}, ds.length % 2 = 0 → ∀ n,
    (toBytes ds).foldl (fun n b => 256 * n + b.toNat) n = ds.foldl (fun n d => 16 * n + d.val) n
  | [], _, _ => rfl
  | [_], h, _ => by contradiction
  | d :: e :: ds, h, n => by
      have hrest : ds.length % 2 = 0 := by
        rwa [List.length_cons, List.length_cons, Nat.add_assoc, Nat.add_mod_right] at h
      have hd := d.isLt
      have he := e.isLt
      have hbyte : (UInt8.ofNat (16 * d.val + e.val)).toNat = 16 * d.val + e.val :=
        UInt8.toNat_ofNat_of_lt' (show _ < 256 by omega)
      have hpair : 256 * n + (16 * d.val + e.val) = 16 * (16 * n + d.val) + e.val := by omega
      rw [toBytes, List.foldl_cons, foldl_toBytes hrest, hbyte, hpair, List.foldl_cons,
        List.foldl_cons]

/-- Digits that are whole bytes spell the same number as these. -/
theorem bigEndian_toBytes {ds : List Digit} (h : ds.length % 2 = 0) :
    bigEndian (toBytes ds) = value ds :=
  foldl_toBytes h 0

end Hex

end EpochClaims
