import EpochClaims.Proofs.EventLog.Batch

/-!
# The size of the data of a log

A selector says how many words its logs need, and no byte less will do:
`short_data_is_refused`. Bytes behind these words are not looked at, so that data
of any greater size is read as if it were cut (`Hex.cut`) to the size of its
words: `long_data_is_read` is the end of an epoch in 33 bytes.
-/

namespace EpochClaims

namespace Hex

theorem digits?_take {s : List Char} {ds : List Digit} (h : digits? s = some ds) (k : Nat) :
    digits? (s.take k) = some (ds.take k) := by
  induction s generalizing ds k with
  | nil =>
      obtain rfl := Option.some.inj h
      simp
  | cons c s ih =>
      rw [digits?_cons, Option.bind_eq_some_iff] at h
      obtain ⟨d, hd, hrest⟩ := h
      obtain ⟨es, hes, rfl⟩ := Option.map_eq_some_iff.1 hrest
      cases k with
      | zero => rfl
      | succ k => rw [List.take_succ_cons, List.take_succ_cons, digits?_cons, hd, ih hes]; rfl

/-- The first bytes of a hexadecimal text, with its marker. -/
def cut (bytes : Nat) (s : String) : String :=
  String.ofList (s.toList.take (2 + 2 * bytes))

theorem read?_cut {s : String} {ds : List Digit} (h : read? s.toList = some ds) (bytes : Nat) :
    read? (cut bytes s).toList = some (ds.take (2 * bytes)) := by
  obtain ⟨body, hbody, hdigits⟩ := read?_eq_some_iff.1 h
  rw [cut, String.toList_ofList, hbody, Nat.add_comm]
  exact digits?_take hdigits (2 * bytes)

end Hex

namespace EventLog

variable {selector : String} {n size : Nat} {s : String}

/-- A log of a known selector, its data a hexadecimal text of whole bytes, is
read if the bytes that the selector needs are there and the first word of an
outcome is a code. -/
theorem exists_decode_iff_of_hasDigits (hselector : Needs selector n)
    (hs : Hex.HasDigits (2 * size) s) (rest : List Document) :
    (∃ e, decode ⟨.text selector :: rest, .text s⟩ = .ok e) ↔
      32 * n ≤ size ∧
        (selector ≠ newEpochSelector → ∃ code ≤ 2, Hex.number? (Hex.cut 32 s) = some code) := by
  obtain ⟨ds, hread, hlength⟩ := Hex.hasDigits_iff.1 hs
  have hcarries : Carries (.text s) ds := carries_of_read? hread hlength
  have hnumber : Hex.number? (Hex.cut 32 s) = some (Hex.value (wordAt ds 0)) :=
    Hex.number?_of_read? (Hex.read?_cut hread 32)
  rw [exists_decode_iff hselector]
  constructor
  · rintro ⟨es, hes, hlegible⟩
    obtain rfl := hes.unique hcarries
    have hle := hlegible.length_le
    rw [wordLength] at hle
    exact ⟨by omega, fun hne => ⟨_, hlegible.code_le hne, hnumber⟩⟩
  · rintro ⟨hle, hcode⟩
    refine ⟨ds, hcarries, by rw [wordLength]; omega, fun hne => ?_⟩
    obtain ⟨code, hcode, heq⟩ := hcode hne
    exact Option.some.inj (hnumber.symm.trans heq) ▸ hcode

/-- Data of a known selector that is shorter than its words is refused as an
invalid log, on its own and in every batch of which it is the first malformed
log. Data of that length or more is read by its first bytes alone: what stands
behind them makes no difference. -/
theorem short_data_is_refused (hselector : Needs selector n) (hs : Hex.HasDigits (2 * size) s)
    (rest : List Document) :
    (size < 32 * n → ∃ f, decode ⟨.text selector :: rest, .text s⟩ = .error f ∧
        f.report.kind = "InvalidEventLogError" ∧
        ∀ before after, (∀ l ∈ before, ¬ l.IsMalformed) →
          decodeAll (before ++ ⟨.text selector :: rest, .text s⟩ :: after) = .error f) ∧
      ((∃ e, decode ⟨.text selector :: rest, .text s⟩ = .ok e) ↔
        32 * n ≤ size ∧
          (selector ≠ newEpochSelector → ∃ code ≤ 2, Hex.number? (Hex.cut 32 s) = some code)) ∧
      (32 * n ≤ size →
        Hex.HasDigits (2 * (32 * n)) (Hex.cut (32 * n) s) ∧
          decode ⟨.text selector :: rest, .text s⟩ =
            decode ⟨.text selector :: rest, .text (Hex.cut (32 * n) s)⟩) := by
  obtain ⟨ds, hread, hlength⟩ := Hex.hasDigits_iff.1 hs
  have hcarries : Carries (.text s) ds := carries_of_read? hread hlength
  refine ⟨fun hshort => ?_, exists_decode_iff_of_hasDigits hselector hs rest, fun hle => ?_⟩
  · have hbad : IsMalformed ⟨.text selector :: rest, .text s⟩ := by
      refine .undecodable hselector rest fun es hes => ?_
      obtain rfl := hes.unique hcarries
      rw [wordLength]
      omega
    obtain ⟨f, hdecode, hf⟩ := hbad.exists_decode
    exact ⟨f, hdecode, f.kind_of_ne hf, fun before after hbefore =>
      decodeAll_eq_error_iff.2 ⟨before, _, after, rfl, hbefore, hbad, hdecode⟩⟩
  · have hcut := Hex.read?_cut hread (32 * n)
    have hsize : (ds.take (2 * (32 * n))).length = 2 * (32 * n) :=
      List.length_take_of_le (by omega)
    have hwords : 2 * (32 * n) = wordLength * n := by
      rw [wordLength]
      omega
    refine ⟨Hex.hasDigits_iff.2 ⟨_, hcut, hsize⟩, ?_⟩
    refine decode_eq_of_take hselector rest hcarries ?_ (by rw [← hwords]; omega)
    rw [← hwords]
    exact carries_of_read? hcut hsize

/-- Two bytes are no outcome. -/
theorem short_data_is_refused_twoBytes :
    ∃ f, decode ⟨[.text claimReceivedSelector], .text "0x1234"⟩ = .error f ∧
      decodeAll [stray, ⟨[.text claimReceivedSelector], .text "0x1234"⟩] = .error f := by
  have hdata : Hex.HasDigits (2 * 2) "0x1234" :=
    Hex.hasDigits_iff.2 ⟨[1, 2, 3, 4], by decide +kernel, rfl⟩
  obtain ⟨f, hdecode, -, hbatch⟩ :=
    (short_data_is_refused .claimReceived hdata []).1 (by decide)
  exact ⟨f, hdecode, hbatch [stray] [] (by simpa using not_isMalformed_stray)⟩

/-- The end of an epoch is read from 33 bytes. -/
theorem long_data_is_read :
    Hex.HasDigits (2 * 33)
        "0x111111111111111111111111111111111111111111111111111111111111111100" ∧
      decode ⟨[.text newEpochSelector],
          .text "0x111111111111111111111111111111111111111111111111111111111111111100"⟩ =
        .ok (.newEpoch
          (.text "0x1111111111111111111111111111111111111111111111111111111111111111")) := by
  have hread : Hex.read?
      "0x111111111111111111111111111111111111111111111111111111111111111100".toList =
      some (List.replicate 64 1 ++ [0, 0]) := by
    decide +kernel
  have hlength : (List.replicate 64 (1 : Hex.Digit) ++ [0, 0]).length = 2 * 33 := rfl
  refine ⟨Hex.hasDigits_iff.2 ⟨_, hread, hlength⟩, ?_⟩
  rw [decode_newEpoch, decodeClaim_of_carries (carries_of_read? hread hlength) (by decide)]
  decide +kernel

end EventLog

end EpochClaims
